import CodexMonitor.Collector.Watch
import CodexMonitor.Selection

/-!
# What a worker answers

`sample_file` asks the file system about the path of a watch: what is there, whether it
opens, what reading it gives.  These answers are the state of the path; the sampler gives
it one of the outcomes of `FileSample`, and evaluates the condition of the watch on a
document it could read.
-/

namespace CodexMonitor.Collector

/-! ## The state of a path -/

/-- The errors of the calls that look at a path.  A call that a signal interrupts says nothing about
the path. -/
inductive Errno
  | enoent | eacces | eperm | einval | eagain | ealready | einprogress | epipe | eshutdown | echild
  | econnaborted | econnrefused | econnreset | eexist | eisdir | enotdir | esrch | etimedout | eloop
  | other (code : Nat)
deriving DecidableEq, Repr

/-- What reading a file to its size gives. -/
inductive Reading
  | content (bytes : List UInt8)
  | failed (errno : Errno)
  /-- the deadline passes, the file ends early, or it is changed meanwhile -/
  | late | short | changed
deriving DecidableEq, Repr

inductive FileState
  /-- the path leads nowhere -/
  | unresolved (errno : Errno)
  | symlink
  /-- a directory, a pipe, a socket or a device, which opens or does not -/
  | special (opening : Option Errno)
  | regular (size : Nat) (opening : Option Errno) (reading : Reading)
deriving DecidableEq, Repr

/-! ## Conditions -/

def maxFileBytes : Nat := 8 * 1024 * 1024

def maxExpectedBytes : Nat := 4096

/-- `evaluate_condition`: whether the condition matched, none when it is invalid or does not apply
to the document. -/
def evaluateCondition (crates : Crates) (document condition : Value) : Option Bool := do
  let pointer ← condition.getStr "pointer"
  let operator ← (condition.getStr "operator").bind Operator.ofString
  let expected ← condition.get "value"
  if maxExpectedBytes < (canonicalJson crates expected).utf8ByteSize then none
  else
    let tokens ← pointerTokens pointer
    let current ← document.doubles.resolve tokens
    operator.decide current expected.doubles

def Predicate.ofOption : Option Bool → Predicate
  | some true => .matched
  | some false => .notMatched
  | none => .invalid

/-! ## `sample_file` -/

/-- The functions a worker calls beside the JSON library of the store. -/
structure WorkerCrates extends Crates where
  /-- `serde_json::from_slice` -/
  fromSlice : List UInt8 → Option Value
  /-- the digest in lower-case hexadecimal -/
  sha256 : List UInt8 → String

def errorName : Errno → String
  | .eacces | .eperm => "PermissionDenied"
  | .enoent => "FileNotFoundError"
  | .einval => "InvalidInput"
  | _ => "OSError"

/-- What is there, and what the condition makes of it. -/
def presentFile (crates : WorkerCrates) (condition : Option Value) (bytes : List UInt8) : Outcome :=
  match condition with
  | none => .present (crates.sha256 bytes) none
  | some condition =>
      match crates.fromSlice bytes with
      | none => .unreadable "invalid_json"
      | some document => .present (crates.sha256 bytes)
          (some (.ofOption (evaluateCondition crates.toCrates document condition)))

/-- The outcome of `sample_file`. -/
def FileState.sample (crates : WorkerCrates) (condition : Option Value) : FileState → Outcome
  | .unresolved .enoent => .missing
  | .unresolved errno => .unreadable (errorName errno)
  | .symlink => .unreadable "symlink"
  | .special _ => .unreadable "not_regular_file"
  | .regular size opening reading =>
      if maxFileBytes < size then .unreadable "file_too_large"
      else
        match opening, reading with
        | some .enoent, _ => .missing
        | some errno, _ => .unreadable (errorName errno)
        | none, .late => .unreadable "read_timeout"
        | none, .short => .unreadable "short_read"
        | none, .changed => .unreadable "changed_during_read"
        | none, .failed .eagain => .unreadable "read_timeout"
        | none, .failed errno => .unreadable (errorName errno)
        | none, .content bytes => presentFile crates condition bytes

/-- The path a sample is shown under; `cwd` is the current directory, when there is one. -/
def absoluteDisplayPath (cwd : Option String) (path : String) : String :=
  if (Path.ofString path).absolute = true then path
  else cwd.elim path fun directory => directory ++ "/" ++ path

/-- `sample_file`, and where the path leads when its directory resolves. -/
def sampleFile (crates : WorkerCrates) (cwd : Option String) (path : String)
    (condition : Option Value) (native : Option String) (state : FileState) : FileSample where
  path := absoluteDisplayPath cwd path
  outcome := state.sample crates condition
  nativePath := native

/-- A worker answers what it was asked. -/
theorem sampleFile_answers (crates : WorkerCrates) (cwd : Option String) (path : String)
    (condition : Option Value) (native : Option String) (state : FileState) :
    (sampleFile crates cwd path condition native state).Answers condition := by
  have hpresent : ∀ sha256 predicate, state.sample crates condition = .present sha256 predicate →
      predicate.isSome = condition.isSome := by
    intro sha256 predicate h
    unfold FileState.sample at h
    split at h
    · cases h
    · cases h
    · cases h
    · cases h
    · split at h
      · cases h
      split at h
      iterate 7 cases h
      unfold presentFile at h
      split at h
      · cases h
        rfl
      · split at h
        · cases h
        · cases h
          rfl
  unfold FileSample.Answers
  split
  · rename_i sha256 predicate h
    exact hpresent sha256 predicate h
  · trivial

end CodexMonitor.Collector
