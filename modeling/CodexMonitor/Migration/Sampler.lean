import CodexMonitor.Collector.Sample
import CodexMonitor.Migration.Encodings

/-!
# The sampler of the Python runtime

The Python runtime opened a path first and asked the descriptor what it is; the name of
the exception says why it did not open.  A sample is compared with the last value of the
watch's checkpoint, as a result of its condition when it has one.
-/

namespace CodexMonitor

open Collector (Errno FileState Outcome Reading)

/-- The functions of the Python runtime that look at the content of a file. -/
structure PythonWorker extends Python where
  /-- `json.loads` on a text in UTF-8, whose numbers are still to be read -/
  loads : List UInt8 → Option (Tree Literal)
  /-- `hashlib.sha256`, in lower-case hexadecimal -/
  sha256 : List UInt8 → String

/-- The class of the exception of an error. -/
def exceptionName : Errno → String
  | .enoent => "FileNotFoundError"
  | .eacces | .eperm => "PermissionError"
  | .eagain | .ealready | .einprogress => "BlockingIOError"
  | .epipe | .eshutdown => "BrokenPipeError"
  | .echild => "ChildProcessError"
  | .econnaborted => "ConnectionAbortedError"
  | .econnrefused => "ConnectionRefusedError"
  | .econnreset => "ConnectionResetError"
  | .eexist => "FileExistsError"
  | .eisdir => "IsADirectoryError"
  | .enotdir => "NotADirectoryError"
  | .esrch => "ProcessLookupError"
  | .etimedout => "TimeoutError"
  | .einval | .eloop | .other _ => "OSError"

/-- `str(Path(path))`: without empty and `.` components; two slashes in front are kept. -/
def strPath (path : String) : String :=
  let parts := ((path.toList.splitOn '/').map String.ofList).filter fun part =>
    part ≠ "" ∧ part ≠ "."
  let slashes := (path.toList.takeWhile (· = '/')).length
  let root := if slashes = 0 then "" else if slashes = 2 then "//" else "/"
  if slashes = 0 ∧ parts = [] then "." else root ++ "/".intercalate parts

/-! ## `_safe_read` -/

/-- The outcome when the path does not open. -/
def openError : Errno → Outcome
  | .enoent => .missing
  | errno => .unreadable (exceptionName errno)

/-- `_safe_read`: what is there, and the content. -/
def safeRead (python : PythonWorker) : FileState → Outcome × Option (List UInt8)
  | .unresolved errno => (openError errno, none)
  | .symlink => (openError .eloop, none)
  | .special none => (.unreadable "not_regular_file", none)
  | .special (some errno) => (openError errno, none)
  | .regular _ (some errno) _ => (openError errno, none)
  | .regular size none reading =>
      if Collector.maxFileBytes < size then (.unreadable "file_too_large", none)
      else
        match reading with
        | .content bytes => (.present (python.sha256 bytes) none, some bytes)
        | .failed errno => (.unreadable (exceptionName errno), none)
        | .late => (.unreadable "read_timeout", none)
        | .short => (.unreadable "short_read", none)
        | .changed => (.unreadable "changed_during_read", none)

/-! ## Conditions -/

/-- The value of a number: an integer of any size, or a double. -/
def PyNumber.value : PyNumber → Rat
  | .int i => i
  | .float bits => doubleValue bits

def Tree.isNumber : Tree PyNumber → Bool
  | .number _ => true
  | _ => false

/-- `normalize_condition`. -/
def normalizeCondition (python : Python) : Tree PyNumber → Option (Condition PyNumber)
  | .object fields => do
      let condition ← (Tree.object fields).condition
      if fields.length ≠ 3 then none
      else if (pointerTokens condition.pointer).isNone then none
      else if Collector.maxExpectedBytes < (compact python condition.value).utf8ByteSize then none
      else if condition.operator.orders && !condition.value.isNumber then none
      else some condition
  | _ => none

/-- `load_condition`. -/
def loadCondition (python : PythonWorker) (encoded : String) : Option (Condition PyNumber) := do
  let document ← python.loads encoded.toUTF8.toList
  let condition ← document.read python.number
  normalizeCondition python.toPython condition

/-- `evaluate`: the result of a condition, or the error of an invalid one. -/
def evaluate (document : Tree PyNumber) (condition : Condition PyNumber) : Except String Bool :=
  match (pointerTokens condition.pointer).bind fun tokens =>
      (document.map PyNumber.value).resolve tokens with
  | none => .error "missing_pointer"
  | some selected =>
      match condition.operator.decide selected (condition.value.map PyNumber.value) with
      | none => .error "ordering_requires_number"
      | some matched => .ok matched

/-! ## Samples -/

/-- A sample: what `_safe_read` found, and the result of a condition beside it. -/
structure PySample where
  path : String
  outcome : Outcome
  predicate : Option (Except String Bool)

/-- `safe_file_sample`. -/
def safeFileSample (python : PythonWorker) (path : String) (state : FileState) : PySample :=
  ⟨strPath path, (safeRead python state).1, none⟩

/-- `safe_json_sample`. -/
def safeJsonSample (python : PythonWorker) (path : String) (condition : Condition PyNumber)
    (state : FileState) : PySample :=
  match safeRead python state with
  | (.present sha256 _, some bytes) =>
      match (python.loads bytes).bind fun document => document.read python.number with
      | none => ⟨strPath path, .unreadable "invalid_json", none⟩
      | some document =>
          ⟨strPath path, .present sha256 none, some (evaluate document condition)⟩
  | (outcome, _) => ⟨strPath path, outcome, none⟩

/-- `json.dumps` of a dictionary whose values are written already. -/
def dumps (fields : List (String × String)) : String :=
  "\x7b" ++ ", ".intercalate (fields.map fun field => encodeBasestring field.1 ++ ": " ++ field.2)
    ++ "\x7d"

def dumpPredicate : Except String Bool → String
  | .ok true => dumps [("state", encodeBasestring "matched")]
  | .ok false => dumps [("state", encodeBasestring "not_matched")]
  | .error error =>
      dumps [("state", encodeBasestring "invalid"), ("error", encodeBasestring error)]

/-- A sample as its worker prints it. -/
def PySample.encoded (sample : PySample) : String :=
  let path := ("path", encodeBasestring sample.path)
  let state (name : String) := ("state", encodeBasestring name)
  match sample.outcome with
  | .missing => dumps [path, state "missing"]
  | .unreadable error => dumps [path, state "unreadable", ("error", encodeBasestring error)]
  | .present sha256 _ =>
      dumps ([path, state "present", ("sha256", encodeBasestring sha256)] ++
        sample.predicate.toList.map fun predicate => ("predicate", dumpPredicate predicate))

def maxSampleResultBytes : Nat := 4096

/-- The condition a row has; an empty text is none. -/
def conditionText (row : Watch) : Option String := row.condition.filter fun text => text ≠ ""

/-- The sampler a worker runs for a row. -/
def runSampler (python : PythonWorker) (row : Watch) (state : FileState) : Option PySample :=
  match conditionText row with
  | none => some (safeFileSample python row.path state)
  | some text => (loadCondition python text).map fun condition =>
      safeJsonSample python row.path condition state

/-- What a worker returns of a sample; of one that is too long, nothing that has a path. -/
def workerResult (sample : PySample) : Option PySample :=
  if maxSampleResultBytes < sample.encoded.utf8ByteSize then none else some sample

/-! ## Observations -/

def transientSampleErrors : List String :=
  ["changed_during_read", "short_read", "read_timeout", "worker_timeout", "worker_exited",
    "worker_exception", "worker_result"]

/-- The sample says nothing about the file. -/
def isTransientError (error : String) : Bool :=
  error ∈ transientSampleErrors || "worker_".toList.isPrefixOf error.toList

/-- `_apply_result` and `_observe_sample`: what is compared with the last value. -/
def PySample.observation (sample : PySample) (row : Watch) : Option Value :=
  if sample.path ≠ row.path then none
  else
    match conditionText row with
    | none =>
        match sample.outcome with
        | .unreadable error =>
            if isTransientError error = true then none
            else some (.object (Collector.FileSample.mk sample.path sample.outcome none).fields)
        | _ => some (.object (Collector.FileSample.mk sample.path sample.outcome none).fields)
    | some _ =>
        match sample.outcome, sample.predicate with
        | .present .., some (.ok true) => some (.object [("condition", .string "matched")])
        | .present .., some (.ok false) => some (.object [("condition", .string "not_matched")])
        | _, _ => none

/-- What the Python runtime observes of a path. -/
def observe (python : PythonWorker) (row : Watch) (state : FileState) : Option Value :=
  ((runSampler python row state).bind workerResult).bind fun sample => sample.observation row

end CodexMonitor
