import CodexMonitor.Canonical
import CodexMonitor.Store.Intake
import CodexMonitor.Store.Routes

/-!
# One sample of one watch

The collector keeps a `Runtime` for every managed watch and samples its file in a
worker process.  `process_watch` is modelled in the three parts between which the
rest of the receiver may run: what the worker's answer makes of the runtime
(`look`), what the checkpoint that is read next decides (`judge`), and the commit
that may follow.
-/

namespace CodexMonitor.Collector

open Transaction

/-! ## Paths -/

/-- A path by its components, as the standard library compares paths. -/
structure Path where
  absolute : Bool
  parts : List String
deriving DecidableEq, Repr

namespace Path

/-- Empty and `.` components are skipped, a leading `.` of a relative path excepted. -/
def ofString (text : String) : Path :=
  let absolute : Bool := text.toList.head? = some '/'
  let pieces := (text.toList.splitOn '/').map String.ofList
  let kept := pieces.filter fun piece => piece ≠ "" ∧ piece ≠ "."
  ⟨absolute, if absolute = false ∧ pieces.head? = some "." then "." :: kept else kept⟩

def dot : Path := ⟨false, ["."]⟩

end Path

/-- The directory that holds a path. -/
def parentFor (path : Path) : Path :=
  if path.parts = [] ∨ (path.absolute = false ∧ path.parts.length = 1) then .dot
  else ⟨path.absolute, path.parts.dropLast⟩

/-! ## Watches -/

structure Watch where
  id : String
  name : String
  path : String
  interval : Rat
  debounce : Rat
  condition : Option Value
  enabled : Bool
  removed : Bool
  epoch : Int

/-- `enabled && !removed`. -/
def Watch.active (w : Watch) : Bool := w.enabled && !w.removed

/-- The watch's path, as paths are compared. -/
def Watch.location (w : Watch) : Path := Path.ofString w.path

/-- The directory the native watcher is asked to watch. -/
def Watch.parent (w : Watch) : Path := parentFor w.location

def maxConditionBytes : Nat := 8 * 1024

/-- The condition of a row: `null` when its text is not JSON, and `null` is no condition. -/
def conditionOf (crates : Crates) (text : Option String) : Option Value :=
  match text.map fun text => (crates.fromStr text).getD .null with
  | some .null => none
  | condition => condition

/-- The watch of a row, if the collector can use it.  The compact text of a condition is as long
as its canonical one. -/
def watchFromValue (crates : Crates) (row : CodexMonitor.Watch) : Option Watch :=
  let condition := conditionOf crates row.condition
  if (condition.any fun value => maxConditionBytes < (canonicalJson crates value).utf8ByteSize) ∨
      row.interval < 0 ∨ row.debounce < 0 then
    none
  else
    some {
      id := row.id
      name := row.name
      path := row.path
      interval := max row.interval minInterval
      debounce := min row.debounce 86400
      condition := condition
      enabled := row.enabled
      removed := row.removed
      epoch := row.epoch }

/-- A changed value that is not old enough yet. -/
structure Candidate where
  sample : Value
  firstSeen : Rat
  epoch : Int

structure Runtime where
  watch : Option Watch
  candidate : Option Candidate
  nextDue : Option Rat
  dirty : Bool
  nativePath : Option Path

/-- `Runtime::default()`. -/
def Runtime.new : Runtime := ⟨none, none, none, false, none⟩

def Runtime.epoch (r : Runtime) : Option Int := r.watch.map Watch.epoch

/-- The runtime's watch is enabled and not removed. -/
def Runtime.active (r : Runtime) : Bool := r.watch.any Watch.active

/-! ## What a worker answers -/

inductive Predicate
  | matched | notMatched | invalid
deriving DecidableEq, Repr

inductive Outcome
  | missing
  | unreadable (error : String)
  | present (sha256 : String) (predicate : Option Predicate)
deriving DecidableEq, Repr

/-- A sample of a file: the path it is shown under, what was found, and where the path leads when
its directory could be resolved. -/
structure FileSample where
  path : String
  outcome : Outcome
  nativePath : Option String
deriving DecidableEq, Repr

/-- The result of a condition. -/
def Predicate.value : Predicate → Value
  | .matched => .object [("state", .string "matched")]
  | .notMatched => .object [("state", .string "not_matched")]
  | .invalid => .object [("error", .string "invalid_condition"), ("state", .string "invalid")]

/-- The sample without its native path. -/
def FileSample.fields (sample : FileSample) : List (String × Value) :=
  match sample.outcome with
  | .missing => [("path", .string sample.path), ("state", .string "missing")]
  | .unreadable error =>
      [("error", .string error), ("path", .string sample.path), ("state", .string "unreadable")]
  | .present sha256 none =>
      [("path", .string sample.path), ("sha256", .string sha256), ("state", .string "present")]
  | .present sha256 (some predicate) =>
      [("path", .string sample.path), ("predicate", predicate.value), ("sha256", .string sha256),
        ("state", .string "present")]

/-- The sample as the worker prints it. -/
def FileSample.value (sample : FileSample) : Value :=
  match sample.nativePath with
  | none => .object sample.fields
  | some path => .object (("_native_path", .string path) :: sample.fields)

/-- A worker evaluates a condition exactly when it is given one and the file is there. -/
def FileSample.Answers (sample : FileSample) (condition : Option Value) : Prop :=
  match sample.outcome with
  | .present _ predicate => predicate.isSome = condition.isSome
  | _ => True

instance (sample : FileSample) (condition : Option Value) :
    Decidable (sample.Answers condition) := by
  unfold FileSample.Answers
  split <;> infer_instance

/-! ## Comparing values -/

/-- Numbers of one kind and one value are equal; the two zeros of a double are. -/
def Number.eq : Number → Number → Bool
  | .posInt a, .posInt b => a = b
  | .negInt a, .negInt b => a = b
  | .float a, .float b => a = b ∨ (a % 2 ^ 63 = 0 ∧ b % 2 ^ 63 = 0)
  | _, _ => false

mutual

/-- `==` of the JSON library; objects are equal as maps. -/
def Value.eq : Value → Value → Bool
  | .null, .null => true
  | .bool a, .bool b => a = b
  | .number a, .number b => Number.eq a b
  | .string a, .string b => a = b
  | .array items, .array others => itemsEq items others
  | .object fields, .object others => fields.length = others.length && fieldsEq fields others
  | _, _ => false

def itemsEq : List Value → List Value → Bool
  | [], [] => true
  | a :: items, b :: others => Value.eq a b && itemsEq items others
  | _, _ => false

def fieldsEq : List (String × Value) → List (String × Value) → Bool
  | [], _ => true
  | (key, a) :: fields, others =>
      (match (Value.object others).get key with
        | some b => Value.eq a b
        | none => false) && fieldsEq fields others

end

def changed (previous current : Value) : Bool := !Value.eq previous current

/-! ## `process_watch` -/

/-- Errors of a sample that say nothing about the file. -/
def transientErrors : List String :=
  ["read_timeout", "changed_during_read", "short_read", "worker_timeout", "worker_exited"]

/-- The sample says nothing about the file. -/
def isTransient (sample : Value) : Bool :=
  sample.getStr "state" = some "unreadable" ∧
    (sample.getStr "error").any fun error => error ∈ transientErrors

/-- `sample.remove("_native_path")`. -/
def takeNativePath : Value → Option Path × Value
  | .object fields =>
      (((Value.object fields).getStr "_native_path").map Path.ofString,
        .object (fields.filter fun field => field.1 ≠ "_native_path"))
  | sample => (none, sample)

/-- The result of a condition, if it has one. -/
def conditionState (sample : Value) : Option String :=
  ((sample.get "predicate").bind fun predicate => predicate.getStr "state").filter fun state =>
    state ∈ ["matched", "not_matched"]

/-- `process_watch` up to the read of the checkpoint. -/
inductive Looked
  /-- it returned, with or without an error -/
  | ended (ok : Bool) (runtime : Runtime)
  | observed (value : Value) (runtime : Runtime)

/-- What the worker's answer makes of the runtime; no answer is an error of the worker. -/
def look (runtime : Runtime) (reply : Option Value) : Looked :=
  match runtime.watch.filter Watch.active, reply with
  | none, _ => .ended true runtime
  | some _, none => .ended false runtime
  | some watch, some sample =>
      let (nativePath, sample) := takeNativePath sample
      let runtime := { runtime with nativePath := nativePath }
      if isTransient sample = true then .ended true runtime
      else if watch.condition.isSome = true ∧ sample.getStr "state" ≠ some "present" then
        .ended true runtime
      else if watch.condition.isSome = true then
        match conditionState sample with
        | none => .ended false runtime
        | some state => .observed (.object [("condition", .string state)]) runtime
      else .observed sample runtime

/-- The runtime of a look. -/
def Looked.runtime : Looked → Runtime
  | .ended _ runtime => runtime
  | .observed _ runtime => runtime

/-- The worker's answer tells the runtime where its path leads, and nothing else. -/
theorem look_frame (r : Runtime) (reply : Option Value) :
    (look r reply).runtime = { r with nativePath := (look r reply).runtime.nativePath } := by
  unfold look
  split
  · rfl
  · rfl
  · simp only
    split
    · rfl
    split
    · rfl
    split
    · split <;> rfl
    · rfl

/-- The sample says nothing about the file, or the condition asks for a file that is not there. -/
def FileSample.Skips (sample : FileSample) (condition : Option Value) : Bool :=
  match sample.outcome with
  | .missing => condition.isSome
  | .unreadable error => error ∈ transientErrors || condition.isSome
  | .present .. => false

/-- The result of the condition that was evaluated. -/
def FileSample.result (sample : FileSample) : Option String :=
  match sample.outcome with
  | .present _ (some .matched) => some "matched"
  | .present _ (some .notMatched) => some "not_matched"
  | _ => none

/-- The file is there, and the condition has no result. -/
def FileSample.Misses (sample : FileSample) (condition : Option Value) : Bool :=
  match sample.outcome with
  | .present .. => condition.isSome && sample.result.isNone
  | _ => false

/-- What is compared with the checkpoint: the result of the condition, or the sample. -/
def FileSample.observation (sample : FileSample) (condition : Option Value) : Value :=
  match condition, sample.result with
  | some _, some state => .object [("condition", .string state)]
  | _, _ => .object sample.fields

theorem takeNativePath_value (sample : FileSample) :
    takeNativePath sample.value =
      (sample.nativePath.map Path.ofString, .object sample.fields) := by
  have hfields : sample.fields.filter (fun field => field.1 ≠ "_native_path") = sample.fields := by
    unfold FileSample.fields
    split <;> rfl
  unfold FileSample.value
  cases sample.nativePath with
  | none =>
      have hget : (Value.object sample.fields).getStr "_native_path" = none := by
        unfold FileSample.fields
        split <;> rfl
      simp only [takeNativePath, hget, hfields, Option.map_none]
  | some path =>
      simp only [takeNativePath, List.filter_cons]
      rw [hfields]
      rfl

/-- The texts that say that a sample says nothing. -/
theorem isTransient_fields (sample : FileSample) :
    isTransient (.object sample.fields) = true ↔
      ∃ error ∈ transientErrors, sample.outcome = .unreadable error := by
  have hstate : (Value.object sample.fields).getStr "state" = some (match sample.outcome with
      | .missing => "missing"
      | .unreadable _ => "unreadable"
      | .present .. => "present") := by
    unfold FileSample.fields
    split <;> simp_all [Value.getStr, Value.get, Value.asStr]
  unfold isTransient
  rw [decide_eq_true_iff, hstate]
  cases houtcome : sample.outcome with
  | missing => simp
  | unreadable error =>
      have herror : (Value.object sample.fields).getStr "error" = some error := by
        unfold FileSample.fields
        rw [houtcome]
        rfl
      simp [herror]
  | present sha256 predicate => simp

theorem conditionState_fields (sample : FileSample) :
    conditionState (.object sample.fields) = sample.result := by
  unfold FileSample.fields FileSample.result
  cases sample.outcome with
  | missing => rfl
  | unreadable error => rfl
  | present sha256 predicate =>
      cases predicate with
      | none => rfl
      | some predicate => cases predicate <;> rfl

/-- What a sample makes of the runtime of an active watch. -/
theorem look_sample {r : Runtime} {w : Watch} (hw : r.watch = some w) (hactive : w.active = true)
    (sample : FileSample) :
    look r (some sample.value) =
      if sample.Skips w.condition = true then
        .ended true { r with nativePath := sample.nativePath.map Path.ofString }
      else if sample.Misses w.condition = true then
        .ended false { r with nativePath := sample.nativePath.map Path.ofString }
      else
        .observed (sample.observation w.condition)
          { r with nativePath := sample.nativePath.map Path.ofString } := by
  have hfilter : r.watch.filter Watch.active = some w := by
    rw [hw, Option.filter_some, if_pos hactive]
  have htransient := isTransient_fields sample
  unfold look
  rw [hfilter]
  simp only [takeNativePath_value]
  unfold FileSample.Skips FileSample.Misses FileSample.observation
  cases houtcome : sample.outcome with
  | missing =>
      have hsteady : isTransient (.object sample.fields) = false := by
        simpa [houtcome] using htransient
      have hstate : (Value.object sample.fields).getStr "state" = some "missing" := by
        unfold FileSample.fields
        rw [houtcome]
        rfl
      simp only [hsteady, hstate]
      cases w.condition <;> simp
  | unreadable error =>
      have hstate : (Value.object sample.fields).getStr "state" = some "unreadable" := by
        unfold FileSample.fields
        rw [houtcome]
        rfl
      have hiff : isTransient (.object sample.fields) = decide (error ∈ transientErrors) := by
        rw [Bool.eq_iff_iff, htransient, houtcome]
        simp
      simp only [hiff, hstate]
      cases w.condition <;> simp
  | present sha256 predicate =>
      have hsteady : isTransient (.object sample.fields) = false := by
        simpa [houtcome] using htransient
      have hstate : (Value.object sample.fields).getStr "state" = some "present" := by
        unfold FileSample.fields
        rw [houtcome]
        cases predicate <;> rfl
      simp only [hsteady, hstate, conditionState_fields]
      cases w.condition <;> cases sample.result <;> simp

/-- The next sample is due one interval later. -/
def Runtime.renew (runtime : Runtime) (watch : Watch) (now : Rat) : Runtime :=
  { runtime with nextDue := some (now + watch.interval) }

/-- The values of a change. -/
structure Change where
  previous : Value
  current : Value

/-- `process_watch` once the checkpoint is read. -/
inductive Judged
  | ended (runtime : Runtime)
  /-- a commit of the checkpoint and the change, after which the runtime is `failed` or
  `committed` -/
  | commit (checkpoint : Value) (change : Option Change) (failed committed : Runtime)

/-- A first sample is a silent baseline, an unchanged one drops the candidate, a changed one is
reported at once or once it has been seen for as long as the debounce asks. -/
def judge (runtime : Runtime) (watch : Watch) (observed : Value) (baseline : Option Value)
    (now : Rat) : Judged :=
  let cleared := { runtime with candidate := none }
  match baseline with
  | none => .commit observed none runtime (cleared.renew watch now)
  | some baseline =>
      if changed baseline observed = false then .ended (cleared.renew watch now)
      else if watch.debounce = 0 then
        .commit observed (some ⟨baseline, observed⟩) runtime (cleared.renew watch now)
      else
        let fresh := { runtime with candidate := some ⟨observed, now, watch.epoch⟩ }
        match runtime.candidate with
        | none => .ended (fresh.renew watch now)
        | some candidate =>
            if Value.eq candidate.sample observed = false ∨ candidate.epoch ≠ watch.epoch then
              .ended (fresh.renew watch now)
            else if watch.debounce ≤ max 0 (now - candidate.firstSeen) then
              .commit candidate.sample (some ⟨baseline, candidate.sample⟩) cleared
                (cleared.renew watch now)
            else .ended (runtime.renew watch now)

/-- The decisions that can be made of a sample. -/
inductive Judges (r : Runtime) (w : Watch) (observed : Value) (now : Rat) :
    Option Value → Judged → Prop
  /-- the first sample is the silent baseline -/
  | first : Judges r w observed now none
      (.commit observed none r ({ r with candidate := none }.renew w now))
  | unchanged {baseline : Value} (hchanged : changed baseline observed = false) :
      Judges r w observed now (some baseline) (.ended ({ r with candidate := none }.renew w now))
  | prompt {baseline : Value} (hchanged : changed baseline observed = true)
      (hdebounce : w.debounce = 0) : Judges r w observed now (some baseline)
        (.commit observed (some ⟨baseline, observed⟩) r ({ r with candidate := none }.renew w now))
  /-- the window begins -/
  | fresh {baseline : Value} (hchanged : changed baseline observed = true)
      (hdebounce : w.debounce ≠ 0) (hfresh : ∀ c ∈ r.candidate,
        Value.eq c.sample observed = false ∨ c.epoch ≠ w.epoch) :
      Judges r w observed now (some baseline)
        (.ended ({ r with candidate := some ⟨observed, now, w.epoch⟩ }.renew w now))
  /-- the value was seen for long enough -/
  | ripe {baseline : Value} {c : Candidate} (hchanged : changed baseline observed = true)
      (hdebounce : w.debounce ≠ 0) (hcandidate : r.candidate = some c)
      (hsame : Value.eq c.sample observed = true) (hepoch : c.epoch = w.epoch)
      (hripe : w.debounce ≤ max 0 (now - c.firstSeen)) : Judges r w observed now (some baseline)
        (.commit c.sample (some ⟨baseline, c.sample⟩) { r with candidate := none }
          ({ r with candidate := none }.renew w now))
  | young {baseline : Value} {c : Candidate} (hchanged : changed baseline observed = true)
      (hdebounce : w.debounce ≠ 0) (hcandidate : r.candidate = some c)
      (hsame : Value.eq c.sample observed = true) (hepoch : c.epoch = w.epoch) :
      Judges r w observed now (some baseline) (.ended (r.renew w now))

theorem judge_spec (r : Runtime) (w : Watch) (observed : Value) (baseline : Option Value)
    (now : Rat) : Judges r w observed now baseline (judge r w observed baseline now) := by
  unfold judge
  cases baseline with
  | none => exact .first
  | some baseline =>
      simp only
      split
      · rename_i hchanged
        exact .unchanged hchanged
      rename_i hchanged
      have hchanged : changed baseline observed = true := by simpa using hchanged
      split
      · rename_i hdebounce
        exact .prompt hchanged hdebounce
      rename_i hdebounce
      cases hcandidate : r.candidate with
      | none =>
          refine .fresh hchanged hdebounce fun c hc => ?_
          rw [hcandidate] at hc
          cases hc
      | some c =>
          simp only
          split
          · rename_i hfresh
            refine .fresh hchanged hdebounce fun c' hc => ?_
            rw [hcandidate] at hc
            rw [← Option.some.inj hc]
            exact hfresh
          rename_i hsame
          rw [not_or, Bool.not_eq_false, not_not] at hsame
          split
          · rename_i hripe
            exact .ripe hchanged hdebounce hcandidate hsame.1 hsame.2 hripe
          · exact .young hchanged hdebounce hcandidate hsame.1 hsame.2

/-- The event of a change.  The path of a managed watch is absolute and is shown as it is. -/
def makeEvent (uuid : Uuid) (watch : Watch) (change : Change) : Value :=
  .object [
    ("data", .object [("current", change.current), ("path", .string watch.path),
      ("previous", change.previous), ("watch", .string watch.name)]),
    ("hops", .number (.posInt 0)),
    ("id", .string uuid.text),
    ("source", .string "managed/file"),
    ("type", .string "monitor.file.changed")]

/-- `checkpoint`: the baseline of a watch, which fails when its text is not JSON. -/
def checkpoint (crates : Crates) (id : String) : StoreM (Option Value) := do
  validateIdentifier id "watch id"
  let row ← Tx.query fun db => db.managedWatches.find? fun w => w.id = id
  match row.bind CodexMonitor.Watch.checkpoint with
  | none => pure none
  | some text => do
      let value ← Tx.expect (.bail "decode checkpoint") (crates.fromStr text)
      pure (some value)

end CodexMonitor.Collector
