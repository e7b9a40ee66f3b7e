import CodexMonitor.Collector.Observation
import CodexMonitor.Migration.Evaluators
import CodexMonitor.Migration.Migrate

/-!
# The first sample after a migration

A migrated watch keeps the last value that the Python runtime compared with.  Adoption is
silent when the Rust sampler gives the state of the path the same value: for a watch
without a condition when both name what is there alike, and for one with a condition when
the Rust runtime reads the document and the condition, and compares the doubles of their
numbers as Python compares the numbers.
-/

namespace CodexMonitor

open Collector (Errno FileState Outcome Reading FileSample WorkerCrates Runtime evaluateCondition)
open Transaction

/-! ## Silence -/

/-- The watch keeps the last value of its legacy checkpoint, and its text reads back. -/
structure Adopted (crates : Crates) (row : Watch) (last : Value) : Prop where
  translated : ∃ checkpoint translated, checkpoint.get "last" = some last ∧
    translateCheckpoint checkpoint row.condition = .ok translated ∧
      row.checkpoint = some (canonicalJson crates translated)
  reads : crates.fromStr (canonicalJson crates last) = some last

/-- The watch's worker answers with a value that equals the checkpoint, and whatever the time is the
watch commits nothing. -/
def Silent (crates : Crates) (db : Db) (r : Runtime) (w : Collector.Watch) (sample : FileSample) :
    Prop :=
  ∃ value r' baseline, Collector.look r (some sample.value) = .observed value r' ∧
    ((Collector.checkpoint crates w.id).run db).1 = .ok (some baseline) ∧
    Collector.Value.eq baseline value = true ∧
    ∀ now, Collector.judge r' w value (some baseline) now =
      .ended ({ r' with candidate := none }.renew w now)

/-! ## What both name alike -/

/-- Both runtimes have one name for the error. -/
def SameName (errno : Errno) : Prop := exceptionName errno = Collector.errorName errno

instance : DecidablePred SameName := fun errno =>
  inferInstanceAs (Decidable (exceptionName errno = Collector.errorName errno))

/-- Both samplers give the state one outcome: the path is no symbolic link, what is not a regular
file opens, a file that is too large opens, and an error has one name. -/
def NamedAlike : FileState → Prop
  | .unresolved errno => SameName errno
  | .symlink => False
  | .special opening => opening = none
  | .regular size opening reading =>
      match opening with
      | some errno => size ≤ Collector.maxFileBytes ∧ SameName errno
      | none => size ≤ Collector.maxFileBytes → ∀ errno, reading = .failed errno → SameName errno

theorem openError_eq {errno : Errno} {crates : WorkerCrates} {condition : Option Value} :
    (FileState.unresolved errno).sample crates condition = openError errno ↔ SameName errno := by
  cases errno <;> simp [FileState.sample, openError, SameName, exceptionName, Collector.errorName]

/-- No error has the name of a check of the Rust sampler. -/
theorem openError_ne (errno : Errno) :
    ∀ error ∈ ["not_regular_file", "file_too_large", "symlink"],
      Outcome.unreadable error ≠ openError errno := by
  cases errno <;> simp [openError, exceptionName]

/-- Without a condition the outcomes agree exactly on the states that are named alike. -/
theorem sample_eq_iff {crates : WorkerCrates} {python : PythonWorker}
    (hsha : crates.sha256 = python.sha256) (state : FileState) :
    state.sample crates none = (safeRead python state).1 ↔ NamedAlike state := by
  cases state with
  | unresolved errno => exact openError_eq
  | symlink =>
      refine iff_of_false ?_ id
      exact openError_ne .eloop "symlink" (by decide)
  | special opening =>
      cases opening with
      | none => exact iff_of_true rfl rfl
      | some errno =>
          refine iff_of_false ?_ (by simp [NamedAlike])
          exact openError_ne errno "not_regular_file" (by decide)
  | regular size opening reading =>
      by_cases hsize : Collector.maxFileBytes < size
      · cases opening with
        | none =>
            refine iff_of_true ?_ ?_
            · simp [FileState.sample, safeRead, hsize]
            · intro hle
              omega
        | some errno =>
            refine iff_of_false ?_ ?_
            · unfold FileState.sample
              dsimp only
              rw [if_pos hsize]
              exact openError_ne errno "file_too_large" (by decide)
            · intro h
              have := h.1
              omega
      · have hle : size ≤ Collector.maxFileBytes := by omega
        cases opening with
        | none =>
            cases reading with
            | failed errno =>
                cases errno <;>
                  simp [FileState.sample, safeRead, hsize, hle, NamedAlike, SameName, exceptionName,
                    Collector.errorName]
            | content bytes =>
                simp [FileState.sample, safeRead, hsize, NamedAlike, Collector.presentFile, hsha]
            | late => simp [FileState.sample, safeRead, hsize, NamedAlike]
            | short => simp [FileState.sample, safeRead, hsize, NamedAlike]
            | changed => simp [FileState.sample, safeRead, hsize, NamedAlike]
        | some errno =>
            cases errno <;>
              simp [FileState.sample, safeRead, hsize, hle, NamedAlike, SameName, exceptionName,
                Collector.errorName, openError]

/-! ## Silence as equality of observations -/

/-- The outcome of a sampler that evaluates nothing. -/
def Plain (outcome : Outcome) : Prop :=
  ∀ sha256 predicate, outcome = .present sha256 predicate → predicate = none

/-- Plain outcomes under one path are equal values exactly when they are one. -/
theorem fields_eq (path : String) {a b : Outcome} (ha : Plain a) (hb : Plain b) :
    Collector.Value.eq (.object (FileSample.mk path a none).fields)
      (.object (FileSample.mk path b none).fields) = true ↔ a = b := by
  cases a with
  | missing =>
      cases b with
      | present sha256 predicate =>
          obtain rfl := hb sha256 predicate rfl
          simp [FileSample.fields, Collector.Value.eq, Collector.fieldsEq, Value.get]
      | _ => simp [FileSample.fields, Collector.Value.eq, Collector.fieldsEq, Value.get]
  | unreadable e =>
      cases b with
      | present sha256 predicate =>
          obtain rfl := hb sha256 predicate rfl
          simp [FileSample.fields, Collector.Value.eq, Collector.fieldsEq, Value.get]
      | _ => simp [FileSample.fields, Collector.Value.eq, Collector.fieldsEq, Value.get]
  | present sha256 predicate =>
      obtain rfl := ha sha256 predicate rfl
      cases b with
      | present sha256' predicate =>
          obtain rfl := hb sha256' predicate rfl
          simp [FileSample.fields, Collector.Value.eq, Collector.fieldsEq, Value.get]
      | _ => simp [FileSample.fields, Collector.Value.eq, Collector.fieldsEq, Value.get]

theorem safeRead_plain (python : PythonWorker) (state : FileState) :
    Plain (safeRead python state).1 := by
  have hopen : ∀ errno, Plain (openError errno) := by
    intro errno sha256 predicate h
    cases errno <;> cases h
  intro sha256 predicate h
  unfold safeRead at h
  split at h
  · exact hopen _ _ _ h
  · exact hopen .eloop _ _ h
  · cases h
  · exact hopen _ _ _ h
  · exact hopen _ _ _ h
  · split at h
    · cases h
    split at h <;> cases h
    rfl

/-- The watch that the collector makes of a row. -/
theorem watchFromValue_eq {crates : Crates} {row : Watch} {w : Collector.Watch}
    (h : Collector.watchFromValue crates row = some w) :
    w.id = row.id ∧ w.path = row.path ∧
      w.condition = Collector.conditionOf crates row.condition := by
  unfold Collector.watchFromValue at h
  dsimp only at h
  split at h
  · cases h
  · obtain rfl := Option.some.inj h
    exact ⟨rfl, rfl, rfl⟩

/-- The migration keeps the last value as it is. -/
theorem Adopted.kept {crates : Crates} {row : Watch} {last : Value}
    (h : Adopted crates row last) :
    row.checkpoint = some (canonicalJson crates last) ∧
      (row.condition.isSome = true → (last.getStr "condition").isSome = true) := by
  obtain ⟨checkpoint, translated, hlast, htranslated, hstored⟩ := h.translated
  unfold translateCheckpoint at htranslated
  rw [hlast] at htranslated
  dsimp only at htranslated
  split at htranslated
  · cases htranslated
  · rename_i hcondition
    obtain rfl := Except.ok.inj htranslated
    refine ⟨hstored, ?_⟩
    intro hsome
    rw [hsome, Bool.true_and] at hcondition
    simpa [Option.isSome_iff_ne_none] using hcondition

/-- The sample has a value that equals the last one. -/
structure Repeats (last : Value) (condition : Option Value) (sample : FileSample) : Prop where
  seen : sample.Skips condition = false
  decided : sample.Misses condition = false
  equal : Collector.Value.eq last (sample.observation condition) = true

/-- A migration that takes a checkpoint over writes the last value of a legacy file into the row. -/
theorem adoptCheckpoint_done {tools : Tools} {table t : Sql.Table} {id path raw : String}
    {condition : Option String} {plan : Place → Faults.Fault} {d d' : Disk}
    (h : (adoptCheckpoint tools table id condition path (some raw)).run plan d = (.done t, d')) :
    ∃ checkpoint translated, tools.crates.fromStr raw = some checkpoint ∧
      translateCheckpoint checkpoint condition = .ok translated ∧
        t = setWatchCheckpoint table id (canonicalJson tools.crates translated) := by
  simp only [adoptCheckpoint, touch, Faults.Prog.bind_done, Faults.Prog.write_done,
    Faults.Prog.ofExcept_done, Faults.Prog.pure_done] at h
  obtain ⟨_, _, _, checkpoint, _, ⟨hparse, _⟩, _, _, _, _, _, _, translated, _,
    ⟨htranslated, _⟩, _, _, _, ht, _⟩ := h
  refine ⟨checkpoint, translated, ?_, htranslated, ht.symm⟩
  cases hraw : tools.crates.fromStr raw with
  | none =>
      rw [hraw] at hparse
      cases hparse
  | some value =>
      rw [hraw] at hparse
      exact congrArg some (Except.ok.inj hparse)

section silent

variable {crates : Crates} {db : Db} {row : Watch} {last : Value} {r : Runtime}
  {w : Collector.Watch}

/-- The collector reads the value that was adopted. -/
theorem checkpoint_adopted (hmem : row ∈ db.managedWatches) (hid : isIdentifier row.id = true)
    (h : Adopted crates row last) :
    (Collector.checkpoint crates row.id).run db = (.ok (some last), db) := by
  have hfind : (db.managedWatches.find? fun w => w.id = row.id) = some row :=
    Table.find?_eq_of_unique hmem rfl fun w hw hid => Watch.eq_of_id hw hmem hid
  simp only [Collector.checkpoint, Tx.bind_ok, validateIdentifier_ok, Tx.query_ok]
  refine ⟨(), db, ⟨hid, rfl⟩, some row, db, ⟨hfind, rfl⟩, ?_⟩
  simp only [Option.bind_some, h.kept.1, Tx.bind_ok, Tx.expect_ok, Tx.pure_ok]
  exact ⟨last, db, ⟨h.reads, rfl⟩, rfl, rfl⟩

/-- A first sample is silent exactly when what is compared is there and equals the value that was
adopted. -/
theorem silent_iff (hmem : row ∈ db.managedWatches) (hid : isIdentifier row.id = true)
    (h : Adopted crates row last) (hrow : Collector.watchFromValue crates row = some w)
    (hw : r.watch = some w) (hactive : w.active = true) (sample : FileSample) :
    Silent crates db r w sample ↔ Repeats last w.condition sample := by
  have hread := checkpoint_adopted hmem hid h
  rw [← (watchFromValue_eq hrow).1] at hread
  have hlook := Collector.look_sample hw hactive sample
  unfold Silent
  rw [hlook]
  constructor
  · intro hsilent
    obtain ⟨value, r', baseline, hobserved, hbaseline, heq, _⟩ := hsilent
    rw [hread] at hbaseline
    obtain rfl := Option.some.inj (Except.ok.inj hbaseline)
    split at hobserved
    · cases hobserved
    rename_i hskips
    split at hobserved
    · cases hobserved
    rename_i hmisses
    injection hobserved with hvalue
    rw [← hvalue] at heq
    exact ⟨by simpa using hskips, by simpa using hmisses, heq⟩
  · intro hrepeats
    obtain ⟨hskips, hmisses, heq⟩ := hrepeats
    have hsteps : ¬ sample.Skips w.condition = true ∧ ¬ sample.Misses w.condition = true := by
      simp [hskips, hmisses]
    rw [if_neg hsteps.1, if_neg hsteps.2]
    refine ⟨_, _, last, rfl, congrArg Prod.fst hread, heq, ?_⟩
    intro now
    have hsame : Collector.changed last (sample.observation w.condition) = false := by
      rw [Collector.changed, heq, Bool.not_true]
    simp only [Collector.judge, hsame, if_true]

end silent

/-! ## Adoption -/

theorem workerResult_eq {sample taken : PySample} (h : workerResult taken = some sample) :
    sample = taken := by
  unfold workerResult at h
  split at h
  · cases h
  · exact (Option.some.inj h).symm

/-- What Python observes without a condition. -/
theorem observe_plain {python : PythonWorker} {row : Watch} {state : FileState} {last : Value}
    (hnone : conditionText row = none) (h : observe python row state = some last) :
    last = .object (FileSample.mk row.path (safeRead python state).1 none).fields ∧
      ∀ error, (safeRead python state).1 = .unreadable error → isTransientError error = false := by
  obtain ⟨sample, hsample, hobserved⟩ := Option.bind_eq_some_iff.mp h
  obtain ⟨taken, htaken, hreturned⟩ := Option.bind_eq_some_iff.mp hsample
  have hsame : sample = safeFileSample python row.path state := by
    unfold runSampler at htaken
    rw [hnone] at htaken
    rw [workerResult_eq hreturned]
    exact (Option.some.inj htaken).symm
  unfold PySample.observation at hobserved
  rw [hnone] at hobserved
  split at hobserved
  · cases hobserved
  rename_i hpath
  rw [not_not] at hpath
  rw [hpath, hsame] at hobserved
  dsimp only [safeFileSample] at hobserved
  split at hobserved
  · rename_i error houtcome
    split at hobserved
    · cases hobserved
    rename_i hsteady
    refine ⟨(Option.some.inj hobserved).symm, ?_⟩
    intro error' herror
    rw [houtcome] at herror
    obtain rfl := Outcome.unreadable.inj herror
    simpa using hsteady
  · rename_i houtcome
    refine ⟨(Option.some.inj hobserved).symm, ?_⟩
    intro error herror
    exact absurd herror (houtcome error)

/-- The name of a result. -/
def resultName (matched : Bool) : String := if matched then "matched" else "not_matched"

/-- What Python observes of a condition. -/
structure Decides (python : PythonWorker) (text : String) (state : FileState) (bytes : List UInt8)
    (matched : Bool) : Prop where
  state_eq : ∃ size, state = .regular size none (.content bytes) ∧ size ≤ Collector.maxFileBytes
  evaluated : ∃ c t document, loadCondition python text = some c ∧ python.loads bytes = some t ∧
    t.read python.number = some document ∧ evaluate document c = .ok matched

theorem safeRead_content {python : PythonWorker} {state : FileState} {outcome : Outcome}
    {bytes : List UInt8} (h : safeRead python state = (outcome, some bytes)) :
    ∃ size, state = .regular size none (.content bytes) ∧ size ≤ Collector.maxFileBytes := by
  unfold safeRead at h
  split at h
  iterate 5 cases h
  rename_i size reading
  split at h
  · cases h
  rename_i hsize
  split at h
  · obtain ⟨_, hbytes⟩ := Prod.mk.inj h
    obtain rfl := Option.some.inj hbytes
    exact ⟨size, rfl, by omega⟩
  iterate 4 cases h

theorem observe_decides {python : PythonWorker} {row : Watch} {state : FileState} {last : Value}
    {text : String} (htext : conditionText row = some text)
    (h : observe python row state = some last) :
    ∃ bytes matched, Decides python text state bytes matched ∧
      last = .object [("condition", .string (resultName matched))] := by
  obtain ⟨sample, hsample, hobserved⟩ := Option.bind_eq_some_iff.mp h
  obtain ⟨taken, htaken, hreturned⟩ := Option.bind_eq_some_iff.mp hsample
  obtain ⟨c, hc, hsame⟩ : ∃ c, loadCondition python text = some c ∧
      sample = safeJsonSample python row.path c state := by
    unfold runSampler at htaken
    rw [htext] at htaken
    obtain ⟨c, hc, hsample⟩ := Option.map_eq_some_iff.mp htaken
    exact ⟨c, hc, (workerResult_eq hreturned).trans hsample.symm⟩
  obtain ⟨matched, hpredicate, hlast⟩ : ∃ matched, sample.predicate = some (.ok matched) ∧
      last = .object [("condition", .string (resultName matched))] := by
    unfold PySample.observation at hobserved
    rw [htext] at hobserved
    split at hobserved
    · cases hobserved
    dsimp only at hobserved
    split at hobserved
    · rename_i hpredicate
      exact ⟨true, hpredicate, (Option.some.inj hobserved).symm⟩
    · rename_i hpredicate
      exact ⟨false, hpredicate, (Option.some.inj hobserved).symm⟩
    · cases hobserved
  rw [hsame] at hpredicate
  unfold safeJsonSample at hpredicate
  split at hpredicate
  · rename_i sha256 _ bytes hread
    split at hpredicate
    · cases hpredicate
    rename_i document hdocument
    obtain ⟨t, ht, htree⟩ := Option.bind_eq_some_iff.mp hdocument
    exact ⟨bytes, matched,
      ⟨safeRead_content hread, c, t, document, hc, ht, htree, Option.some.inj hpredicate⟩, hlast⟩
  · cases hpredicate

/-- The Rust runtime gives the state the value that Python gives it. -/
def Faithful (rust : RustWorker) (python : PythonWorker) (row : Watch) (state : FileState) : Prop :=
  match conditionText row with
  | none => NamedAlike state
  | some text => ∀ size bytes, state = .regular size none (.content bytes) →
      ReadsAlike rust python text bytes

section adoption

variable {rust : RustWorker} {python : PythonWorker} {row : Watch} {w : Collector.Watch}
  {state : FileState} {last : Value}

theorem sample_plain {crates : WorkerCrates} : Plain (state.sample crates none) := by
  intro sha256 predicate h
  have hanswers := Collector.sampleFile_answers crates none "/" none none state
  unfold FileSample.Answers at hanswers
  rw [show (Collector.sampleFile crates none "/" none none state).outcome =
    .present sha256 predicate from h] at hanswers
  simpa using hanswers

/-- A row without a condition has none for the Rust runtime either, once it was adopted. -/
theorem adopted_plain (h : Adopted rust.serde.crates row last) (hnone : conditionText row = none)
    (hlast : observe python row state = some last) : row.condition = none := by
  by_contra hsome
  obtain ⟨text, htext⟩ := Option.ne_none_iff_exists'.mp hsome
  have hbaseline := h.kept.2 (by rw [htext]; rfl)
  rw [(observe_plain hnone hlast).1] at hbaseline
  unfold FileSample.fields at hbaseline
  dsimp only at hbaseline
  split at hbaseline <;> cases hbaseline

theorem transient_of_rust {error : String} (h : error ∈ Collector.transientErrors) :
    isTransientError error = true := by
  have hall : ∀ error ∈ Collector.transientErrors, isTransientError error = true := by
    decide
  exact hall error h

/-- Without a condition the sample repeats the last one exactly when the state is named alike. -/
theorem plain_iff (hlaw : Corresponds rust python) (hnone : conditionText row = none)
    (hlast : observe python row state = some last) (native : Option String) :
    Repeats last none ⟨row.path, state.sample rust.crates none, native⟩ ↔ NamedAlike state := by
  obtain ⟨rfl, hsteady⟩ := observe_plain hnone hlast
  have hsha : rust.crates.sha256 = python.sha256 := hlaw.sha256
  rw [← sample_eq_iff hsha]
  have hfields : ∀ outcome, (FileSample.mk row.path outcome native).observation none =
      .object (FileSample.mk row.path outcome none).fields := by
    intro outcome
    rfl
  have hplain : Plain (state.sample rust.crates none) := sample_plain
  have hequal := fields_eq row.path (safeRead_plain python state) hplain
  constructor
  · intro h
    have heq := h.equal
    rw [hfields] at heq
    exact (hequal.mp heq).symm
  · intro heq
    refine ⟨?_, ?_, ?_⟩
    · rw [heq]
      unfold FileSample.Skips
      cases houtcome : (safeRead python state).1 with
      | unreadable error =>
          have hnot : error ∉ Collector.transientErrors := by
            intro hmem
            have htransient := transient_of_rust hmem
            rw [hsteady error houtcome] at htransient
            cases htransient
          simp [hnot]
      | _ => rfl
    · unfold FileSample.Misses
      cases state.sample rust.crates none <;> rfl
    · rw [hfields]
      exact hequal.mpr heq.symm

/-- No sample without a result repeats one. -/
theorem result_ne_fields (matched : Bool) (sample : FileSample) :
    Collector.Value.eq (.object [("condition", .string (resultName matched))])
      (.object sample.fields) = false := by
  have hlength : 2 ≤ sample.fields.length := by
    unfold FileSample.fields
    split <;> simp
  rw [Collector.Value.eq, Bool.and_eq_false_iff]
  refine Or.inl (decide_eq_false ?_)
  simp only [List.length_singleton]
  omega

/-- A sample repeats a result exactly when it has it. -/
theorem repeats_result {sample : FileSample} {condition : Option Value} {matched : Bool} :
    Repeats (.object [("condition", .string (resultName matched))]) condition sample ↔
      condition.isSome = true ∧ sample.result = some (resultName matched) := by
  constructor
  · intro h
    have heq := h.equal
    cases hresult : sample.result with
    | none =>
        have hfields : sample.observation condition = .object sample.fields := by
          unfold FileSample.observation
          rw [hresult]
          cases condition <;> rfl
        rw [hfields, result_ne_fields] at heq
        cases heq
    | some name =>
        cases condition with
        | none =>
            have hfields : sample.observation none = .object sample.fields := rfl
            rw [hfields, result_ne_fields] at heq
            cases heq
        | some condition =>
            have hvalue : sample.observation (some condition) =
                .object [("condition", .string name)] := by
              unfold FileSample.observation
              rw [hresult]
            rw [hvalue] at heq
            refine ⟨rfl, congrArg some ?_⟩
            simpa [Collector.Value.eq, Collector.fieldsEq, Value.get, eq_comm] using heq
  · intro h
    obtain ⟨hsome, hresult⟩ := h
    obtain ⟨condition, rfl⟩ := Option.isSome_iff_exists.mp hsome
    refine ⟨?_, ?_, ?_⟩
    · unfold FileSample.Skips
      unfold FileSample.result at hresult
      cases houtcome : sample.outcome with
      | present sha256 predicate => rfl
      | _ =>
          rw [houtcome] at hresult
          cases hresult
    · unfold FileSample.Misses
      rw [hresult]
      cases sample.outcome <;> rfl
    · unfold FileSample.observation
      rw [hresult]
      simp [Collector.Value.eq, Collector.fieldsEq, Value.get]

/-- The result of a file that is there. -/
theorem presentFile_result {crates : WorkerCrates} {condition : Value} {bytes : List UInt8}
    {path : String} {native : Option String} {matched : Bool} :
    (FileSample.mk path (Collector.presentFile crates (some condition) bytes) native).result =
        some (resultName matched) ↔
      ∃ document, crates.fromSlice bytes = some document ∧
        evaluateCondition crates.toCrates document condition = some matched := by
  unfold Collector.presentFile FileSample.result
  cases hdocument : crates.fromSlice bytes with
  | none => simp
  | some document =>
      cases hresult : evaluateCondition crates.toCrates document condition with
      | none => simp [hresult, Collector.Predicate.ofOption]
      | some result =>
          cases result <;> cases matched <;>
            simp [hresult, Collector.Predicate.ofOption, resultName]

/-- With a condition the sample repeats the last result exactly when both runtimes read alike. -/
theorem decided_iff (hlaw : Corresponds rust python) {text : String} {bytes : List UInt8}
    {matched : Bool} (hdecides : Decides python text state bytes matched) (native : Option String) :
    Repeats (.object [("condition", .string (resultName matched))])
        (Collector.conditionOf rust.serde.crates (some text))
        ⟨row.path, state.sample rust.crates (Collector.conditionOf rust.serde.crates (some text)),
          native⟩ ↔
      ReadsAlike rust python text bytes := by
  obtain ⟨size, rfl, hsize⟩ := hdecides.state_eq
  obtain ⟨c, t, document, hc, ht, hread, hmatched⟩ := hdecides.evaluated
  have hsample : ∀ condition, FileState.sample rust.crates condition
      (.regular size none (.content bytes)) =
        Collector.presentFile rust.crates condition bytes := by
    intro condition
    simp [FileState.sample, Nat.not_lt_of_le hsize]
  rw [hsample, repeats_result, ← decides_iff hlaw hc ht hread hmatched]
  constructor
  · intro h
    obtain ⟨hsome, hresult⟩ := h
    obtain ⟨condition, hcondition⟩ := Option.isSome_iff_exists.mp hsome
    rw [hcondition] at hresult
    obtain ⟨d, hd, heval⟩ := presentFile_result.mp hresult
    refine ⟨condition, d, ?_, hd, heval⟩
    unfold Collector.conditionOf at hcondition
    cases hstr : rust.serde.crates.fromStr text with
    | none => simp [hstr] at hcondition
    | some v =>
        rw [Option.map_some, hstr] at hcondition
        cases v <;> simp_all
  · intro h
    obtain ⟨condition, d, hcondition, hd, heval⟩ := h
    have hof : Collector.conditionOf rust.serde.crates (some text) = some condition := by
      unfold Collector.conditionOf
      rw [Option.map_some, hcondition, Option.getD_some]
      cases condition with
      | null => cases heval
      | _ => rfl
    rw [hof]
    exact ⟨rfl, presentFile_result.mpr ⟨d, hd, heval⟩⟩

/-- **Adoption.**  When Python would observe the value that a migrated watch keeps, the first sample
of the Rust runtime is silent exactly when it is faithful to the state. -/
theorem adoption_silent_iff (rust : RustWorker) (python : PythonWorker)
    (hlaw : Corresponds rust python) (db : Db) (row : Watch) (w : Collector.Watch) (r : Runtime)
    (state : FileState) (last : Value) (cwd native : Option String)
    (hmem : row ∈ db.managedWatches) (hid : isIdentifier row.id = true)
    (habsolute : (Collector.Path.ofString row.path).absolute = true)
    (hadopted : Adopted rust.serde.crates row last)
    (hrow : Collector.watchFromValue rust.serde.crates row = some w) (hw : r.watch = some w)
    (hactive : w.active = true) (hlast : observe python row state = some last) :
    Silent rust.serde.crates db r w
        (Collector.sampleFile rust.crates cwd w.path w.condition native state) ↔
      Faithful rust python row state := by
  obtain ⟨_, hpath, hcondition⟩ := watchFromValue_eq hrow
  have hsample : Collector.sampleFile rust.crates cwd w.path w.condition native state =
      ⟨row.path, state.sample rust.crates w.condition, native⟩ := by
    rw [Collector.sampleFile, Collector.absoluteDisplayPath, hpath, if_pos habsolute]
  rw [hsample, silent_iff hmem hid hadopted hrow hw hactive]
  unfold Faithful
  cases htext : conditionText row with
  | none =>
      have hnone : w.condition = none := by
        rw [hcondition, adopted_plain hadopted htext hlast]
        rfl
      rw [hnone]
      exact plain_iff hlaw htext hlast native
  | some text =>
      obtain ⟨bytes, matched, hdecides, rfl⟩ := observe_decides htext hlast
      obtain ⟨hrowtext, _⟩ := Option.filter_eq_some_iff.mp htext
      rw [hcondition, hrowtext, decided_iff hlaw hdecides native]
      constructor
      · intro hreads size bytes' hstate
        obtain ⟨size', hsame, _⟩ := hdecides.state_eq
        rw [hsame] at hstate
        obtain ⟨_, _, hbytes⟩ := FileState.regular.inj hstate
        rw [← Reading.content.inj hbytes]
        exact hreads
      · intro hreads
        obtain ⟨size, hstate, _⟩ := hdecides.state_eq
        exact hreads size bytes hstate

end adoption

/-! ## Watches that are adopted -/

/-- A document, a condition on it, and the checkpoints of three watches. -/
def sampleDocuments : List (Tree Literal) :=
  [.object [("size", .number (.integer false 3))],
    .object [("operator", .string "gt"), ("pointer", .string "/size"),
      ("value", .number (.integer false 2))],
    .object [("condition", .string "matched")],
    .object [("path", .string "/srv/app/build.json"), ("sha256", .string "aa"),
      ("state", .string "present")],
    .object [("error", .string "PermissionError"), ("path", .string "/srv/app/build.json"),
      ("state", .string "unreadable")]]

/-- The bytes of a document. -/
def Tree.bytes (document : Tree Literal) : List UInt8 :=
  (document.text stringText Literal.text).toUTF8.toList

/-- A reader that knows the documents. -/
def sampleGrammar (bytes : List UInt8) : Option (Tree Literal) :=
  (sampleDocuments.findIdx? fun document => document.bytes = bytes).bind fun index =>
    sampleDocuments[index]?

/-- The reader reads what it knows. -/
theorem sampleGrammar_reads (index : Fin 5) :
    sampleGrammar (sampleDocuments.get index).bytes = some (sampleDocuments.get index) := by
  have hfound : ∀ index : Fin 5, (sampleDocuments.findIdx? fun document =>
      document.bytes = (sampleDocuments.get index).bytes) = some index.val := by
    decide +kernel
  rw [sampleGrammar, hfound index, Option.bind_some]
  exact List.getElem?_eq_getElem index.isLt

/-- The Rust runtime with that reader. -/
def sampleRust : RustWorker where
  serde :=
    { sampleSerde with
      crates :=
        { exactPrinter with
          fromStr := fun text => (sampleGrammar text.toUTF8.toList).bind sampleSerde.parse } }
  grammar := sampleGrammar
  sha256 _ := "aa"

/-- The Python runtime with that reader. -/
def samplePythonWorker : PythonWorker :=
  { samplePython with loads := sampleGrammar, sha256 := fun _ => "aa" }

theorem sample_corresponds : Corresponds sampleRust samplePythonWorker where
  fromStr _ := rfl
  document _ _ _ ht hu := Option.some.inj (ht.symm.trans hu)
  sha256 := rfl

/-- The row of a watch. -/
def adoptedRow (condition : Option String) (last : Value) : Watch :=
  ⟨(sampleUuid 4).text, "conversation-1", "build-log", "/srv/app/build.json", 1, "shared-local", 0,
    condition, "managed-1", true, false, 0,
    some (canonicalJson sampleRust.serde.crates last), 10, 10⟩

/-- The database with that row. -/
def adoptedDb (row : Watch) : Db :=
  { Db.empty with managedWatches := Table.empty.push row (by intro a ha; cases ha) }

/-- A condition that the document meets. -/
def adoptedText : String := (sampleDocuments.get (1 : Fin 5)).text stringText Literal.text

/-- The path leads to a file with the document. -/
def adoptedState : FileState :=
  .regular 10 none (.content (sampleDocuments.get (0 : Fin 5)).bytes)

def lastSample : Value :=
  .object [("path", .string "/srv/app/build.json"), ("sha256", .string "aa"),
    ("state", .string "present")]

def lastResult : Value := .object [("condition", .string "matched")]

theorem adopted_loads : samplePythonWorker.loads adoptedText.toUTF8.toList =
    some (sampleDocuments.get (1 : Fin 5)) :=
  sampleGrammar_reads 1

/-- Python observes the digest of the document. -/
theorem adopted_observe :
    observe samplePythonWorker (adoptedRow none lastSample) adoptedState = some lastSample := rfl

/-- Python observes that the condition is met. -/
theorem adopted_decides :
    observe samplePythonWorker (adoptedRow (some adoptedText) lastResult) adoptedState =
      some lastResult := by
  have htext : conditionText (adoptedRow (some adoptedText) lastResult) = some adoptedText := by
    decide
  have hcondition : loadCondition samplePythonWorker adoptedText =
      some ⟨"/size", .gt, .number (.int 2)⟩ := by
    rw [loadCondition, adopted_loads]
    rfl
  have hdocument : samplePythonWorker.loads (sampleDocuments.get (0 : Fin 5)).bytes =
      some (sampleDocuments.get (0 : Fin 5)) := sampleGrammar_reads 0
  have hread : safeRead samplePythonWorker adoptedState =
      (.present "aa" none, some (sampleDocuments.get (0 : Fin 5)).bytes) := rfl
  have hmatched : evaluate (.object [("size", .number (.int 3))])
      ⟨"/size", .gt, .number (.int 2)⟩ = .ok true := by
    have hresolve : (pointerTokens "/size").bind (fun tokens =>
        (Tree.map PyNumber.value (.object [("size", .number (.int 3))])).resolve tokens) =
          some (.number (3 : Int)) := rfl
    have hgreater : (2 : Rat) < 3 := by decide
    unfold evaluate
    dsimp only
    rw [hresolve]
    simp [Tree.map, PyNumber.value, Operator.decide, hgreater]
  have hsample : safeJsonSample samplePythonWorker "/srv/app/build.json"
      ⟨"/size", .gt, .number (.int 2)⟩ adoptedState =
        ⟨"/srv/app/build.json", .present "aa" none, some (.ok true)⟩ := by
    unfold safeJsonSample
    rw [hread]
    dsimp only
    rw [hdocument, ← hmatched]
    rfl
  unfold observe runSampler
  rw [htext]
  dsimp only
  rw [hcondition, Option.map_some]
  show ((some (safeJsonSample samplePythonWorker "/srv/app/build.json"
    ⟨"/size", .gt, .number (.int 2)⟩ adoptedState)).bind workerResult).bind _ = _
  rw [hsample]
  unfold PySample.observation
  rw [htext]
  rfl

/-- The collector's record of the row. -/
def adoptedWatch (condition : Option Value) : Collector.Watch :=
  ⟨(sampleUuid 4).text, "build-log", "/srv/app/build.json", 1, 0, condition, true, false, 0⟩

theorem adopted_watch {text : Option String} {condition : Option Value} (last : Value)
    (h : Collector.conditionOf sampleRust.serde.crates text = condition)
    (hsize : condition.any (fun value => Collector.maxConditionBytes <
      (canonicalJson sampleRust.serde.crates value).utf8ByteSize) = false) :
    Collector.watchFromValue sampleRust.serde.crates (adoptedRow text last) =
      some (adoptedWatch condition) := by
  have htimes : ¬ ((1 : Rat) < 0 ∨ (0 : Rat) < 0) ∧ max (1 : Rat) minInterval = 1 ∧
      min (0 : Rat) 86400 = 0 := by
    decide +kernel
  unfold Collector.watchFromValue
  simp only [adoptedRow, h, hsize, Bool.false_eq_true, false_or, htimes.1, if_false, htimes.2.1,
    htimes.2.2]
  rfl

/-- The text of a checkpoint that the reader knows reads back. -/
theorem adopted_reads (last : Value) {t : Tree Number} (index : Fin 5)
    (hread : (sampleDocuments.get index).read sampleSerde.number = some t) (hvalue : t.value = last)
    (htext : (canonicalJson sampleRust.serde.crates last).toUTF8.toList =
      (sampleDocuments.get index).bytes) :
    sampleRust.serde.crates.fromStr (canonicalJson sampleRust.serde.crates last) = some last := by
  show (sampleGrammar (canonicalJson sampleRust.serde.crates last).toUTF8.toList).bind
    sampleSerde.parse = some last
  rw [htext, sampleGrammar_reads, Option.bind_some, Serde.parse, hread, Option.map_some, hvalue]

theorem adopted_row {last : Value} {text : Option String}
    (hreads : sampleRust.serde.crates.fromStr (canonicalJson sampleRust.serde.crates last) =
      some last) (hcondition : (text.isSome && (last.getStr "condition").isNone) = false) :
    Adopted sampleRust.serde.crates (adoptedRow text last) last where
  translated := by
    refine ⟨.object [("last", last), ("pending", .null)], last, rfl, ?_, rfl⟩
    show (if (text.isSome && (last.getStr "condition").isNone) = true then _ else _) = _
    rw [hcondition]
    rfl
  reads := hreads

/-- Both runtimes read the condition and the document alike. -/
theorem adopted_readsAlike : ReadsAlike sampleRust samplePythonWorker adoptedText
    (sampleDocuments.get (0 : Fin 5)).bytes := by
  have hcondition : sampleRust.serde.crates.fromStr adoptedText =
      some (.object [("operator", .string "gt"), ("pointer", .string "/size"),
        ("value", .number (.posInt 2))]) := by
    show (sampleGrammar (sampleDocuments.get (1 : Fin 5)).bytes).bind sampleSerde.parse = _
    rw [sampleGrammar_reads]
    rfl
  have hdocument : sampleRust.crates.fromSlice (sampleDocuments.get (0 : Fin 5)).bytes =
      some (.object [("size", .number (.posInt 3))]) := by
    show (sampleGrammar (sampleDocuments.get (0 : Fin 5)).bytes).bind sampleSerde.parse = _
    rw [sampleGrammar_reads]
    rfl
  have hcompared : compared samplePythonWorker.loads adoptedText
      (sampleDocuments.get (0 : Fin 5)).bytes =
        some (.gt, .number (.integer false 3), .number (.integer false 2)) := by
    show ((sampleGrammar (sampleDocuments.get (1 : Fin 5)).bytes).bind Tree.condition).bind
      (fun condition => (pointerTokens condition.pointer).bind fun tokens =>
        (sampleGrammar (sampleDocuments.get (0 : Fin 5)).bytes).bind fun document =>
          (document.resolve tokens).bind fun selected =>
            some (condition.operator, selected, condition.value)) = _
    rw [sampleGrammar_reads, sampleGrammar_reads]
    rfl
  have hsmall : ∀ k < 4, (Literal.integer false k).Small := by
    intro k hk
    show k < 2 ^ 53
    omega
  refine ⟨by rw [hdocument]; rfl, by rw [hcondition]; rfl, ?_, ?_⟩
  · intro v hv e he
    rw [hcondition] at hv
    obtain rfl := Option.some.inj hv
    obtain rfl : Value.number (.posInt 2) = e := Option.some.inj he
    decide
  · intro operator selected expected h
    rw [hcompared] at h
    obtain ⟨_, hselected, hexpected⟩ : operator = .gt ∧ selected = .number (.integer false 3) ∧
        expected = .number (.integer false 2) := by
      simpa [eq_comm] using Option.some.inj h
    refine decide_of_small ?_ ?_ operator
    · intro n hn
      rw [hselected] at hn
      rw [List.mem_singleton.mp hn]
      exact hsmall 3 (by omega)
    · intro n hn
      rw [hexpected] at hn
      rw [List.mem_singleton.mp hn]
      exact hsmall 2 (by omega)

/-- A watch whose path leads to the file it knows is adopted in silence, without a condition and
with one. -/
theorem adoption_silent_iff_sample :
    Silent sampleRust.serde.crates (adoptedDb (adoptedRow none lastSample))
        { Runtime.new with watch := some (adoptedWatch none) } (adoptedWatch none)
        (Collector.sampleFile sampleRust.crates none "/srv/app/build.json" none none
          adoptedState) ∧
      ∃ condition, Silent sampleRust.serde.crates
        (adoptedDb (adoptedRow (some adoptedText) lastResult))
        { Runtime.new with watch := some (adoptedWatch (some condition)) }
        (adoptedWatch (some condition))
        (Collector.sampleFile sampleRust.crates none "/srv/app/build.json" (some condition) none
          adoptedState) := by
  have hmem : ∀ row, row ∈ (adoptedDb row).managedWatches := fun row =>
    List.mem_singleton_self row
  have hids : ∀ text last, isIdentifier (adoptedRow text last).id = true ∧
      (Collector.Path.ofString (adoptedRow text last).path).absolute = true := by
    intro text last
    have hrow : isIdentifier (sampleUuid 4).text = true ∧
        (Collector.Path.ofString "/srv/app/build.json").absolute = true := by
      decide
    exact hrow
  constructor
  · have hreads := adopted_reads lastSample (3 : Fin 5) rfl rfl (by decide +kernel)
    have hiff := adoption_silent_iff sampleRust samplePythonWorker sample_corresponds
      (adoptedDb (adoptedRow none lastSample)) (adoptedRow none lastSample) (adoptedWatch none)
      { Runtime.new with watch := some (adoptedWatch none) } adoptedState lastSample none none
      (hmem _) (hids _ _).1 (hids _ _).2 (adopted_row hreads rfl) (adopted_watch lastSample rfl rfl)
      rfl rfl adopted_observe
    refine hiff.mpr ?_
    show NamedAlike adoptedState
    intro _ errno h
    cases h
  · obtain ⟨condition, hcondition⟩ := Option.isSome_iff_exists.mp adopted_readsAlike.condition
    have hreads := adopted_reads lastResult (2 : Fin 5) rfl rfl (by decide +kernel)
    have hobject : condition = .object [("operator", .string "gt"), ("pointer", .string "/size"),
        ("value", .number (.posInt 2))] := by
      have hread : (sampleGrammar (sampleDocuments.get (1 : Fin 5)).bytes).bind
        sampleSerde.parse = some condition := hcondition
      rw [sampleGrammar_reads] at hread
      exact (Option.some.inj hread).symm
    have hof : Collector.conditionOf sampleRust.serde.crates (some adoptedText) =
        some condition := by
      rw [Collector.conditionOf, Option.map_some, hcondition, hobject]
      rfl
    have hsize : ((some condition).any fun value => Collector.maxConditionBytes <
        (canonicalJson sampleRust.serde.crates value).utf8ByteSize) = false := by
      rw [hobject]
      decide
    have hiff := adoption_silent_iff sampleRust samplePythonWorker sample_corresponds
      (adoptedDb (adoptedRow (some adoptedText) lastResult))
      (adoptedRow (some adoptedText) lastResult) (adoptedWatch (some condition))
      { Runtime.new with watch := some (adoptedWatch (some condition)) } adoptedState lastResult
      none none (hmem _) (hids _ _).1 (hids _ _).2 (adopted_row hreads rfl)
      (adopted_watch lastResult hof hsize) rfl rfl adopted_decides
    refine ⟨condition, hiff.mpr ?_⟩
    have htext : conditionText (adoptedRow (some adoptedText) lastResult) = some adoptedText := by
      decide
    unfold Faithful
    rw [htext]
    intro size bytes hstate
    obtain ⟨_, _, hbytes⟩ := FileState.regular.inj hstate
    rw [← Reading.content.inj hbytes]
    exact adopted_readsAlike

/-! ## A directory that may not be entered -/

/-- What Python remembers of a path whose directory it may not enter. -/
def lastDenied : Value :=
  .object [("error", .string "PermissionError"), ("path", .string "/srv/app/build.json"),
    ("state", .string "unreadable")]

/-- The Rust runtime has another name for the error, so the first sample is a change. -/
theorem adoption_silent_fails :
    ¬ ∀ (rust : RustWorker) (python : PythonWorker) (db : Db) (row : Watch) (w : Collector.Watch)
        (r : Runtime) (state : FileState) (last : Value), Corresponds rust python →
      row ∈ db.managedWatches → isIdentifier row.id = true →
      (Collector.Path.ofString row.path).absolute = true → Adopted rust.serde.crates row last →
      Collector.watchFromValue rust.serde.crates row = some w → r.watch = some w →
      w.active = true → observe python row state = some last →
        Silent rust.serde.crates db r w
          (Collector.sampleFile rust.crates none w.path w.condition none state) := by
  intro h
  have hreads := adopted_reads lastDenied (4 : Fin 5) rfl rfl (by decide +kernel)
  have hadopted : Adopted sampleRust.serde.crates (adoptedRow none lastDenied) lastDenied :=
    adopted_row hreads rfl
  have hrow : Collector.watchFromValue sampleRust.serde.crates (adoptedRow none lastDenied) =
      some (adoptedWatch none) := adopted_watch lastDenied rfl rfl
  have hobserved : observe samplePythonWorker (adoptedRow none lastDenied) (.unresolved .eacces) =
      some lastDenied := rfl
  have hmem : adoptedRow none lastDenied ∈
      (adoptedDb (adoptedRow none lastDenied)).managedWatches :=
    List.mem_singleton_self _
  have hid : isIdentifier (adoptedRow none lastDenied).id = true := by decide
  have hsilent := h sampleRust samplePythonWorker (adoptedDb (adoptedRow none lastDenied))
    (adoptedRow none lastDenied) (adoptedWatch none)
    { Runtime.new with watch := some (adoptedWatch none) } (.unresolved .eacces) lastDenied
    sample_corresponds hmem hid (by decide) hadopted hrow rfl rfl hobserved
  have hrepeats := (silent_iff hmem hid hadopted hrow rfl rfl _).mp hsilent
  have hnamed := (plain_iff sample_corresponds rfl hobserved none).mp hrepeats
  have hdiffer : ¬ SameName .eacces := by decide
  exact hdiffer hnamed

end CodexMonitor
