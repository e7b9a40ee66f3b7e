import CodexMonitor.Collector.Framing
import CodexMonitor.Store.Commits.Routes

/-!
# Which watches can be sampled

A watch that is created is loaded by the collector, sent to a worker as a line of
JSON, sampled, and its sample comes back as another line.  The loader bounds the
condition, both ends of the pipe bound the lines, the parser of jobs bounds their levels,
and the worker asks of a condition what `normalize_condition` checked in Python and of a
path that it leads to text.  `watch_create` checks none of this: `watch_sampled_iff` says
which of the watches it accepts get through.
-/

namespace CodexMonitor.Collector

open Transaction
open Scanner (asBytes)

/-! ## The command -/

def operatorText : Operator → String
  | .eq => "eq"
  | .ne => "ne"
  | .gt => "gt"
  | .gte => "gte"
  | .lt => "lt"
  | .lte => "lte"

/-- The condition of `monitor create`; the parser of the command line takes the six operators
only. -/
def commandCondition (crates : Crates) (pointer : Option String) (operator : Option Operator)
    (value : Option String) : StoreM (Option Value) :=
  match pointer, operator, value with
  | none, none, none => pure none
  | some pointer, some operator, some value => do
      let value ← Tx.expect (.bail "invalid JSON value") (crates.fromStr value)
      pure (some (.object [("operator", .string (operatorText operator)),
        ("pointer", .string pointer), ("value", value)]))
  | _, _, _ => Tx.fail (.bail "provide pointer, operator and value together")

/-- `monitor create`. -/
def monitorCreate (crates : Crates) (thread name file : String) (interval : F64)
    (endpoint : String) (debounce : F64) (pointer : Option String) (operator : Option Operator)
    (value : Option String) (uuid : Uuid) (now : Rat) : StoreM CodexMonitor.Watch := do
  CodexMonitor.validateEndpoint crates endpoint
  bailIf (file.toList.head? ≠ some '/') "file must be absolute"
  let condition ← commandCondition crates pointer operator value
  watchCreate crates thread name file interval endpoint debounce condition uuid now

/-! ## The way of a watch -/

/-- A condition whose form a worker can evaluate. -/
structure Evaluable (crates : Crates) (condition : Value) : Prop where
  pointer : ∃ pointer, condition.getStr "pointer" = some pointer ∧ pointerTokens pointer ≠ none
  expected : ∃ operator expected,
    (condition.getStr "operator").bind Operator.ofString = some operator ∧
      condition.get "value" = some expected ∧
      (canonicalJson crates expected).utf8ByteSize ≤ maxExpectedBytes ∧
      (operator.orders = true → ∃ n, expected = .number n)

/-- The reader of a reply takes a line as soon as it has its end. -/
def ReplyFits (crates : Crates) (reply : WorkerReply) : Prop :=
  (asBytes (reply.text crates).toList).length ≤ maxWorkerLine

/-- The collector takes the row of a watch, and its condition, if it was given one, in a form that
can be evaluated, here and where the worker reads it; the job is sent, and for every state of the
file the worker replies to it with a sample that fits.  `canonicalize` says where directories
lead. -/
structure CanBeSampled (crates : PipeCrates) (cwd : Option String) (row : CodexMonitor.Watch)
    (canonicalize : Path → Option (List UInt8)) (watch : Watch) : Prop where
  loaded : watchFromValue crates.toCrates row = some watch
  stored : row.condition.isSome = true →
    ∃ condition, watch.condition = some condition ∧ Evaluable crates.toCrates condition
  evaluated : ∀ condition, crates.jobCondition watch.condition = some condition →
    Evaluable crates.toCrates condition
  job : (request crates.toCrates cwd watch.path watch.condition).length ≤ maxWorkerLine
  reply : ∀ files : Files, files.canonicalize = canonicalize → ∃ sample,
    answer crates files (request crates.toCrates cwd watch.path watch.condition ++ [newline]) =
      some (sampled sample) ∧ ReplyFits crates.toCrates (sampled sample)

/-! ## The bytes of a reply -/

def predicateBytes : Predicate → Nat
  | .matched => 19
  | .notMatched => 23
  | .invalid => 47

/-- What an outcome adds to the paths of a reply. -/
def outcomeBytes : Outcome → Nat
  | .missing => 18
  | .unreadable error => 30 + (stringText error).utf8ByteSize
  | .present sha256 predicate =>
      28 + (stringText sha256).utf8ByteSize + predicate.elim 0 fun p => 13 + predicateBytes p

/-- The bytes of a reply. -/
def replyBytes (path : String) (native : Option String) (outcome : Outcome) : Nat :=
  43 + (stringText path).utf8ByteSize +
    (native.elim 0 fun path => 16 + (stringText path).utf8ByteSize) + outcomeBytes outcome

theorem predicate_bytes (crates : Crates) (p : Predicate) :
    (canonicalJson crates p.value).utf8ByteSize = predicateBytes p := by
  cases p with
  | matched | notMatched | invalid =>
      rw [Predicate.value, object_bytes crates (by simp)]
      simp only [List.map_cons, List.map_nil, List.sum_cons, List.sum_nil, fieldBytes,
        canonicalJson]
      decide

/-- The sum over the fields of a sample. -/
theorem fields_bytes (crates : Crates) (sample : FileSample) :
    (sample.fields.map (fieldBytes crates)).sum =
      8 + (stringText sample.path).utf8ByteSize + outcomeBytes sample.outcome := by
  have hkeys : (stringText "path").utf8ByteSize = 6 ∧ (stringText "state").utf8ByteSize = 7 ∧
      (stringText "error").utf8ByteSize = 7 ∧ (stringText "sha256").utf8ByteSize = 8 ∧
      (stringText "predicate").utf8ByteSize = 11 := by decide
  have hstates : (stringText "missing").utf8ByteSize = 9 ∧
      (stringText "unreadable").utf8ByteSize = 12 ∧
      (stringText "present").utf8ByteSize = 9 := by decide
  obtain ⟨hpath, hstate, herror, hsha256, hpredicate⟩ := hkeys
  obtain ⟨hmissing, hunreadable, hpresent⟩ := hstates
  unfold FileSample.fields
  cases sample.outcome with
  | missing =>
      simp only [List.map_cons, List.map_nil, List.sum_cons, List.sum_nil, fieldBytes,
        canonicalJson, outcomeBytes]
      omega
  | unreadable error =>
      simp only [List.map_cons, List.map_nil, List.sum_cons, List.sum_nil, fieldBytes,
        canonicalJson, outcomeBytes]
      omega
  | present sha256 predicate =>
      cases predicate with
      | none =>
          simp only [List.map_cons, List.map_nil, List.sum_cons, List.sum_nil, fieldBytes,
            canonicalJson, outcomeBytes, Option.elim_none]
          omega
      | some p =>
          simp only [List.map_cons, List.map_nil, List.sum_cons, List.sum_nil, fieldBytes,
            predicate_bytes, outcomeBytes, Option.elim_some]
          simp only [canonicalJson]
          omega

theorem sampled_bytes (crates : Crates) (sample : FileSample) :
    (asBytes ((sampled sample).text crates).toList).length =
      replyBytes sample.path sample.nativePath sample.outcome := by
  have hok : "\x7b\"ok\":".utf8ByteSize = 6 := by decide
  have htrue : "true".utf8ByteSize = 4 := by decide
  have hsample : ",\"sample\":".utf8ByteSize = 10 := by decide
  have herror : ",\"error\":".utf8ByteSize = 9 := by decide
  have hnull : "null".utf8ByteSize = 4 := by decide
  have hend : "\x7d".utf8ByteSize = 1 := by decide
  have hnative : (stringText "_native_path").utf8ByteSize = 14 := by decide
  have hfields : sample.fields ≠ [] := by
    unfold FileSample.fields
    split <;> simp
  have hsum := fields_bytes crates sample
  have hvalue : (canonicalJson crates sample.value).utf8ByteSize =
      9 + (stringText sample.path).utf8ByteSize +
        sample.nativePath.elim 0 (fun path => 16 + (stringText path).utf8ByteSize) +
        outcomeBytes sample.outcome := by
    unfold FileSample.value
    cases sample.nativePath with
    | none =>
        rw [object_bytes crates hfields, hsum, Option.elim_none]
        omega
    | some path =>
        rw [object_bytes crates (List.cons_ne_nil _ _), List.map_cons, List.sum_cons, hsum,
          Option.elim_some]
        simp only [fieldBytes, canonicalJson, hnative]
        omega
  rw [asBytes_length, replyBytes]
  simp only [WorkerReply.text, sampled, if_true, Option.elim_some, Option.elim_none,
    String.utf8ByteSize_append, hok, htrue, hsample, herror, hnull, hend, hvalue]
  omega

/-! ## The outcomes of a sample -/

/-- A digest is written with sixty-four hexadecimal digits. -/
def WorkerCrates.HexDigests (crates : WorkerCrates) : Prop :=
  ∀ bytes, (crates.sha256 bytes).toList.length = 64 ∧
    ∀ c ∈ (crates.sha256 bytes).toList, c.isDigit = true ∨ ('a' ≤ c ∧ c ≤ 'f')

/-- What a worker can say of the condition of a file that is there. -/
inductive Results (crates : WorkerCrates) : Option Value → Option Predicate → Prop
  | bare : Results crates none none
  | evaluated {condition document : Value} {bytes : List UInt8}
      (hread : crates.fromSlice bytes = some document) :
      Results crates (some condition)
        (some (.ofOption (evaluateCondition crates.toCrates document condition)))

/-- The texts that name what went wrong. -/
def sampleErrors : List String :=
  ["PermissionDenied", "FileNotFoundError", "InvalidInput", "OSError", "symlink",
    "not_regular_file", "file_too_large", "read_timeout", "short_read", "changed_during_read",
    "invalid_json"]

/-- What is there has one of the results of the condition, or its text is no document. -/
theorem presentFile_cases (crates : WorkerCrates) (condition : Option Value) (bytes : List UInt8) :
    presentFile crates condition bytes = .unreadable "invalid_json" ∨
      ∃ p, Results crates condition p ∧
        presentFile crates condition bytes = .present (crates.sha256 bytes) p := by
  unfold presentFile
  cases condition with
  | none => exact .inr ⟨none, .bare, rfl⟩
  | some condition =>
      cases hread : crates.fromSlice bytes with
      | none => exact .inl rfl
      | some document => exact .inr ⟨_, .evaluated hread, rfl⟩

/-- Every result is that of a file that can be read. -/
theorem Results.state {crates : WorkerCrates} {condition : Option Value} {p : Option Predicate}
    (h : Results crates condition p) : ∃ state : FileState, ∃ bytes,
      state.sample crates condition = .present (crates.sha256 bytes) p := by
  cases h with
  | bare => exact ⟨.regular 0 none (.content []), [], rfl⟩
  | @evaluated condition document bytes hread =>
      refine ⟨.regular 0 none (.content bytes), bytes, ?_⟩
      have hsize : ¬ maxFileBytes < 0 := Nat.not_lt_zero _
      simp only [FileState.sample, if_neg hsize, presentFile, hread]

theorem errorName_mem (errno : Errno) : errorName errno ∈ sampleErrors := by
  unfold errorName
  split <;> decide

/-- The outcomes of a sample. -/
theorem sample_cases (crates : WorkerCrates) (condition : Option Value) (state : FileState) :
    state.sample crates condition = .missing ∨
      (∃ error ∈ sampleErrors, state.sample crates condition = .unreadable error) ∨
      ∃ bytes p, Results crates condition p ∧
        state.sample crates condition = .present (crates.sha256 bytes) p := by
  unfold FileState.sample
  split
  · exact .inl rfl
  · exact .inr (.inl ⟨_, errorName_mem _, rfl⟩)
  · exact .inr (.inl ⟨_, by decide, rfl⟩)
  · exact .inr (.inl ⟨_, by decide, rfl⟩)
  split
  · exact .inr (.inl ⟨_, by decide, rfl⟩)
  split
  · exact .inl rfl
  · exact .inr (.inl ⟨_, errorName_mem _, rfl⟩)
  · exact .inr (.inl ⟨_, by decide, rfl⟩)
  · exact .inr (.inl ⟨_, by decide, rfl⟩)
  · exact .inr (.inl ⟨_, by decide, rfl⟩)
  · exact .inr (.inl ⟨_, by decide, rfl⟩)
  · exact .inr (.inl ⟨_, errorName_mem _, rfl⟩)
  · rename_i bytes
    obtain hinvalid | ⟨p, hp, hpresent⟩ := presentFile_cases crates condition bytes
    · exact .inr (.inl ⟨_, by decide, hinvalid⟩)
    · exact .inr (.inr ⟨bytes, p, hp, hpresent⟩)

/-- The text of a digest has sixty-six bytes, its quotes included. -/
theorem WorkerCrates.HexDigests.bytes {crates : WorkerCrates} (h : crates.HexDigests)
    (bytes : List UInt8) : (stringText (crates.sha256 bytes)).utf8ByteSize = 66 := by
  obtain ⟨hlength, hhex⟩ := h bytes
  have hrange : ∀ c : Char, c.isDigit = true ∨ ('a' ≤ c ∧ c ≤ 'f') →
      escapeChar c = [c] ∧ c.utf8Size = 1 := by
    intro c hc
    have hnum : (48 ≤ c.toNat ∧ c.toNat ≤ 57) ∨ (97 ≤ c.toNat ∧ c.toNat ≤ 102) := by
      obtain hdigit | ⟨hlow, hhigh⟩ := hc
      · exact .inl (by simpa [Char.isDigit, UInt32.le_iff_toNat_le] using hdigit)
      · exact .inr ⟨Char.le_def.mp hlow, Char.le_def.mp hhigh⟩
    constructor
    · unfold escapeChar
      split
      iterate 7 omega
      rw [if_neg (by omega)]
    · rw [Char.utf8Size_eq_one_iff, UInt32.le_iff_toNat_le]
      show c.toNat ≤ 127
      omega
  rw [stringText_bytes fun c hc => hrange c (hhex c hc), hlength]

/-- Every outcome fits beside the paths when the longest do: the longest error, and a digest with
each result of the condition. -/
theorem outcomes_fit_iff {crates : WorkerCrates} (hdigests : crates.HexDigests)
    {condition : Option Value} {paths : Nat} :
    (∀ state : FileState, 43 + paths + outcomeBytes (state.sample crates condition) ≤
        maxWorkerLine) ↔
      paths + 94 ≤ maxWorkerLine ∧ ∀ p, Results crates condition p →
        paths + (p.elim 0 fun p => 13 + predicateBytes p) + 137 ≤ maxWorkerLine := by
  constructor
  · intro hfit
    constructor
    · have hchanged := hfit (.regular 0 none .changed)
      have hsample : (FileState.regular 0 none .changed).sample crates condition =
          .unreadable "changed_during_read" := rfl
      have herror : (stringText "changed_during_read").utf8ByteSize = 21 := by decide
      rw [hsample, outcomeBytes, herror] at hchanged
      omega
    · intro p hp
      obtain ⟨state, bytes, hsample⟩ := hp.state
      have hpresent := hfit state
      rw [hsample, outcomeBytes, hdigests.bytes] at hpresent
      omega
  · intro ⟨hfailure, hpresent⟩ state
    obtain hmissing | ⟨error, hmem, hunreadable⟩ | ⟨bytes, p, hp, hread⟩ :=
      sample_cases crates condition state
    · rw [hmissing, outcomeBytes]
      omega
    · have hlongest : ∀ error ∈ sampleErrors, (stringText error).utf8ByteSize ≤ 21 := by decide
      have hle := hlongest error hmem
      rw [hunreadable, outcomeBytes]
      omega
    · have hle := hpresent p hp
      rw [hread, outcomeBytes, hdigests.bytes]
      omega

/-! ## Created watches -/

section created

variable {crates : Crates} {db t : Db}

/-- What `watch_create` has checked of a row. -/
theorem watchCreate_row {thread name path endpoint : String} {interval debounce : F64}
    {condition : Option Value} {uuid : Uuid} {now : Rat} {row : CodexMonitor.Watch}
    (h : (watchCreate crates thread name path interval endpoint debounce condition uuid now).run db
      = (.ok row, t)) :
    row.path = path ∧ path.toList.head? = some '/' ∧
      row.condition = condition.map (canonicalJson crates) ∧ 0 ≤ row.interval ∧
      0 ≤ row.debounce := by
  obtain ⟨_, _, habsolute, hinterval, hdebounce, rfl, _⟩ := watchCreate_ok h
  have hwithin : ∀ {x : F64} {low value : Rat}, x.within low = some value → low ≤ value := by
    intro x low value hx
    unfold F64.within at hx
    split at hx
    · split at hx
      · rename_i hrange
        cases hx
        exact hrange.1
      · cases hx
    · cases hx
    · cases hx
  exact ⟨rfl, habsolute, rfl,
    le_trans (by decide +kernel : (0 : Rat) ≤ minInterval) (hwithin hinterval), hwithin hdebounce⟩

theorem monitorCreate_row {thread name file endpoint : String} {interval debounce : F64}
    {pointer value : Option String} {operator : Option Operator} {uuid : Uuid} {now : Rat}
    {row : CodexMonitor.Watch}
    (h : (monitorCreate crates thread name file interval endpoint debounce pointer operator value
      uuid now).run db = (.ok row, t)) :
    row.path = file ∧ file.toList.head? = some '/' ∧ 0 ≤ row.interval ∧ 0 ≤ row.debounce := by
  simp only [monitorCreate, Tx.bind_ok] at h
  obtain ⟨_, _, _, _, _, _, condition, _, _, hcreate⟩ := h
  obtain ⟨hpath, habsolute, _, hinterval, hdebounce⟩ := watchCreate_row hcreate
  exact ⟨hpath, habsolute, hinterval, hdebounce⟩

end created

/-- The collector's watch of a row has the row's path and condition. -/
theorem loaded_row {crates : Crates} {row : CodexMonitor.Watch} {watch : Watch}
    (h : watchFromValue crates row = some watch) :
    watch.path = row.path ∧ watch.condition = conditionOf crates row.condition ∧
      ∀ condition ∈ conditionOf crates row.condition,
        (canonicalJson crates condition).utf8ByteSize ≤ maxConditionBytes := by
  unfold watchFromValue at h
  dsimp only at h
  split at h
  · cases h
  rename_i hbounds
  cases h
  refine ⟨rfl, rfl, fun condition hcondition => Nat.le_of_not_lt fun hlong => ?_⟩
  exact hbounds (.inl ((Option.any_eq_true _ _).mpr ⟨condition, hcondition, decide_eq_true hlong⟩))

/-- A row with an interval and a debounce loads as soon as its condition is within its bound. -/
theorem loaded_of_bounds {crates : Crates} {row : CodexMonitor.Watch} (hinterval : 0 ≤ row.interval)
    (hdebounce : 0 ≤ row.debounce)
    (hbound : ∀ condition ∈ conditionOf crates row.condition,
      (canonicalJson crates condition).utf8ByteSize ≤ maxConditionBytes) :
    ∃ watch, watchFromValue crates row = some watch := by
  unfold watchFromValue
  dsimp only
  rw [if_neg]
  · exact ⟨_, rfl⟩
  · intro hbad
    obtain hlong | hnegative | hnegative := hbad
    · obtain ⟨condition, hcondition, hlong⟩ := (Option.any_eq_true _ _).mp hlong
      exact absurd (of_decide_eq_true hlong) (Nat.not_lt.mpr (hbound condition hcondition))
    · exact absurd hnegative (not_lt.mpr hinterval)
    · exact absurd hnegative (not_lt.mpr hdebounce)

/-! ## Which of them get through -/

/-- The bytes of the path a sample resolves to. -/
def nativeBytes (native : Option (List UInt8)) : Nat :=
  (native.bind toStr).elim 0 fun path => 16 + (stringText path).utf8ByteSize

/-- What a created watch needs to be sampled.  The path and the condition are counted as JSON
writes them. -/
structure GetsThrough (crates : PipeCrates) (row : CodexMonitor.Watch)
    (canonicalize : Path → Option (List UInt8)) : Prop where
  /-- the condition reads back, within its bound, and has the form of one -/
  condition : row.condition.isSome = true →
    ∃ condition, conditionOf crates.toCrates row.condition = some condition ∧
      Evaluable crates.toCrates condition ∧
      (canonicalJson crates.toCrates condition).utf8ByteSize ≤ maxConditionBytes
  /-- and still has it with the doubles that the worker reads -/
  evaluated : ∀ condition,
    crates.jobCondition (conditionOf crates.toCrates row.condition) = some condition →
      Evaluable crates.toCrates condition
  levels : jobDepth (conditionOf crates.toCrates row.condition) ≤ maxDepth
  job : (stringText row.path).utf8ByteSize + ((conditionOf crates.toCrates row.condition).elim
    "null" (canonicalJson crates.toCrates)).utf8ByteSize + 23 ≤ maxWorkerLine
  name : NameReadable canonicalize row.path
  /-- a reply that something went wrong -/
  failure : (stringText row.path).utf8ByteSize + nativeBytes (nativePath canonicalize row.path) +
    94 ≤ maxWorkerLine
  /-- a reply with a digest, and a result of the condition -/
  present : ∀ p, Results crates.toWorkerCrates
      (crates.jobCondition (conditionOf crates.toCrates row.condition)) p →
    (stringText row.path).utf8ByteSize + nativeBytes (nativePath canonicalize row.path) +
      (p.elim 0 fun p => 13 + predicateBytes p) + 137 ≤ maxWorkerLine

/-- A sample is that of a state of the file, with the bytes of the path it leads to. -/
theorem sample_bytes {crates : PipeCrates} {files : Files} {path : String}
    {condition : Option Value} {sample : FileSample} (habsolute : path.toList.head? = some '/')
    (h : files.sample crates.toWorkerCrates path condition = some sample) :
    (asBytes ((sampled sample).text crates.toCrates).toList).length =
      43 + ((stringText path).utf8ByteSize + nativeBytes (nativePath files.canonicalize path)) +
        outcomeBytes ((files.state path).sample crates.toWorkerCrates condition) := by
  unfold Files.sample at h
  rw [sampled_bytes, nativeBytes, ← Nat.add_assoc]
  cases hnative : nativePath files.canonicalize path with
  | none =>
      rw [hnative] at h
      obtain rfl := Option.some.inj h
      simp only [sampleFile, absoluteDisplayPath_eq habsolute, replyBytes, Option.bind_none,
        Option.elim_none]
  | some resolved =>
      rw [hnative] at h
      obtain ⟨native, hstr, rfl⟩ := Option.map_eq_some_iff.mp h
      simp only [sampleFile, absoluteDisplayPath_eq habsolute, replyBytes, Option.bind_some, hstr,
        Option.elim_some]

/-- A job gets a sample that fits for every state of its file exactly when the worker takes it, its
path leads to text, and every outcome fits beside the paths. -/
theorem answers_fit_iff {crates : PipeCrates} {cwd : Option String} {path : String}
    {condition : Option Value} (habsolute : path.toList.head? = some '/')
    (hreads : crates.ReadsJob cwd path condition) (canonicalize : Path → Option (List UInt8)) :
    (∀ files : Files, files.canonicalize = canonicalize → ∃ sample,
        answer crates files (request crates.toCrates cwd path condition ++ [newline]) =
          some (sampled sample) ∧ ReplyFits crates.toCrates (sampled sample)) ↔
      (request crates.toCrates cwd path condition).length < maxWorkerLine ∧
        jobDepth condition ≤ maxDepth ∧ NameReadable canonicalize path ∧
        ∀ state : FileState,
          43 + ((stringText path).utf8ByteSize + nativeBytes (nativePath canonicalize path)) +
            outcomeBytes (state.sample crates.toWorkerCrates (crates.jobCondition condition)) ≤
              maxWorkerLine := by
  constructor
  · intro hreply
    have hanswer : ∀ state : FileState, ∃ sample,
        (request crates.toCrates cwd path condition).length < maxWorkerLine ∧
          jobDepth condition ≤ maxDepth ∧
          Files.sample crates.toWorkerCrates ⟨cwd, fun _ => state, canonicalize⟩ path
            (crates.jobCondition condition) = some sample ∧
          ReplyFits crates.toCrates (sampled sample) := by
      intro state
      obtain ⟨sample, hsampled, hfits⟩ := hreply ⟨cwd, fun _ => state, canonicalize⟩ rfl
      obtain ⟨hshort, hlevels, sample', hsample, heq⟩ := answer_ok hreads hsampled rfl
      rw [absoluteDisplayPath_eq habsolute] at hsample
      exact ⟨sample', hshort, hlevels, hsample, heq ▸ hfits⟩
    obtain ⟨sample, hshort, hlevels, hsample, _⟩ := hanswer .symlink
    refine ⟨hshort, hlevels, by_contra fun hname => ?_, fun state => ?_⟩
    · rw [sample_eq_none.mpr hname] at hsample
      cases hsample
    · obtain ⟨sample, _, _, hsample, hfits⟩ := hanswer state
      rw [ReplyFits, sample_bytes habsolute hsample] at hfits
      exact hfits
  · intro ⟨hshort, hlevels, hname, hfit⟩ files hfiles
    subst hfiles
    have hsome : files.sample crates.toWorkerCrates path (crates.jobCondition condition) ≠ none :=
      fun hnone => sample_eq_none.mp hnone hname
    obtain ⟨sample, hsample⟩ := Option.ne_none_iff_exists'.mp hsome
    refine ⟨sample, answer_sampled hreads hshort hlevels ?_, ?_⟩
    · rw [absoluteDisplayPath_eq habsolute]
      exact hsample
    · rw [ReplyFits, sample_bytes habsolute hsample]
      exact hfit _

/-- Its condition is within the bound of the loader. -/
theorem GetsThrough.bound {crates : PipeCrates} {row : CodexMonitor.Watch}
    {canonicalize : Path → Option (List UInt8)} (h : GetsThrough crates row canonicalize) :
    ∀ condition ∈ conditionOf crates.toCrates row.condition,
      (canonicalJson crates.toCrates condition).utf8ByteSize ≤ maxConditionBytes := by
  intro condition hcondition
  have hsome : row.condition.isSome = true := by
    cases hrow : row.condition with
    | none =>
        rw [hrow] at hcondition
        cases hcondition
    | some text => rfl
  obtain ⟨condition', heq, _, hle⟩ := h.condition hsome
  rw [heq] at hcondition
  obtain rfl := Option.some.inj hcondition
  exact hle

/-- **Which created watches can be sampled.**  A watch that the command line creates can be loaded,
sent to a worker, sampled there in every state of its file, and its condition can be evaluated,
exactly when its condition has the form of one and is not too deep for the parser of jobs, its path
leads to text, and it, the path and the path it leads to are short enough. -/
theorem watch_sampled_iff {crates : PipeCrates} (hdigests : crates.toWorkerCrates.HexDigests)
    {thread name file endpoint : String} {interval debounce : F64} {pointer value : Option String}
    {operator : Option Operator} {uuid : Uuid} {now : Rat} {db t : Db} {row : CodexMonitor.Watch}
    (h : (monitorCreate crates.toCrates thread name file interval endpoint debounce pointer operator
      value uuid now).run db = (.ok row, t)) {cwd : Option String}
    (hreads : crates.ReadsJob cwd row.path (conditionOf crates.toCrates row.condition))
    (canonicalize : Path → Option (List UInt8)) :
    (∃ watch, CanBeSampled crates cwd row canonicalize watch) ↔
      GetsThrough crates row canonicalize := by
  obtain ⟨rfl, habsolute, hinterval, hdebounce⟩ := monitorCreate_row h
  have hrequest := request_bytes crates.toCrates cwd row.path
    (conditionOf crates.toCrates row.condition)
  rw [absoluteDisplayPath_eq habsolute] at hrequest
  have hanswers := answers_fit_iff habsolute hreads canonicalize
  constructor
  · intro ⟨watch, hwatch⟩
    obtain ⟨hpath, hcondition, hbound⟩ := loaded_row hwatch.loaded
    have hstored := hwatch.stored
    have hevaluated := hwatch.evaluated
    have hreply := hwatch.reply
    rw [hcondition] at hstored hevaluated
    rw [hpath, hcondition] at hreply
    obtain ⟨hshort, hlevels, hname, hstates⟩ := hanswers.mp hreply
    obtain ⟨hfailure, hpresent⟩ := (outcomes_fit_iff hdigests).mp hstates
    refine ⟨fun hsome => ?_, hevaluated, hlevels, by omega, hname, hfailure, hpresent⟩
    obtain ⟨condition, heq, hevaluable⟩ := hstored hsome
    exact ⟨condition, heq, hevaluable, hbound condition heq⟩
  · intro hthrough
    obtain ⟨watch, hloaded⟩ := loaded_of_bounds hinterval hdebounce hthrough.bound
    obtain ⟨hpath, hcondition, _⟩ := loaded_row hloaded
    have hjob := hthrough.job
    refine ⟨watch, hloaded, fun hsome => ?_, ?_, ?_, ?_⟩
    · obtain ⟨condition, heq, hevaluable, _⟩ := hthrough.condition hsome
      exact ⟨condition, hcondition.trans heq, hevaluable⟩
    · rw [hcondition]
      exact hthrough.evaluated
    · rw [hpath, hcondition, hrequest]
      omega
    · rw [hpath, hcondition]
      refine hanswers.mpr ⟨by omega, hthrough.levels, hthrough.name, ?_⟩
      exact (outcomes_fit_iff hdigests).mpr ⟨hthrough.failure, hthrough.present⟩

/-! ## A pointer without a slash -/

/-- Third-party code that reads the condition, its value and the job. -/
def statusCrates (pointer : String) : PipeCrates :=
  readingJob (.knowing [statusCondition pointer, .number (.posInt 1)]) "/srv/status.json"
    (some (statusCondition pointer))

/-- The row of a watch with the condition. -/
def statusRow (pointer : String) : CodexMonitor.Watch where
  id := (sampleUuid 1).text
  thread := "conversation-1"
  name := "status"
  path := "/srv/status.json"
  interval := 5
  endpoint := "shared-local"
  debounce := 0
  condition := some (canonicalJson printer (statusCondition pointer))
  binding := "managed-" ++ (sampleUuid 1).text
  enabled := true
  removed := false
  epoch := 0
  checkpoint := none
  created := 10
  updated := 10

/-- The watch is created. -/
def createStatus (pointer : String) : StoreM CodexMonitor.Watch :=
  monitorCreate (statusCrates pointer).toCrates "conversation-1" "status" "/srv/status.json"
    (.finite 5) "shared-local" (.finite 0) (some pointer) (some .eq) (some "1") (sampleUuid 1) 10

theorem statusCrates_hex (pointer : String) : (statusCrates pointer).toWorkerCrates.HexDigests := by
  intro bytes
  exact (by decide : (String.ofList (List.replicate 64 '0')).toList.length = 64 ∧
    ∀ c ∈ (String.ofList (List.replicate 64 '0')).toList, c.isDigit = true ∨ ('a' ≤ c ∧ c ≤ 'f'))

theorem statusRow_condition (pointer : String) :
    conditionOf (statusCrates pointer).toCrates (statusRow pointer).condition =
      some (statusCondition pointer) := by
  have hread : (statusCrates pointer).fromStr (canonicalJson printer (statusCondition pointer)) =
      some (statusCondition pointer) := by
    unfold statusCrates readingJob Crates.knowing
    simp
  simp only [conditionOf, statusRow, Option.map_some, hread, Option.getD_some]
  rfl

theorem statusCrates_reads (pointer : String) : (statusCrates pointer).ReadsJob none
    (statusRow pointer).path
    (conditionOf (statusCrates pointer).toCrates (statusRow pointer).condition) := by
  rw [statusRow_condition]
  have hlevels : jobDepth (some (statusCondition pointer)) = 2 := rfl
  exact readingJob_reads (by decide) rfl (by rw [hlevels]; decide) none

/-- A pointer without a slash is stored, and no document is ever compared with it. -/
theorem watch_sampled_fails :
    ¬ ∀ (crates : PipeCrates) (thread name file endpoint : String) (interval debounce : F64)
        (pointer value : Option String) (operator : Option Operator) (uuid : Uuid) (now : Rat)
        (db t : Db) (row : CodexMonitor.Watch) (cwd : Option String)
        (canonicalize : Path → Option (List UInt8)), crates.toWorkerCrates.HexDigests →
      (monitorCreate crates.toCrates thread name file interval endpoint debounce pointer operator
        value uuid now).run db = (.ok row, t) →
      crates.ReadsJob cwd row.path (conditionOf crates.toCrates row.condition) →
      ∃ watch, CanBeSampled crates cwd row canonicalize watch := by
  intro h
  have hcreated : ((createStatus "status").run Db.empty).1 = .ok (statusRow "status") := by
    decide +kernel
  obtain ⟨watch, hwatch⟩ := h (statusCrates "status") _ _ _ _ _ _ _ _ _ _ _ _ _ _ none
    pipeFiles.canonicalize (statusCrates_hex _) (Prod.ext hcreated rfl) (statusCrates_reads _)
  obtain ⟨_, hcondition, _⟩ := loaded_row hwatch.loaded
  obtain ⟨condition, heq, hevaluable⟩ := hwatch.stored rfl
  rw [hcondition, statusRow_condition] at heq
  obtain rfl := Option.some.inj heq
  obtain ⟨pointer, hpointer, htokens⟩ := hevaluable.pointer
  obtain rfl : "status" = pointer := Option.some.inj hpointer
  exact htokens (by decide)

/-- With its slash the watch can be sampled. -/
theorem watch_sampled_sample :
    ∃ watch, CanBeSampled (statusCrates "/status") none (statusRow "/status")
      pipeFiles.canonicalize watch := by
  have hcreated : ((createStatus "/status").run Db.empty).1 = .ok (statusRow "/status") := by
    decide +kernel
  refine (watch_sampled_iff (statusCrates_hex _) (Prod.ext hcreated rfl) (statusCrates_reads _)
    pipeFiles.canonicalize).mpr ?_
  have hevaluable : Evaluable (statusCrates "/status").toCrates (statusCondition "/status") :=
    ⟨⟨"/status", rfl, by decide⟩,
      ⟨.eq, .number (.posInt 1), rfl, rfl, by decide, fun horders => by cases horders⟩⟩
  have hresolved : nativePath pipeFiles.canonicalize "/srv/status.json" =
      some (asBytes "/srv/status.json".toList) := by decide
  have hpath : (stringText "/srv/status.json").utf8ByteSize = 18 := by decide
  have htext : (canonicalJson (statusCrates "/status").toCrates
      (statusCondition "/status")).utf8ByteSize = 47 := by decide
  have hnative : nativeBytes (some (asBytes "/srv/status.json".toList)) = 34 := by decide
  have hrow : (statusRow "/status").path = "/srv/status.json" := rfl
  have hline : maxWorkerLine = 16384 := rfl
  refine ⟨fun _ => ⟨_, statusRow_condition _, hevaluable, ?_⟩, fun condition hcondition => ?_, ?_,
    ?_, ?_, ?_, fun p _ => ?_⟩
  · rw [htext]
    decide
  · rw [statusRow_condition] at hcondition
    obtain rfl : statusCondition "/status" = condition := Option.some.inj hcondition
    exact hevaluable
  · rw [statusRow_condition]
    decide
  · rw [statusRow_condition, Option.elim_some, hrow, hpath, htext]
    omega
  · intro resolved hpath
    obtain rfl := Option.some.inj (hresolved.symm.trans hpath)
    decide
  · rw [hrow, hpath, hresolved, hnative]
    omega
  · have hresult : (p.elim 0 fun p => 13 + predicateBytes p) ≤ 60 := by
      cases p with
      | none => exact Nat.zero_le _
      | some p => cases p <;> decide
    rw [hrow, hpath, hresolved, hnative]
    omega

end CodexMonitor.Collector
