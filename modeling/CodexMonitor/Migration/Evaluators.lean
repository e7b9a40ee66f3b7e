import CodexMonitor.Migration.Sampler

/-!
# One condition under both evaluators

Both runtimes select by the same pointers and compare by the same rules.  Python compares
numbers exactly; the Rust runtime compares the doubles that `serde_json` makes of them,
and measures the expected value in its own encoding.  So they agree on a condition
exactly when the numbers that meet are equal as doubles when they are equal, or the
operator orders the two doubles as it orders the two numbers.
-/

namespace CodexMonitor

open Collector (WorkerCrates evaluateCondition)

/-! ## Both runtimes on one file -/

/-- The Rust runtime's reader of documents and digest. -/
structure RustWorker where
  serde : Serde
  /-- the grammar of `serde_json::from_slice`, whose numbers are still to be read -/
  grammar : List UInt8 → Option (Tree Literal)
  sha256 : List UInt8 → String

def RustWorker.crates (rust : RustWorker) : WorkerCrates where
  toCrates := rust.serde.crates
  fromSlice bytes := (rust.grammar bytes).bind rust.serde.parse
  sha256 := rust.sha256

/-- The libraries of the two runtimes: `from_str` reads the bytes of a text, a document that both
read is one document, and the digests are the same. -/
structure Corresponds (rust : RustWorker) (python : PythonWorker) : Prop where
  fromStr : ∀ text, rust.serde.crates.fromStr text = rust.crates.fromSlice text.toUTF8.toList
  document : ∀ bytes t u, rust.grammar bytes = some t → python.loads bytes = some u → t = u
  sha256 : rust.sha256 = python.sha256

/-! ## What a condition compares -/

/-- The double that the Rust runtime makes of a number. -/
def Serde.double (serde : Serde) (n : Literal) : Rat :=
  ((serde.number n).map Number.asF64).getD 0

/-- The value that a number has in Python. -/
def Python.exact (python : Python) (n : Literal) : Rat :=
  ((python.number n).map PyNumber.value).getD 0

/-- The operator of a condition, and the values it selects and expects, as they are written. -/
def compared (loads : List UInt8 → Option (Tree Literal)) (text : String) (bytes : List UInt8) :
    Option (Operator × Tree Literal × Tree Literal) := do
  let condition ← (loads text.toUTF8.toList).bind Tree.condition
  let tokens ← pointerTokens condition.pointer
  let document ← loads bytes
  let selected ← document.resolve tokens
  pure (condition.operator, selected, condition.value)

/-- The Rust runtime reads the document and the condition, the expected value is not too long for
it, and the doubles of the numbers compare as the numbers do. -/
structure ReadsAlike (rust : RustWorker) (python : PythonWorker) (text : String)
    (bytes : List UInt8) : Prop where
  document : (rust.crates.fromSlice bytes).isSome = true
  condition : (rust.serde.crates.fromStr text).isSome = true
  expected : ∀ v ∈ rust.serde.crates.fromStr text, ∀ e ∈ v.get "value",
    (canonicalJson rust.serde.crates e).utf8ByteSize ≤ Collector.maxExpectedBytes
  numbers : ∀ operator selected expected,
    compared python.loads text bytes = some (operator, selected, expected) →
      operator.decide (selected.map rust.serde.double) (expected.map rust.serde.double) =
        operator.decide (selected.map python.exact) (expected.map python.exact)

/-- A member of a value is the value of the member. -/
theorem value_get {fields : List (String × Tree Number)} (key : String) :
    (Tree.object fields).value.get key = ((Tree.object fields).child key).map Tree.value := by
  rw [Tree.value, Value.get, Tree.child]
  induction fields with
  | nil => rfl
  | cons field fields ih =>
      obtain ⟨name, item⟩ := field
      rw [valueFields]
      by_cases hkey : name = key
      · simp [hkey]
      · simpa [hkey] using ih

theorem value_getStr {fields : List (String × Tree Number)} (key : String) :
    (Tree.object fields).value.getStr key =
      ((Tree.object fields).child key).bind Tree.asStr := by
  rw [Value.getStr, value_get]
  cases (Tree.object fields).child key with
  | none => rfl
  | some member => cases member <;> rfl

/-- `evaluate_condition` on a condition that has its parts. -/
theorem evaluateCondition_eq {crates : Crates} {fields : List (String × Tree Number)}
    {c : Condition Number} (hc : (Tree.object fields).condition = some c) (document : Value) :
    evaluateCondition crates document (Tree.object fields).value =
      if Collector.maxExpectedBytes < (canonicalJson crates c.value.value).utf8ByteSize then none
      else (pointerTokens c.pointer).bind fun tokens =>
        (document.doubles.resolve tokens).bind fun selected =>
          c.operator.decide selected (c.value.map Number.asF64) := by
  obtain ⟨pointer, hpointer, hmore⟩ := Option.bind_eq_some_iff.mp hc
  obtain ⟨operator, hoperator, hlast⟩ := Option.bind_eq_some_iff.mp hmore
  obtain ⟨value, hvalue, hdone⟩ := Option.bind_eq_some_iff.mp hlast
  obtain rfl := Option.some.inj hdone
  rw [evaluateCondition, value_getStr, value_getStr, value_get, hpointer, hoperator, hvalue,
    ← value_doubles]
  rfl

/-- Only an object has the parts of a condition. -/
theorem condition_object {ν : Type} {t : Tree ν} {c : Condition ν} (h : t.condition = some c) :
    ∃ fields, t = .object fields := by
  cases t with
  | object fields => exact ⟨fields, rfl⟩
  | array items =>
      have hindex : arrayIndex "pointer" = none := by decide
      simp [Tree.condition, Tree.child, hindex] at h
  | _ => cases h

/-! ## Both evaluators on one document -/

section written

variable {serde : Serde} {python : Python} {document condition : Tree Literal}

theorem double_of_number : ∀ n m, serde.number n = some m → m.asF64 = serde.double n := by
  intro n m h
  rw [Serde.double, h]
  rfl

theorem exact_of_number : ∀ n m, python.number n = some m → m.value = python.exact n := by
  intro n m h
  rw [Python.exact, h]
  rfl

/-- A condition that Python accepts has its parts. -/
theorem normalizeCondition_written {read : Tree PyNumber} {c : Condition PyNumber}
    (hread : condition.read python.number = some read)
    (hc : normalizeCondition python read = some c) :
    ∃ value, condition.condition = some ⟨c.pointer, c.operator, value⟩ ∧
      value.read python.number = some c.value := by
  have hparts : read.condition = some c := by
    unfold normalizeCondition at hc
    split at hc
    · obtain ⟨c', hc', hchecks⟩ := Option.bind_eq_some_iff.mp hc
      rw [hc']
      iterate 4
        split at hchecks
        · cases hchecks
      exact hchecks
    · cases hc
  exact condition_read hread hparts

/-- Python compares the numbers. -/
theorem evaluate_written {read : Tree PyNumber} {c : Condition PyNumber} {value : Tree Literal}
    (hread : document.read python.number = some read)
    (hvalue : value.read python.number = some c.value) :
    (evaluate read c).toOption = (pointerTokens c.pointer).bind fun tokens =>
      (document.resolve tokens).bind fun selected =>
        c.operator.decide (selected.map python.exact) (value.map python.exact) := by
  unfold evaluate
  rw [read_map exact_of_number document read hread, read_map exact_of_number value c.value hvalue]
  cases pointerTokens c.pointer with
  | none => rfl
  | some tokens =>
      simp only [Option.bind_some, resolve_map]
      cases document.resolve tokens with
      | none => rfl
      | some selected =>
          simp only [Option.map_some, Option.bind_some]
          cases c.operator.decide (selected.map python.exact) (value.map python.exact) <;> rfl

/-- The text of a value that was read. -/
theorem canonicalJson_read {value : Tree Literal} {read : Tree Number}
    (hread : value.read serde.number = some read) :
    canonicalJson serde.crates read.value = value.text stringText serde.print := by
  rw [canonicalJson_value]
  refine read_text (Number.text serde.crates) (fun n m hn => ?_) value read hread
  rw [Serde.print, hn]
  rfl

/-- The Rust runtime compares the doubles, unless the expected value is too long for it. -/
theorem evaluateCondition_written {d v : Value} {c : Condition Literal}
    (hd : serde.parse document = some d) (hv : serde.parse condition = some v)
    (hc : condition.condition = some c) :
    evaluateCondition serde.crates d v =
      if Collector.maxExpectedBytes < (c.value.text stringText serde.print).utf8ByteSize then none
      else (pointerTokens c.pointer).bind fun tokens =>
        (document.resolve tokens).bind fun selected =>
          c.operator.decide (selected.map serde.double) (c.value.map serde.double) := by
  obtain ⟨u, hu, rfl⟩ := Option.map_eq_some_iff.mp hv
  obtain ⟨value, hvalue, hread⟩ := read_condition hu hc
  obtain ⟨fields, rfl⟩ := condition_object hvalue
  obtain ⟨t, ht, rfl⟩ := Option.map_eq_some_iff.mp hd
  have hdoubles : t.value.doubles = document.map serde.double := by
    rw [value_doubles]
    exact read_map double_of_number document t ht
  rw [evaluateCondition_eq hvalue, hdoubles, canonicalJson_read hread,
    read_map double_of_number c.value value hread]
  dsimp only
  cases pointerTokens c.pointer with
  | none => rfl
  | some tokens =>
      simp only [Option.bind_some, resolve_map]
      cases document.resolve tokens <;> rfl

/-- The numbers of the selected and the expected value that are compared are alike as numbers and as
doubles: for equality, those that meet when the one is laid over the other; for an order, the two.
The expected value is not too long for the Rust runtime, unless there is nothing to order. -/
structure ComparesAlike (serde : Serde) (python : Python) (operator : Operator)
    (selected expected : Tree Literal) : Prop where
  fits : Collector.maxExpectedBytes < (expected.text stringText serde.print).utf8ByteSize →
    operator.orders = true ∧ ∀ a b, ¬ (selected = .number a ∧ expected = .number b)
  equal : (expected.text stringText serde.print).utf8ByteSize ≤ Collector.maxExpectedBytes →
    operator.orders = false → ∀ pairs, selected.pairs expected = some pairs →
      ((∀ p ∈ pairs, serde.double p.1 = serde.double p.2) ↔
        ∀ p ∈ pairs, python.exact p.1 = python.exact p.2)
  ordered : (expected.text stringText serde.print).utf8ByteSize ≤ Collector.maxExpectedBytes →
    operator.orders = true → ∀ a b, selected = .number a → expected = .number b →
      (operator.relates (serde.double a) (serde.double b) ↔
        operator.relates (python.exact a) (python.exact b))

/-- Values compare alike when the Rust runtime, if the expected value fits, makes of the doubles what
Python makes of the numbers. -/
theorem comparesAlike_iff {operator : Operator} {selected expected : Tree Literal} :
    ComparesAlike serde python operator selected expected ↔
      (if Collector.maxExpectedBytes < (expected.text stringText serde.print).utf8ByteSize then none
      else operator.decide (selected.map serde.double) (expected.map serde.double)) =
        operator.decide (selected.map python.exact) (expected.map python.exact) := by
  by_cases hlong : Collector.maxExpectedBytes <
      (expected.text stringText serde.print).utf8ByteSize
  · rw [if_pos hlong, eq_comm, decide_map_none]
    exact ⟨fun h => h.fits hlong, fun h => ⟨fun _ => h, fun hshort => by omega,
      fun hshort => by omega⟩⟩
  · rw [if_neg hlong, decide_map_eq_iff]
    have hshort : (expected.text stringText serde.print).utf8ByteSize ≤
        Collector.maxExpectedBytes := by omega
    exact ⟨fun h => ⟨h.equal hshort, h.ordered hshort⟩,
      fun h => ⟨fun h' => absurd h' hlong, fun _ => h.1, fun _ => h.2⟩⟩

/-- **Where the evaluators agree.**  For every document and every condition that Python accepts,
both runtimes decide it alike, or neither does, exactly when the value it selects, if there is one,
and the expected one compare alike. -/
theorem evaluators_agree_iff (serde : Serde) (python : Python) (document condition : Tree Literal)
    (d v : Value) (read written : Tree PyNumber) (c : Condition PyNumber)
    (hd : serde.parse document = some d) (hv : serde.parse condition = some v)
    (hread : python.parse document = some read) (hwritten : python.parse condition = some written)
    (hc : normalizeCondition python written = some c) :
    evaluateCondition serde.crates d v = (evaluate read c).toOption ↔
      ∀ parts tokens selected, condition.condition = some parts →
        pointerTokens parts.pointer = some tokens → document.resolve tokens = some selected →
          ComparesAlike serde python parts.operator selected parts.value := by
  obtain ⟨value, hparts, hvalue⟩ := normalizeCondition_written hwritten hc
  rw [evaluateCondition_written hd hv hparts, evaluate_written hread hvalue]
  dsimp only
  constructor
  · intro hsame parts tokens selected hcondition htokens hselected
    rw [hparts] at hcondition
    obtain rfl := Option.some.inj hcondition
    dsimp only at htokens ⊢
    rw [htokens] at hsame
    simp only [Option.bind_some, hselected] at hsame
    exact comparesAlike_iff.mpr hsame
  · intro hcompare
    cases htokens : pointerTokens c.pointer with
    | none => simp
    | some tokens =>
        cases hselected : document.resolve tokens with
        | none => simp [hselected]
        | some selected =>
            have halike := comparesAlike_iff.mp (hcompare _ tokens selected hparts htokens hselected)
            dsimp only at halike
            simpa only [Option.bind_some, hselected] using halike

end written

section compare

variable {rust : RustWorker} {python : PythonWorker} {text : String} {bytes : List UInt8}

/-- What Python decides it decides of the numbers' values. -/
theorem compared_of_evaluate {c : Condition PyNumber} {t : Tree Literal}
    {document : Tree PyNumber} {matched : Bool} (hc : loadCondition python text = some c)
    (ht : python.loads bytes = some t) (hread : t.read python.number = some document)
    (hmatched : evaluate document c = .ok matched) :
    ∃ operator selected expected,
      compared python.loads text bytes = some (operator, selected, expected) ∧
        operator.decide (selected.map python.exact) (expected.map python.exact) =
          some matched := by
  obtain ⟨written, hwritten, hmore⟩ := Option.bind_eq_some_iff.mp hc
  obtain ⟨condition, hcondition, hnormal⟩ := Option.bind_eq_some_iff.mp hmore
  obtain ⟨expected, hexpected, hvalue⟩ := normalizeCondition_written hcondition hnormal
  have hdecided := evaluate_written hread hvalue
  rw [hmatched, Except.toOption] at hdecided
  obtain ⟨tokens, htokens, hselect⟩ := Option.bind_eq_some_iff.mp hdecided.symm
  obtain ⟨selected, hselected, hdecide⟩ := Option.bind_eq_some_iff.mp hselect
  refine ⟨c.operator, selected, expected, ?_, hdecide⟩
  rw [compared, hwritten]
  simp [hexpected, htokens, ht, hselected]

/-- What the Rust runtime evaluates is the doubles of the numbers that Python compares. -/
theorem evaluateCondition_compared (hlaw : Corresponds rust python) {operator : Operator}
    {selected expected : Tree Literal}
    (h : compared python.loads text bytes = some (operator, selected, expected))
    {condition document : Value} (hcondition : rust.serde.crates.fromStr text = some condition)
    (hdocument : rust.crates.fromSlice bytes = some document) :
    ∃ e, condition.get "value" = some e ∧
      evaluateCondition rust.serde.crates document condition =
        if Collector.maxExpectedBytes < (canonicalJson rust.serde.crates e).utf8ByteSize then none
        else operator.decide (selected.map rust.serde.double) (expected.map rust.serde.double) := by
  obtain ⟨c, hc, hmore⟩ := Option.bind_eq_some_iff.mp h
  obtain ⟨written, hwritten, hparts⟩ := Option.bind_eq_some_iff.mp hc
  obtain ⟨tokens, htokens, hloads⟩ := Option.bind_eq_some_iff.mp hmore
  obtain ⟨t, ht, hselect⟩ := Option.bind_eq_some_iff.mp hloads
  obtain ⟨s, hs, hdone⟩ := Option.bind_eq_some_iff.mp hselect
  obtain ⟨rfl, rfl, rfl⟩ : c.operator = operator ∧ s = selected ∧ c.value = expected := by
    simpa using Option.some.inj hdone
  rw [hlaw.fromStr] at hcondition
  obtain ⟨written', hgrammar, hparse⟩ := Option.bind_eq_some_iff.mp hcondition
  obtain rfl := hlaw.document _ _ _ hgrammar hwritten
  obtain ⟨t', hgrammar', hparse'⟩ := Option.bind_eq_some_iff.mp hdocument
  obtain rfl := hlaw.document _ _ _ hgrammar' ht
  have heval := evaluateCondition_written hparse' hparse hparts
  rw [htokens] at heval
  simp only [Option.bind_some, hs] at heval
  -- the expected value of the condition that was read
  obtain ⟨u, hu, rfl⟩ := Option.map_eq_some_iff.mp hparse
  obtain ⟨value, hvalue, hread⟩ := read_condition hu hparts
  obtain ⟨fields, rfl⟩ := condition_object hvalue
  refine ⟨value.value, ?_, ?_⟩
  · obtain ⟨pointer, _, hmore⟩ := Option.bind_eq_some_iff.mp hvalue
    obtain ⟨op, _, hlast⟩ := Option.bind_eq_some_iff.mp hmore
    obtain ⟨a, ha, hsame⟩ := Option.bind_eq_some_iff.mp hlast
    obtain ⟨_, _, rfl⟩ : pointer = c.pointer ∧ op = c.operator ∧ a = value := by
      simpa using Option.some.inj hsame
    rw [value_get, ha, Option.map_some]
  · rw [canonicalJson_read hread]
    exact heval

/-- When Python decides a condition, the Rust runtime decides it alike exactly when it reads the
same. -/
theorem decides_iff (hlaw : Corresponds rust python) {c : Condition PyNumber} {t : Tree Literal}
    {document : Tree PyNumber} {matched : Bool} (hc : loadCondition python text = some c)
    (ht : python.loads bytes = some t) (hread : t.read python.number = some document)
    (hmatched : evaluate document c = .ok matched) :
    (∃ condition document, rust.serde.crates.fromStr text = some condition ∧
      rust.crates.fromSlice bytes = some document ∧
        evaluateCondition rust.serde.crates document condition = some matched) ↔
      ReadsAlike rust python text bytes := by
  obtain ⟨operator, selected, expected, hcompared, hexact⟩ :=
    compared_of_evaluate hc ht hread hmatched
  constructor
  · intro hrust
    obtain ⟨condition, document, hcondition, hdocument, hresult⟩ := hrust
    obtain ⟨e, he, heval⟩ := evaluateCondition_compared hlaw hcompared hcondition hdocument
    rw [heval] at hresult
    split at hresult
    · cases hresult
    rename_i hsize
    refine ⟨by rw [hdocument]; rfl, by rw [hcondition]; rfl, ?_, ?_⟩
    · intro v hv e' he'
      rw [hcondition] at hv
      obtain rfl := Option.some.inj hv
      rw [he] at he'
      obtain rfl := Option.some.inj he'
      omega
    · intro o s x hsame
      rw [hcompared] at hsame
      obtain ⟨rfl, rfl, rfl⟩ : operator = o ∧ selected = s ∧ expected = x := by
        simpa using Option.some.inj hsame
      rw [hresult, hexact]
  · intro hreads
    obtain ⟨condition, hcondition⟩ := Option.isSome_iff_exists.mp hreads.condition
    obtain ⟨document, hdocument⟩ := Option.isSome_iff_exists.mp hreads.document
    obtain ⟨e, he, heval⟩ := evaluateCondition_compared hlaw hcompared hcondition hdocument
    have hsize := hreads.expected condition hcondition e he
    refine ⟨condition, document, hcondition, hdocument, ?_⟩
    rw [heval, if_neg (by omega), hreads.numbers operator selected expected hcompared, hexact]

end compare

/-! ## Integers that are doubles -/

/-- An integer below `2 ^ 53` in magnitude. -/
def Literal.Small : Literal → Prop
  | .integer _ n => n < 2 ^ 53
  | .decimal _ => False

/-- Both runtimes give a small integer its value. -/
theorem double_eq_exact {serde : Serde} {python : Python} {n : Literal} (h : n.Small) :
    serde.double n = python.exact n := by
  cases n with
  | decimal text => exact h.elim
  | integer negative n =>
      have hsmall : n < 2 ^ 53 := h
      cases negative with
      | false =>
          have hfits : n < 2 ^ 64 := by omega
          have hnat : (UInt64.ofNat n).toNat = n := UInt64.toNat_ofNat_of_lt' hfits
          simp only [Serde.double, Python.exact, Serde.number, Python.number, if_pos hfits,
            Option.map_some, Option.getD_some, Number.asF64, PyNumber.value, hnat,
            nearestDouble_small hsmall]
          simp
      | true =>
          by_cases hzero : n = 0
          · subst hzero
            simp [Serde.double, Python.exact, Serde.number, Python.number, Number.asF64,
              PyNumber.value]
            decide +kernel
          · have hfits : n ≤ 2 ^ 63 := by omega
            have hint : (Int64.ofInt (-n)).toInt.natAbs = n := by
              rw [Int64.toInt_ofInt_of_le (by omega) (by omega)]
              omega
            simp only [Serde.double, Python.exact, Serde.number, Python.number, if_neg hzero,
              if_pos hfits, Option.map_some, Option.getD_some, Number.asF64, PyNumber.value, hint,
              nearestDouble_small hsmall]
            simp

/-- Small integers compare alike. -/
theorem decide_of_small {serde : Serde} {python : Python} {selected expected : Tree Literal}
    (hselected : ∀ n ∈ selected.numbers, n.Small) (hexpected : ∀ n ∈ expected.numbers, n.Small)
    (operator : Operator) :
    operator.decide (selected.map serde.double) (expected.map serde.double) =
      operator.decide (selected.map python.exact) (expected.map python.exact) := by
  have hsame : ∀ n : Literal, n.Small → serde.double n = python.exact n := fun n hn =>
    double_eq_exact hn
  rw [map_congr selected fun n hn => hsame n (hselected n hn),
    map_congr expected fun n hn => hsame n (hexpected n hn)]

/-! ## A condition on an integer -/

/-- The document is compared with a number. -/
def comparison {ν : Type} (operator : String) (n : ν) : Tree ν :=
  .object [("operator", .string operator), ("pointer", .string ""), ("value", .number n)]

/-- Both evaluators find three greater than two. -/
theorem evaluators_agree_sample :
    evaluateCondition sampleSerde.crates (.number (.posInt 3))
        (comparison "gt" (.posInt 2)).value =
      (evaluate (.number (.int 3)) ⟨"", .gt, .number (.int 2)⟩).toOption := by
  have hnormal : normalizeCondition samplePython (comparison "gt" (.int 2)) =
      some ⟨"", .gt, .number (.int 2)⟩ := rfl
  refine (evaluators_agree_iff sampleSerde samplePython (.number (.integer false 3))
    (comparison "gt" (.integer false 2)) (.number (.posInt 3)) (comparison "gt" (.posInt 2)).value
    (.number (.int 3)) (comparison "gt" (.int 2)) ⟨"", .gt, .number (.int 2)⟩ rfl rfl rfl rfl
    hnormal).mpr ?_
  intro parts tokens selected hparts htokens hselected
  obtain rfl : (⟨"", .gt, .number (.integer false 2)⟩ : Condition Literal) = parts :=
    Option.some.inj hparts
  obtain rfl : [] = tokens := Option.some.inj htokens
  obtain rfl : Tree.number (Literal.integer false 3) = selected := Option.some.inj hselected
  have hsmall : ∀ k < 4, ∀ n ∈ (Tree.number (Literal.integer false k)).numbers, n.Small := by
    intro k hk n hn
    obtain rfl := List.mem_singleton.mp hn
    show k < 2 ^ 53
    omega
  have hfits : ((Tree.number (Literal.integer false 2)).text stringText
      sampleSerde.print).utf8ByteSize ≤ Collector.maxExpectedBytes := by
    decide
  refine comparesAlike_iff.mpr ?_
  rw [if_neg (Nat.not_lt_of_le hfits)]
  exact decide_of_small (hsmall 3 (by omega)) (hsmall 2 (by omega)) .gt

/-- The integers next to each other above `2 ^ 53` are equal as doubles. -/
theorem evaluators_agree_fails :
    ¬ ∀ (serde : Serde) (python : Python) (document condition : Tree Literal) (d v : Value)
        (read written : Tree PyNumber) (c : Condition PyNumber),
      serde.parse document = some d → serde.parse condition = some v →
      python.parse document = some read → python.parse condition = some written →
      normalizeCondition python written = some c →
        evaluateCondition serde.crates d v = (evaluate read c).toOption := by
  intro h
  have hnormal : normalizeCondition samplePython (comparison "eq" (.int (2 ^ 53))) =
      some ⟨"", .eq, .number (.int (2 ^ 53))⟩ := rfl
  have hsame := h sampleSerde samplePython (.number (.integer false (2 ^ 53 + 1)))
    (comparison "eq" (.integer false (2 ^ 53))) (.number (.posInt (2 ^ 53 + 1)))
    (comparison "eq" (.posInt (2 ^ 53))).value (.number (.int (2 ^ 53 + 1)))
    (comparison "eq" (.int (2 ^ 53))) ⟨"", .eq, .number (.int (2 ^ 53))⟩ rfl rfl rfl rfl hnormal
  revert hsame
  decide

end CodexMonitor
