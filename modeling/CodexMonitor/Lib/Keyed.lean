import CodexMonitor.Lib.Dict

/-!
# One machine for each key

A machine reads an input, knows the entry it kept after the input before, and may
report something.  `advance` gives each key of a dictionary of inputs to a machine
of its own and forgets the entry of every other key.  What it keeps and reports for
a key is then what that machine alone would keep and report on the inputs of the
key, whatever the other keys do.
-/

/-- A machine: the entry it had, if any, and an input give the next entry and a report. -/
abbrev Machine (ε ω ν : Type) := Option ε → ω → ε × Option ν

namespace Machine

variable {κ ε ω ν : Type} (m : Machine ε ω ν)

/-- One turn of the machine; without an input it forgets its entry. -/
def step (entry : Option ε) : Option ω → Option ε × Option ν
  | none => (none, none)
  | some input => (some (m entry input).1, (m entry input).2)

/-- The entry before the input of a number. -/
def entry (inputs : Nat → Option ω) : Nat → Option ε
  | 0 => none
  | n + 1 => (m.step (entry inputs n) (inputs n)).1

/-- The report on the input of a number. -/
def report (inputs : Nat → Option ω) (n : Nat) : Option ν :=
  (m.step (m.entry inputs n) (inputs n)).2

/-- There is an input at each of the numbers from one on and before another. -/
def Stays (inputs : Nat → Option ω) (i j : Nat) : Prop :=
  ∀ l, i ≤ l → l < j → (inputs l).isSome

section single

variable {m} {inputs others : Nat → Option ω} {n : Nat}

theorem entry_congr (h : ∀ i < n, inputs i = others i) : m.entry inputs n = m.entry others n := by
  induction n with
  | zero => rfl
  | succ n ih =>
      have hbefore := ih fun i hi => h i (by omega)
      simp only [entry, hbefore, h n (by omega)]

/-- A report depends on the inputs up to its own only. -/
theorem report_congr (h : ∀ i ≤ n, inputs i = others i) :
    m.report inputs n = m.report others n := by
  have hentry : m.entry inputs n = m.entry others n :=
    entry_congr fun i hi => h i (by omega)
  simp only [report, hentry, h n (by omega)]

theorem stays_succ_iff {i j : Nat} (h : i ≤ j) :
    Stays inputs i (j + 1) ↔ Stays inputs i j ∧ (inputs j).isSome := by
  constructor
  · intro hstays
    exact ⟨fun l hi hl => hstays l hi (by omega), hstays j h (by omega)⟩
  · intro hstays l hi hl
    by_cases hlast : l = j
    · rw [hlast]
      exact hstays.2
    · exact hstays.1 l hi (by omega)

/-- A report answers an input. -/
theorem input_of_report {r : ν} (h : m.report inputs n = some r) : ∃ w, inputs n = some w := by
  cases hinput : inputs n with
  | none => simp [report, step, hinput] at h
  | some w => exact ⟨w, rfl⟩

end single

/-! ## A machine for each key -/

section keyed

variable [DecidableEq κ]

/-- Give every input to the machine of its key, one after the other. -/
def feed (entries : Dict κ ε) : List (κ × ω) → Dict κ ε × List (κ × ν)
  | [] => (entries, [])
  | (k, w) :: inputs =>
      let turn := m (entries.get k) w
      let rest := feed (entries.set k turn.1) inputs
      (rest.1, turn.2.toList.map (fun r => (k, r)) ++ rest.2)

/-- Forget the keys without an input, then give every input to the machine of its key. -/
def advance (entries : Dict κ ε) (inputs : Dict κ ω) : Dict κ ε × List (κ × ν) :=
  m.feed (entries.retain fun k => (inputs.get k).isSome) inputs.entries

/-- The entries before the inputs of a number. -/
def entries (inputs : Nat → Dict κ ω) : Nat → Dict κ ε
  | 0 => ∅
  | n + 1 => (m.advance (entries inputs n) (inputs n)).1

/-- The reports for a key. -/
def reportsOf (k : κ) (reports : List (κ × ν)) : List ν :=
  reports.filterMap fun r => if r.1 = k then some r.2 else none

variable {m} {k : κ}

theorem reportsOf_append (reports others : List (κ × ν)) :
    reportsOf k (reports ++ others) = reportsOf k reports ++ reportsOf k others :=
  List.filterMap_append

theorem reportsOf_self (r : Option ν) : reportsOf k (r.toList.map fun r => (k, r)) = r.toList := by
  cases r <;> simp [reportsOf]

theorem reportsOf_ne {j : κ} (h : j ≠ k) (r : Option ν) :
    reportsOf k (r.toList.map fun r => (j, r)) = [] := by
  cases r <;> simp [reportsOf, h]

theorem mem_reportsOf {reports : List (κ × ν)} {r : ν} :
    r ∈ reportsOf k reports ↔ (k, r) ∈ reports := by
  unfold reportsOf
  rw [List.mem_filterMap]
  constructor
  · intro h
    obtain ⟨⟨j, s⟩, hmem, heq⟩ := h
    by_cases hkey : j = k
    · simp_all
    · simp [hkey] at heq
  · intro h
    exact ⟨(k, r), h, by simp⟩

/-- A key that is not fed keeps its entry and reports nothing. -/
theorem feed_absent (inputs : List (κ × ω)) (entries : Dict κ ε)
    (h : k ∉ inputs.map Prod.fst) :
    (m.feed entries inputs).1.get k = entries.get k ∧
      reportsOf k (m.feed entries inputs).2 = [] := by
  induction inputs generalizing entries with
  | nil => exact ⟨rfl, rfl⟩
  | cons input inputs ih =>
      have hne : input.1 ≠ k := fun heq => h (heq ▸ List.mem_cons_self)
      have hrest : k ∉ inputs.map Prod.fst := fun hmem => h (List.mem_cons_of_mem _ hmem)
      obtain ⟨hget, hreports⟩ := ih (entries.set input.1 (m (entries.get input.1) input.2).1) hrest
      constructor
      · rw [Dict.get_set_ne hne.symm] at hget
        exact hget
      · show reportsOf k (_ ++ _) = []
        rw [reportsOf_append, reportsOf_ne hne, hreports]
        rfl

/-- A key that is fed once takes one turn. -/
theorem feed_present (inputs : List (κ × ω)) (entries : Dict κ ε) {w : ω}
    (hnodup : (inputs.map Prod.fst).Nodup) (h : (k, w) ∈ inputs) :
    (m.feed entries inputs).1.get k = some (m (entries.get k) w).1 ∧
      reportsOf k (m.feed entries inputs).2 = (m (entries.get k) w).2.toList := by
  induction inputs generalizing entries with
  | nil => cases h
  | cons input inputs ih =>
      rw [List.map_cons, List.nodup_cons] at hnodup
      rcases List.mem_cons.mp h with heq | hmem
      · subst heq
        obtain ⟨hget, hreports⟩ := feed_absent (m := m) inputs
          (entries.set k (m (entries.get k) w).1) hnodup.1
        constructor
        · rw [Dict.get_set_self] at hget
          exact hget
        · show reportsOf k (_ ++ _) = _
          rw [reportsOf_append, reportsOf_self, hreports, List.append_nil]
      · have hne : input.1 ≠ k := fun heq =>
          hnodup.1 (heq ▸ List.mem_map.mpr ⟨(k, w), hmem, rfl⟩)
        obtain ⟨hget, hreports⟩ := ih
          (entries.set input.1 (m (entries.get input.1) input.2).1) hnodup.2 hmem
        rw [Dict.get_set_ne hne.symm] at hget hreports
        constructor
        · exact hget
        · show reportsOf k (_ ++ _) = _
          rw [reportsOf_append, reportsOf_ne hne, hreports, List.nil_append]

/-- What `advance` keeps and reports for a key is one turn of its machine. -/
theorem advance_step (entries : Dict κ ε) (inputs : Dict κ ω) :
    (m.advance entries inputs).1.get k = (m.step (entries.get k) (inputs.get k)).1 ∧
      reportsOf k (m.advance entries inputs).2 =
        (m.step (entries.get k) (inputs.get k)).2.toList := by
  unfold advance
  have hkept : (entries.retain fun k => (inputs.get k).isSome).get k =
      if (inputs.get k).isSome then entries.get k else none := Dict.get_retain
  cases hinput : inputs.get k with
  | none =>
      have hkeys : k ∉ inputs.entries.map Prod.fst := Dict.get_eq_none.mp hinput
      obtain ⟨hget, hreports⟩ := feed_absent (m := m) inputs.entries
        (entries.retain fun k => (inputs.get k).isSome) hkeys
      rw [hkept, hinput] at hget
      exact ⟨hget, hreports⟩
  | some w =>
      have hmem := Dict.get_eq_some.mp hinput
      obtain ⟨hget, hreports⟩ := feed_present (m := m) inputs.entries
        (entries.retain fun k => (inputs.get k).isSome) inputs.nodup hmem
      rw [hkept, hinput] at hget hreports
      exact ⟨hget, hreports⟩

/-- Along a run the entry of a key is the entry of a machine that reads its inputs alone. -/
theorem entries_get (inputs : Nat → Dict κ ω) (n : Nat) :
    (m.entries inputs n).get k = m.entry (fun i => (inputs i).get k) n := by
  induction n with
  | zero => rfl
  | succ n ih =>
      show (m.advance (m.entries inputs n) (inputs n)).1.get k = _
      rw [(advance_step _ _).1, ih]
      rfl

/-- Along a run the reports for a key are those of a machine that reads its inputs alone. -/
theorem reports_eq (inputs : Nat → Dict κ ω) (n : Nat) :
    reportsOf k (m.advance (m.entries inputs n) (inputs n)).2 =
      (m.report (fun i => (inputs i).get k) n).toList := by
  rw [(advance_step _ _).2, entries_get]
  rfl

end keyed

end Machine
