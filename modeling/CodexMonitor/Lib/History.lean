import Mathlib.Data.List.Induction
import Mathlib.Tactic.Common

/-!
# Histories

A history is a list of entries that a run only ever appends to.  `Always` says that
every entry meets a condition on itself and on what came before it; `Since` says that
some entry started something that every entry from it on keeps going.  Both are
decided by looking at the history, and both are proved one entry at a time.
-/

namespace History

variable {α : Type} {xs ys : List α} {x : α} {P : List α → α → Prop} {start keeps : α → Prop}

/-- Every entry meets `P`, given the entries before it. -/
def Always (P : List α → α → Prop) (xs : List α) : Prop :=
  ∀ k : Fin xs.length, P (xs.take k) (xs.get k)

/-- Some entry starts, and every entry from it on keeps. -/
def Since (start keeps : α → Prop) (xs : List α) : Prop :=
  ∃ k : Fin xs.length, start (xs.get k) ∧ ∀ x ∈ xs.drop k, keeps x

instance [∀ past x, Decidable (P past x)] : Decidable (Always P xs) :=
  inferInstanceAs (Decidable (∀ _, _))

instance [DecidablePred start] [DecidablePred keeps] : Decidable (Since start keeps xs) :=
  inferInstanceAs (Decidable (∃ _, _))

/-! ## Always -/

theorem always_nil : Always P [] := fun k => k.elim0

theorem always_concat : Always P (xs ++ [x]) ↔ Always P xs ∧ P xs x := by
  constructor
  · intro h
    refine ⟨fun k => ?_, ?_⟩
    · have hk : k.val < (xs ++ [x]).length := by
        rw [List.length_append]
        exact Nat.lt_add_right 1 k.isLt
      have hentry := h ⟨k, hk⟩
      rw [List.take_append_of_le_length (Nat.le_of_lt k.isLt)] at hentry
      simpa [List.getElem_append_left k.isLt] using hentry
    · have hlast := h ⟨xs.length, by simp⟩
      simpa using hlast
  · rintro ⟨h, hx⟩ ⟨k, hk⟩
    rw [List.length_append, List.length_singleton] at hk
    rcases Nat.lt_succ_iff_lt_or_eq.mp hk with hlt | rfl
    · have hentry := h ⟨k, hlt⟩
      rw [List.take_append_of_le_length (Nat.le_of_lt hlt)]
      simpa [List.getElem_append_left hlt] using hentry
    · simpa using hx

/-- Entries that meet `P` after any history. -/
theorem Always.append (h : Always P xs) (hys : ∀ y ∈ ys, ∀ past, P past y) :
    Always P (xs ++ ys) := by
  induction ys generalizing xs with
  | nil => rwa [List.append_nil]
  | cons y ys ih =>
      rw [List.append_cons]
      refine ih (always_concat.mpr ⟨h, hys y List.mem_cons_self xs⟩) fun z hz => ?_
      exact hys z (List.mem_cons_of_mem y hz)

/-- An entry and what came before it. -/
theorem Always.of_split (h : Always P xs) {past rest : List α} (hxs : xs = past ++ x :: rest) :
    P past x := by
  subst hxs
  have hentry := h ⟨past.length, by simp⟩
  simpa using hentry

/-! ## Since -/

theorem not_since_nil : ¬ Since start keeps [] := fun ⟨k, _⟩ => k.elim0

theorem since_iff : Since start keeps xs ↔
    ∃ before x after, xs = before ++ x :: after ∧ start x ∧ ∀ y ∈ x :: after, keeps y := by
  constructor
  · rintro ⟨k, hstart, hkeeps⟩
    have hdrop : xs.drop k = xs.get k :: xs.drop (k + 1) := List.drop_eq_getElem_cons k.isLt
    refine ⟨xs.take k, xs.get k, xs.drop (k + 1), ?_, hstart, ?_⟩
    · rw [← hdrop, List.take_append_drop]
    · rw [← hdrop]
      exact hkeeps
  · rintro ⟨before, x, after, rfl, hstart, hkeeps⟩
    refine ⟨⟨before.length, by simp⟩, by simpa using hstart, ?_⟩
    simpa using hkeeps

theorem since_concat : Since start keeps (xs ++ [x]) ↔
    keeps x ∧ (start x ∨ Since start keeps xs) := by
  simp only [since_iff]
  constructor
  · rintro ⟨before, y, after, heq, hstart, hkeeps⟩
    rcases List.eq_nil_or_concat after with rfl | ⟨after, z, rfl⟩
    · obtain ⟨_, hxy⟩ := List.append_inj' heq rfl
      obtain rfl : x = y := List.singleton_inj.mp hxy
      exact ⟨hkeeps x List.mem_cons_self, Or.inl hstart⟩
    · rw [List.concat_eq_append, ← List.cons_append, ← List.append_assoc] at heq
      rw [List.concat_eq_append] at hkeeps
      obtain ⟨hxs, hxz⟩ := List.append_inj' heq rfl
      obtain rfl : x = z := List.singleton_inj.mp hxz
      refine ⟨hkeeps x (by simp), Or.inr ⟨before, y, after, hxs, hstart, fun w hw => ?_⟩⟩
      refine hkeeps w ?_
      rw [← List.cons_append]
      exact List.mem_append_left _ hw
  · rintro ⟨hx, hstart | ⟨before, y, after, rfl, hstart, hkeeps⟩⟩
    · refine ⟨xs, x, [], rfl, hstart, fun w hw => ?_⟩
      rw [List.mem_singleton.mp hw]
      exact hx
    · refine ⟨before, y, after ++ [x], by simp, hstart, fun w hw => ?_⟩
      rw [← List.cons_append, List.mem_append] at hw
      rcases hw with hw | hw
      · exact hkeeps w hw
      · rw [List.mem_singleton.mp hw]
        exact hx

theorem Since.concat (h : Since start keeps xs) (hx : keeps x) : Since start keeps (xs ++ [x]) :=
  since_concat.mpr ⟨hx, Or.inr h⟩

/-- Entries that keep what goes on keep it going. -/
theorem Since.append (h : Since start keeps xs) (hys : ∀ y ∈ ys, keeps y) :
    Since start keeps (xs ++ ys) := by
  induction ys generalizing xs with
  | nil => rwa [List.append_nil]
  | cons y ys ih =>
      rw [List.append_cons]
      exact ih (h.concat (hys y List.mem_cons_self)) fun z hz => hys z (List.mem_cons_of_mem y hz)

/-- An entry that keeps nothing ends what went on. -/
theorem not_since_concat (hx : ¬ keeps x) : ¬ Since start keeps (xs ++ [x]) :=
  fun h => hx (since_concat.mp h).1

/-- What goes on over entries that start nothing went on before them. -/
theorem Since.of_append (h : Since start keeps (xs ++ ys)) (hys : ∀ y ∈ ys, ¬ start y) :
    Since start keeps xs := by
  induction ys using List.reverseRecOn with
  | nil => rwa [List.append_nil] at h
  | append_singleton ys y ih =>
      rw [← List.append_assoc, since_concat] at h
      rcases h.2 with hstart | h
      · exact absurd hstart (hys y (by simp))
      · exact ih h fun z hz => hys z (List.mem_append_left _ hz)

/-- Entries that start nothing keep what goes on after them. -/
theorem Since.keeps_of_append (h : Since start keeps (xs ++ ys)) (hys : ∀ y ∈ ys, ¬ start y) :
    ∀ y ∈ ys, keeps y := by
  induction ys using List.reverseRecOn with
  | nil => exact fun _ hy => absurd hy List.not_mem_nil
  | append_singleton ys y ih =>
      rw [← List.append_assoc, since_concat] at h
      have hys' : ∀ z ∈ ys, ¬ start z := fun z hz => hys z (List.mem_append_left _ hz)
      intro z hz
      rcases List.mem_append.mp hz with hz | hz
      · rcases h.2 with hstart | h
        · exact absurd hstart (hys y (by simp))
        · exact ih h hys' z hz
      · rw [List.mem_singleton.mp hz]
        exact h.1

theorem Since.mono {start' keeps' : α → Prop} (h : Since start keeps xs)
    (hstart : ∀ x, start x → start' x) (hkeeps : ∀ x, keeps x → keeps' x) :
    Since start' keeps' xs := by
  obtain ⟨k, hk, hkept⟩ := h
  exact ⟨k, hstart _ hk, fun x hx => hkeeps x (hkept x hx)⟩

end History
