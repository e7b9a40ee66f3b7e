import Mathlib.Data.List.Basic
import Mathlib.Tactic.Common

/-!
# A backlog served in rounds

A round takes the first items of an ordered backlog and serves them one after the
other.  An item that is passed over in a round had every served item in front of it,
so a count of the items in front falls by the length of the round, and the item is
served before the count can fall below zero.
-/

namespace Backlog

variable {α σ : Type}

/-! ## One round -/

/-- The items of a list served one after the other, the first of them as the `i`-th of its
round. -/
inductive Served (serve : Nat → α → σ → σ → Prop) : Nat → List α → σ → σ → Prop
  | nil (i : Nat) (s : σ) : Served serve i [] s s
  | cons {i : Nat} {a : α} {as : List α} {s t u : σ} (first : serve i a s t)
      (rest : Served serve (i + 1) as t u) : Served serve i (a :: as) s u

section served

variable {serve : Nat → α → σ → σ → Prop} {as bs : List α} {a : α} {s t u : σ} {i : Nat}

theorem Served.of_append (h : Served serve i (as ++ bs) s u) :
    ∃ t, Served serve i as s t ∧ Served serve (i + as.length) bs t u := by
  induction as generalizing i s with
  | nil => exact ⟨s, .nil i s, h⟩
  | cons a as ih =>
      cases h with
      | cons first rest =>
          obtain ⟨t, hleft, hright⟩ := ih rest
          refine ⟨t, .cons first hleft, ?_⟩
          rw [List.length_cons, show i + (as.length + 1) = i + 1 + as.length by omega]
          exact hright

/-- What every served item keeps, told how many were served before it. -/
theorem Served.invariant {P : Nat → σ → Prop} (h : Served serve i as s t)
    (hstep : ∀ j a s t, a ∈ as → i ≤ j → j < i + as.length → serve j a s t → P j s → P (j + 1) t)
    (hs : P i s) : P (i + as.length) t := by
  induction h with
  | nil i s => exact hs
  | @cons i a as s t u first rest ih =>
      have hnext : P (i + 1) t :=
        hstep i a s t List.mem_cons_self (Nat.le_refl i) (by simp) first hs
      have hrest := ih (fun j b s t hb hij hj => hstep j b s t (List.mem_cons_of_mem a hb)
        (by omega) (by rw [List.length_cons]; omega)) hnext
      rw [List.length_cons, show i + (as.length + 1) = i + 1 + as.length by omega]
      exact hrest

end served

/-! ## The order of a round -/

/-- An item of an ordered backlog is in the round behind some of its items, or the whole round is
in front of it. -/
theorem take_cases {le : α → α → Prop} {as : List α} {a : α} (hsorted : as.Pairwise le)
    (ha : a ∈ as) (n : Nat) :
    (∃ front back, as.take n = front ++ a :: back ∧ ∀ b ∈ front, le b a) ∨
      (as.take n).length = n ∧ ∀ b ∈ as.take n, le b a := by
  obtain ⟨front, back, rfl⟩ := List.append_of_mem ha
  have hfront : ∀ b ∈ front, le b a := fun b hb =>
    (List.pairwise_append.mp hsorted).2.2 b hb a List.mem_cons_self
  by_cases hn : front.length < n
  · obtain ⟨d, rfl⟩ := Nat.exists_eq_add_of_lt hn
    refine Or.inl ⟨front, back.take d, ?_, hfront⟩
    rw [List.take_append, List.take_of_length_le (by omega),
      show front.length + d + 1 - front.length = d + 1 by omega, List.take_succ_cons]
  · have htake : (front ++ a :: back).take n = front.take n :=
      List.take_append_of_le_length (by omega)
    refine Or.inr ⟨?_, fun b hb => ?_⟩
    · rw [htake, List.length_take]
      omega
    · rw [htake] at hb
      exact hfront b (List.mem_of_mem_take hb)

/-! ## Rounds -/

section rounds

variable {waits served : Nat → Prop} {rank : Nat → Nat} {n : Nat}

/-- While the item waits, each round has taken `n` of the items in front of it. -/
theorem waits_or_served (h0 : waits 0) {rounds : Nat}
    (hround : ∀ i < rounds, waits i → served (i + 1) ∨ waits (i + 1) ∧ rank (i + 1) + n ≤ rank i)
    (hkeep : ∀ i, served i → served (i + 1)) {i : Nat} (hi : i ≤ rounds) :
    served i ∨ waits i ∧ rank i + i * n ≤ rank 0 := by
  induction i with
  | zero => exact Or.inr ⟨h0, by omega⟩
  | succ i ih =>
      rcases ih (by omega) with hdone | ⟨hwaits, hrank⟩
      · exact Or.inl (hkeep i hdone)
      · rcases hround i (by omega) hwaits with hdone | ⟨hnext, hfalls⟩
        · exact Or.inl hdone
        · refine Or.inr ⟨hnext, ?_⟩
          rw [Nat.succ_mul]
          omega

variable (waits served rank) in
/-- An item with `k` items in front of it is served within `k / n + 1` rounds of `n`. -/
theorem served_within (hn : 0 < n) (h0 : waits 0)
    (hround : ∀ i < rank 0 / n + 1, waits i →
      served (i + 1) ∨ waits (i + 1) ∧ rank (i + 1) + n ≤ rank i)
    (hkeep : ∀ i, served i → served (i + 1)) : served (rank 0 / n + 1) := by
  rcases waits_or_served h0 hround hkeep (Nat.le_refl _) with hdone | ⟨_, hrank⟩
  · exact hdone
  · have hlt : rank 0 < (rank 0 / n + 1) * n := by
      rw [Nat.succ_mul]
      exact Nat.lt_div_mul_add hn
    omega

end rounds

end Backlog
