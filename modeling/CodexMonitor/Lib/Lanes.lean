import Mathlib.Logic.Relation
import Mathlib.Order.Lattice
import Mathlib.Tactic.Common

/-!
# Lanes of numbered jobs

Jobs carry numbers from a linear order and stand on lanes.  A job waits, is in
flight, or is settled: done, or dropped.  The rules of a step are about one job at
a time: a job may start only when every earlier job of its lane is settled, may go
back to waiting, is done only out of flight, may be dropped unless it is done, and
never leaves a settled phase; new jobs get numbers above every number in use.

Nothing else is assumed: any number of jobs may move in one step, a started job
may stay in flight for ever, and a waiting job may be passed over for ever.  The
results are the first-in-first-out facts that follow from the rules alone.
-/

namespace Lanes

/-- Where a job stands. -/
inductive Phase
  | waiting | inFlight | done | dropped
deriving DecidableEq, Repr

namespace Phase

/-- Done or dropped: nothing is left to do. -/
def Settled : Phase → Prop
  | done | dropped => True
  | waiting | inFlight => False

/-- In flight or done: the job was started and not taken back. -/
def Started : Phase → Prop
  | inFlight | done => True
  | waiting | dropped => False

end Phase

variable {ι κ : Type*} [LinearOrder ι]

/-- The jobs there are, each with its lane and its phase. -/
abbrev State (ι κ : Type*) : Type _ := ι → Option (κ × Phase)

/-- Every job of the lane below `i` is settled. -/
def Clear (s : State ι κ) (lane : κ) (i : ι) : Prop :=
  ∀ j < i, ∀ p, s j = some (lane, p) → p.Settled

/-- The moves of one job. -/
inductive Moves (s : State ι κ) (lane : κ) (i : ι) : Phase → Phase → Prop
  | stay (p : Phase) : Moves s lane i p p
  | start (clear : Clear s lane i) : Moves s lane i .waiting .inFlight
  | back : Moves s lane i .inFlight .waiting
  | finish : Moves s lane i .inFlight .done
  | drop {p : Phase} (hp : p ≠ .done) : Moves s lane i p .dropped

/-- One step: every job moves by the rules, and what is new comes last. -/
structure Step (s t : State ι κ) : Prop where
  moves : ∀ i lane p, s i = some (lane, p) → ∃ q, t i = some (lane, q) ∧ Moves s lane i p q
  arrivals : ∀ i lane p, s i = none → t i = some (lane, p) →
    ¬ p.Started ∧ ∀ j, s j ≠ none → j < i

/-- Any number of steps. -/
abbrev Run (s t : State ι κ) : Prop := Relation.ReflTransGen Step s t

/-- A job that was started has everything earlier on its lane settled. -/
def Ordered (s : State ι κ) : Prop :=
  ∀ i lane p, s i = some (lane, p) → p.Started → Clear s lane i

variable {s t : State ι κ} {lane : κ} {i j : ι} {p q : Phase}

/-! ## One step -/

theorem Moves.settled (h : Moves s lane i p q) (hp : p.Settled) : q.Settled := by
  cases h with
  | stay => exact hp
  | start => exact hp.elim
  | back => exact hp.elim
  | finish => trivial
  | drop => trivial

/-- Done is for ever. -/
theorem Moves.done (h : Moves s lane i .done q) : q = .done := by
  cases h with
  | stay => rfl
  | drop hp => exact absurd rfl hp

/-- A cleared number stays cleared once it is in use: what is new comes after it. -/
theorem Step.clear (h : Step s t) (hi : s i ≠ none) (hclear : Clear s lane i) :
    Clear t lane i := by
  intro j hj p hp
  cases hs : s j with
  | none =>
      have hlater := (h.arrivals j lane p hs hp).2 i hi
      exact absurd hlater (lt_asymm hj)
  | some job =>
      obtain ⟨lane', p'⟩ := job
      obtain ⟨q, hq, hmove⟩ := h.moves j lane' p' hs
      rw [hp] at hq
      simp only [Option.some.injEq, Prod.mk.injEq] at hq
      obtain ⟨rfl, rfl⟩ := hq
      exact hmove.settled (hclear j hj p' hs)

/-- A job that stands started after a step was already there, its lane cleared before it. -/
theorem Step.clear_of_started (h : Step s t) (hs : Ordered s) (ht : t i = some (lane, q))
    (hq : q.Started) : s i ≠ none ∧ Clear s lane i := by
  cases hi : s i with
  | none => exact absurd hq (h.arrivals i lane q hi ht).1
  | some job =>
      obtain ⟨lane', p⟩ := job
      obtain ⟨q', hq', hmove⟩ := h.moves i lane' p hi
      rw [ht] at hq'
      simp only [Option.some.injEq, Prod.mk.injEq] at hq'
      obtain ⟨rfl, rfl⟩ := hq'
      refine ⟨Option.some_ne_none _, ?_⟩
      cases hmove with
      | stay => exact hs i lane _ hi hq
      | start clear => exact clear
      | back => exact hq.elim
      | finish => exact hs i lane _ hi trivial
      | drop => exact hq.elim

theorem Step.ordered (h : Step s t) (hs : Ordered s) : Ordered t := by
  intro i lane q hi hq
  obtain ⟨hused, hclear⟩ := h.clear_of_started hs hi hq
  exact h.clear hused hclear

theorem Step.used (h : Step s t) (hi : s i ≠ none) : t i ≠ none := by
  cases hs : s i with
  | none => exact absurd hs hi
  | some job =>
      obtain ⟨q, hq, _⟩ := h.moves i job.1 job.2 hs
      rw [hq]
      exact Option.some_ne_none _

/-- A job that becomes done was in flight. -/
theorem Step.inFlight_of_done (h : Step s t) (ht : t i = some (lane, .done))
    (hs : s i ≠ some (lane, .done)) : s i = some (lane, .inFlight) := by
  cases hi : s i with
  | none => exact absurd trivial (h.arrivals i lane .done hi ht).1
  | some job =>
      obtain ⟨lane', p⟩ := job
      obtain ⟨q, hq, hmove⟩ := h.moves i lane' p hi
      rw [ht] at hq
      simp only [Option.some.injEq, Prod.mk.injEq] at hq
      obtain ⟨rfl, rfl⟩ := hq
      cases hmove with
      | stay => exact absurd hi hs
      | finish => rfl

/-! ## Runs -/

theorem Run.used (h : Run s t) (hi : s i ≠ none) : t i ≠ none := by
  induction h with
  | refl => exact hi
  | tail _ hstep ih => exact hstep.used ih

theorem Run.clear (h : Run s t) (hi : s i ≠ none) (hclear : Clear s lane i) :
    Clear t lane i := by
  induction h with
  | refl => exact hclear
  | tail hrun hstep ih => exact hstep.clear (Run.used hrun hi) ih

theorem Run.ordered (h : Run s t) (hs : Ordered s) : Ordered t := by
  induction h with
  | refl => exact hs
  | tail _ hstep ih => exact hstep.ordered ih

/-- A job that becomes done on a run was in flight at some point of it. -/
theorem Run.inFlight_of_done (h : Run s t) (ht : t i = some (lane, .done))
    (hs : s i ≠ some (lane, .done)) :
    ∃ u, Run s u ∧ Run u t ∧ u i = some (lane, .inFlight) := by
  induction h with
  | refl => exact absurd ht hs
  | @tail u v hrun hstep ih =>
      by_cases hu : u i = some (lane, .done)
      · obtain ⟨w, hsw, hwu, hw⟩ := ih hu
        exact ⟨w, hsw, hwu.tail hstep, hw⟩
      · exact ⟨u, hrun, Relation.ReflTransGen.single hstep, hstep.inFlight_of_done ht hu⟩

/-! ## First in, first out -/

/-- At most one job of a lane is in flight. -/
theorem Ordered.unique (hs : Ordered s) (hi : s i = some (lane, .inFlight))
    (hj : s j = some (lane, .inFlight)) : i = j := by
  rcases lt_trichotomy i j with hlt | heq | hgt
  · exact (hs j lane _ hj trivial i hlt _ hi).elim
  · exact heq
  · exact (hs i lane _ hi trivial j hgt _ hj).elim

/-- A job in flight does not come before one that was started before. -/
theorem Run.le_of_started (h : Run s t) (hs : Ordered s) (hi : s i = some (lane, p))
    (hp : p.Started) (hj : t j = some (lane, .inFlight)) : i ≤ j := by
  have hused : s i ≠ none := by
    rw [hi]
    exact Option.some_ne_none _
  by_contra hlt
  exact h.clear hused (hs i lane p hi hp) j (not_le.mp hlt) _ hj

/-- A job that becomes done comes after every job of its lane that was done before. -/
theorem Run.lt_of_done (h : Run s t) (hs : Ordered s) (hi : s i = some (lane, .done))
    (hsj : s j ≠ some (lane, .done)) (hj : t j = some (lane, .done)) : i < j := by
  obtain ⟨u, hsu, _, hu⟩ := h.inFlight_of_done hj hsj
  refine lt_of_le_of_ne (hsu.le_of_started hs hi trivial hu) ?_
  rintro rfl
  exact hsj hi

end Lanes
