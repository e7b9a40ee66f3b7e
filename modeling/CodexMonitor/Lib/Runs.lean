import Mathlib.Logic.Relation
import Mathlib.Tactic.Common

/-!
# Runs of a machine

A machine is a partial function that takes a state and an action to the next state;
an action that is not possible in a state takes it nowhere.  A run meets a condition
when each of its actions does, in the state it is taken in.  What every action keeps
holds at the end of a run; a list of actions that can be taken one after the other is
a run.
-/

namespace Runs

variable {σ α : Type} {step : σ → α → Option σ}

/-- One action that meets `ok` in the state before it. -/
def Moves (step : σ → α → Option σ) (ok : σ → α → Prop) (s t : σ) : Prop :=
  ∃ a, ok s a ∧ step s a = some t

/-- Any number of actions, each of which meets `ok` in the state before it. -/
def LeadsBy (step : σ → α → Option σ) (ok : σ → α → Prop) : σ → σ → Prop :=
  Relation.ReflTransGen (Moves step ok)

/-- Any number of actions. -/
def Leads (step : σ → α → Option σ) : σ → σ → Prop := LeadsBy step fun _ _ => True

theorem Leads.trans {s t u : σ} (h : Leads step s t) (h' : Leads step t u) : Leads step s u :=
  Relation.ReflTransGen.trans h h'

theorem Leads.tail {s t u : σ} {a : α} (h : Leads step s t) (ha : step t a = some u) :
    Leads step s u :=
  Relation.ReflTransGen.tail h ⟨a, trivial, ha⟩

/-- What every action that meets `ok` keeps holds at the end of every run it holds at the start
of. -/
theorem LeadsBy.invariant {ok : σ → α → Prop} {P : σ → Prop}
    (hstep : ∀ s a t, P s → ok s a → step s a = some t → P t) {s t : σ}
    (h : LeadsBy step ok s t) (hs : P s) : P t := by
  induction h with
  | refl => exact hs
  | tail _ hmove ih =>
      obtain ⟨a, hok, ha⟩ := hmove
      exact hstep _ a _ ih hok ha

theorem Leads.invariant {P : σ → Prop} (hstep : ∀ s a t, P s → step s a = some t → P t) {s t : σ}
    (h : Leads step s t) (hs : P s) : P t :=
  LeadsBy.invariant (fun s a t hp _ ha => hstep s a t hp ha) h hs

/-! ## Runs that are evaluated -/

/-- The state after a list of actions, if each of them is possible and meets `ok`. -/
def after? (step : σ → α → Option σ) (ok : σ → α → Prop) [∀ s a, Decidable (ok s a)] :
    List α → σ → Option σ
  | [], s => some s
  | a :: as, s => if ok s a then (step s a).bind (after? step ok as) else none

theorem leadsBy_after {ok : σ → α → Prop} [∀ s a, Decidable (ok s a)] {as : List α} {s t : σ}
    (h : after? step ok as s = some t) : LeadsBy step ok s t := by
  induction as generalizing s with
  | nil =>
      obtain rfl := Option.some.inj h
      exact .refl
  | cons a as ih =>
      rw [after?] at h
      split at h
      · rename_i hok
        obtain ⟨u, ha, hrest⟩ := Option.bind_eq_some_iff.mp h
        exact Relation.ReflTransGen.head ⟨a, hok, ha⟩ (ih hrest)
      · cases h

/-- The state after a list of possible actions. -/
def run? (step : σ → α → Option σ) (as : List α) (s : σ) : Option σ :=
  after? step (fun _ _ => True) as s

theorem run_cons (a : α) (as : List α) (s : σ) :
    run? step (a :: as) s = (step s a).bind (run? step as) := by
  rw [run?, after?, if_pos trivial]
  rfl

/-- A run that meets a condition is a run. -/
theorem run_of_after {ok : σ → α → Prop} [∀ s a, Decidable (ok s a)] {as : List α} {s t : σ}
    (h : after? step ok as s = some t) : run? step as s = some t := by
  induction as generalizing s with
  | nil => exact h
  | cons a as ih =>
      rw [after?] at h
      split at h
      · obtain ⟨u, ha, hrest⟩ := Option.bind_eq_some_iff.mp h
        rw [run_cons, ha]
        exact ih hrest
      · cases h

theorem leads_run {as : List α} {s t : σ} (h : run? step as s = some t) : Leads step s t :=
  leadsBy_after h

end Runs
