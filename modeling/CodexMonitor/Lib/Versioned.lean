import Mathlib.Logic.Relation
import Mathlib.Tactic.Common

/-!
# Versioned cells

A cell holds a value and the log of its changes; its version is the length of
the log.  A change is made by compare-and-swap: the writer names the version it
expects, and the change must be allowed from the value the cell holds.

The log of a cell is a chain from the first value to the one held.  Versions only
grow, so of all the writers that expect one version at most one succeeds; and when
every allowed change lowers a rank, the rank of the first value bounds the log.
-/

namespace Versioned

variable {α : Type*}

/-- A value and the changes that led to it, oldest first. -/
structure Cell (α : Type*) where
  value : α
  log : List (α × α)

namespace Cell

/-- The number of changes made. -/
def version (c : Cell α) : Nat := c.log.length

/-- The cell after one more change. -/
def push (c : Cell α) (new : α) : Cell α := ⟨new, c.log ++ [(c.value, new)]⟩

/-- Compare and swap: the change is made only at the expected version. -/
def Swap (allowed : α → α → Prop) (expected : Nat) (c d : Cell α) : Prop :=
  c.version = expected ∧ ∃ new, allowed c.value new ∧ d = c.push new

/-- The cell stays as it is or is changed once. -/
def Step (allowed : α → α → Prop) (c d : Cell α) : Prop :=
  d = c ∨ Swap allowed c.version c d

/-- Any number of steps. -/
abbrev Run (allowed : α → α → Prop) : Cell α → Cell α → Prop :=
  Relation.ReflTransGen (Step allowed)

/-- The changes lead from `first` to `last`, each starting where the one before ended. -/
def Linked : α → List (α × α) → α → Prop
  | first, [], last => first = last
  | first, change :: log, last => change.1 = first ∧ Linked change.2 log last

/-- The log is a chain of allowed changes from `first` to the value held. -/
structure WellLogged (allowed : α → α → Prop) (first : α) (c : Cell α) : Prop where
  linked : Linked first c.log c.value
  allowed_mem : ∀ change ∈ c.log, allowed change.1 change.2

end Cell

open Cell

variable {allowed : α → α → Prop} {first : α} {c d e : Cell α} {expected : Nat}

/-! ## Chains -/

theorem linked_append {log : List (α × α)} {last new : α} (h : Linked first log last) :
    Linked first (log ++ [(last, new)]) new := by
  induction log generalizing first with
  | nil =>
      obtain rfl := h
      exact ⟨rfl, rfl⟩
  | cons change log ih => exact ⟨h.1, ih h.2⟩

/-- A new cell has an empty log. -/
theorem wellLogged_new (value : α) : WellLogged allowed value ⟨value, []⟩ :=
  ⟨rfl, fun _ h => absurd h List.not_mem_nil⟩

theorem Cell.WellLogged.push (h : WellLogged allowed first c) {new : α}
    (hnew : allowed c.value new) : WellLogged allowed first (c.push new) := by
  refine ⟨linked_append h.linked, fun change hchange => ?_⟩
  rcases List.mem_append.mp hchange with hold | hlast
  · exact h.allowed_mem change hold
  · rw [List.mem_singleton.mp hlast]
    exact hnew

theorem Cell.WellLogged.step (h : WellLogged allowed first c) (hstep : Step allowed c d) :
    WellLogged allowed first d := by
  rcases hstep with rfl | ⟨_, new, hnew, rfl⟩
  · exact h
  · exact h.push hnew

/-- When every allowed change lowers the rank, the log is no longer than the first rank. -/
theorem Cell.WellLogged.version_le (h : WellLogged allowed first c) (rank : α → Nat)
    (hrank : ∀ a b, allowed a b → rank b < rank a) : c.version + rank c.value ≤ rank first := by
  obtain ⟨value, log⟩ := c
  obtain ⟨hlinked, hallowed⟩ := h
  show log.length + rank value ≤ rank first
  simp only at hlinked hallowed
  induction log generalizing first with
  | nil =>
      obtain rfl := hlinked
      simp
  | cons change log ih =>
      obtain ⟨hfirst, hrest⟩ := hlinked
      have hlower : rank change.2 < rank first := by
        rw [← hfirst]
        exact hrank _ _ (hallowed change List.mem_cons_self)
      have hle := ih hrest fun x hx => hallowed x (List.mem_cons_of_mem _ hx)
      rw [List.length_cons]
      omega

/-! ## Versions -/

theorem Cell.Swap.version (h : Swap allowed expected c d) : d.version = expected + 1 := by
  obtain ⟨hversion, new, _, rfl⟩ := h
  rw [← hversion]
  exact List.length_append

theorem Cell.Swap.step (h : Swap allowed expected c d) : Step allowed c d := by
  obtain ⟨rfl, hnew⟩ := h
  exact Or.inr ⟨rfl, hnew⟩

theorem Cell.Step.version_le (h : Step allowed c d) : c.version ≤ d.version := by
  rcases h with rfl | hswap
  · exact Nat.le_refl _
  · rw [hswap.version]
    exact Nat.le_succ _

theorem Cell.Run.version_le (h : Run allowed c d) : c.version ≤ d.version := by
  induction h with
  | refl => exact Nat.le_refl _
  | tail _ hstep ih => exact Nat.le_trans ih hstep.version_le

/-- Of two writers that expect the same version the later one fails. -/
theorem Cell.Swap.not_again (h : Swap allowed expected c d) (hrun : Run allowed d e) {f : Cell α} :
    ¬ Swap allowed expected e f := by
  intro hagain
  have hle := Run.version_le hrun
  rw [h.version, hagain.1] at hle
  exact Nat.not_succ_le_self _ hle

/-- A value that allows no change is held for ever. -/
theorem Cell.Run.final (h : Run allowed c d) (hfinal : ∀ new, ¬ allowed c.value new) : d = c := by
  induction h with
  | refl => rfl
  | tail _ hstep ih =>
      subst ih
      rcases hstep with rfl | ⟨_, new, hnew, _⟩
      · rfl
      · exact absurd hnew (hfinal new)

end Versioned
