import Mathlib.Data.List.Basic
import Mathlib.Data.List.Pairwise
import Mathlib.Tactic.Common

/-!
# Requests handed to a peer that may accept them at any later time

A sender hands over requests under keys and gets back tickets.  A ticket is on the
wire until the peer accepts or refuses it; the sender may never learn which.  A
live ticket is one that is, or may still be, accepted.

A sender is disciplined when it hands a key over only while no ticket of the key
is live.  Then at most one ticket of a key is ever live, so at most one request
of a key is ever accepted, whatever the peer does and whenever it does it.
-/

namespace Channel

/-- What became of a request. -/
inductive Fate
  | wire | accepted | refused
deriving DecidableEq, Repr

structure Ticket (κ : Type) where
  key : κ
  fate : Fate
deriving DecidableEq, Repr

namespace Ticket

variable {κ : Type}

/-- The request was accepted or may be. -/
def Live (t : Ticket κ) : Prop := t.fate ≠ .refused

instance (t : Ticket κ) : Decidable t.Live := inferInstanceAs (Decidable (¬ _))

/-- The peer decides a request on the wire once; what it decided stays. -/
def resolve (t : Ticket κ) (fate : Fate) : Ticket κ :=
  if t.fate = .wire then { t with fate := fate } else t

@[simp] theorem resolve_key (t : Ticket κ) (fate : Fate) : (t.resolve fate).key = t.key := by
  unfold resolve
  split <;> rfl

theorem Live.of_resolve {t : Ticket κ} {fate : Fate} (h : (t.resolve fate).Live) : t.Live := by
  unfold resolve at h
  split at h
  · rename_i hwire
    unfold Live
    rw [hwire]
    exact Fate.noConfusion
  · exact h

theorem resolve_of_accepted {t : Ticket κ} (fate : Fate) (h : t.fate = .accepted) :
    t.resolve fate = t := by
  unfold resolve
  rw [if_neg (by rw [h]; exact Fate.noConfusion)]

end Ticket

variable {κ : Type}

/-- Every request ever handed over, oldest first. -/
abbrev Log (κ : Type) := List (Ticket κ)

/-- Hand a request over. -/
def send (log : Log κ) (key : κ) : Log κ := log ++ [⟨key, .wire⟩]

/-- The peer decides the `n`-th request. -/
def resolve (log : Log κ) (n : Nat) (fate : Fate) : Log κ :=
  log.modify n fun t => t.resolve fate

/-- No ticket of the key is live. -/
def Quiet (log : Log κ) (key : κ) : Prop := ∀ t ∈ log, t.key = key → ¬ t.Live

/-- At most one ticket of a key is live. -/
def Exclusive (log : Log κ) : Prop :=
  log.Pairwise fun a b => a.key = b.key → ¬ (a.Live ∧ b.Live)

variable {log : Log κ} {key : κ} {t : Ticket κ}

theorem mem_send : t ∈ send log key ↔ t ∈ log ∨ t = ⟨key, .wire⟩ := by
  simp [send]

theorem getElem?_send {n : Nat} :
    (send log key)[n]? = some t ↔
      log[n]? = some t ∨ n = log.length ∧ t = ⟨key, .wire⟩ := by
  unfold send
  rw [List.getElem?_append]
  split
  · rename_i hlt
    constructor
    · exact Or.inl
    · rintro (h | ⟨rfl, _⟩)
      · exact h
      · omega
  · rename_i hge
    rw [List.getElem?_eq_none (by omega : log.length ≤ n)]
    by_cases hn : n = log.length
    · subst hn
      simp [eq_comm]
    · have hne : n - log.length ≠ 0 := by omega
      simp [hn, List.getElem?_eq_none, show 1 ≤ n - log.length by omega]

/-- After a decision every live ticket was live before, at the same place. -/
theorem live_of_resolve {n m : Nat} {fate : Fate} (h : (resolve log n fate)[m]? = some t)
    (hlive : t.Live) : ∃ s, log[m]? = some s ∧ s.key = t.key ∧ s.Live := by
  unfold resolve at h
  rw [List.getElem?_modify] at h
  obtain ⟨s, hs, rfl⟩ := Option.map_eq_some_iff.mp h
  refine ⟨s, hs, ?_⟩
  split at hlive
  · rename_i hnm
    rw [if_pos hnm]
    exact ⟨(s.resolve_key fate).symm, hlive.of_resolve⟩
  · rename_i hnm
    rw [if_neg hnm]
    exact ⟨rfl, hlive⟩

/-- A request stays accepted. -/
theorem resolve_accepted {n : Nat} {fate : Fate} (ht : t ∈ log) (h : t.fate = .accepted) :
    t ∈ resolve log n fate := by
  obtain ⟨i, hi⟩ := List.mem_iff_getElem?.mp ht
  refine List.mem_of_getElem? (i := i) ?_
  unfold resolve
  rw [List.getElem?_modify, hi]
  by_cases hni : n = i
  · subst hni
    simp [Ticket.resolve_of_accepted fate h]
  · simp [hni]

/-- **Discipline keeps the log exclusive.** -/
theorem Exclusive.send (h : Exclusive log) (hquiet : Quiet log key) :
    Exclusive (send log key) := by
  refine List.pairwise_append.mpr ⟨h, List.pairwise_singleton _ _, ?_⟩
  intro a ha b hb hkey hlive
  obtain rfl := List.mem_singleton.mp hb
  exact hquiet a ha hkey hlive.1

theorem Exclusive.resolve (h : Exclusive log) (n : Nat) (fate : Fate) :
    Exclusive (resolve log n fate) := by
  unfold Exclusive at *
  rw [List.pairwise_iff_getElem] at h ⊢
  intro i j hi hj hij hkey hlive
  obtain ⟨a, ha, hakey, halive⟩ := live_of_resolve (List.getElem?_eq_getElem hi) hlive.1
  obtain ⟨b, hb, hbkey, hblive⟩ := live_of_resolve (List.getElem?_eq_getElem hj) hlive.2
  obtain ⟨hi', rfl⟩ := List.getElem?_eq_some_iff.mp ha
  obtain ⟨hj', rfl⟩ := List.getElem?_eq_some_iff.mp hb
  exact h i j hi' hj' hij (hakey.trans (hkey.trans hbkey.symm)) ⟨halive, hblive⟩

/-- **At most one request of a key is accepted.** -/
theorem Exclusive.accepted_le_one [DecidableEq κ] (h : Exclusive log) (key : κ) :
    (log.filter fun t => t.key = key ∧ t.fate = .accepted).length ≤ 1 := by
  by_contra hmany
  have hpair : (log.filter fun t => t.key = key ∧ t.fate = .accepted).Pairwise
      fun a b => a.key = b.key → ¬ (a.Live ∧ b.Live) :=
    List.Pairwise.filter _ h
  have hmem : ∀ t ∈ log.filter fun t => t.key = key ∧ t.fate = .accepted,
      t.key = key ∧ t.Live := by
    intro t ht
    have hp := (List.mem_filter.mp ht).2
    simp only [decide_eq_true_eq] at hp
    refine ⟨hp.1, ?_⟩
    unfold Ticket.Live
    rw [hp.2]
    exact Fate.noConfusion
  match hlist : log.filter fun t => t.key = key ∧ t.fate = .accepted with
  | [] =>
      rw [hlist] at hmany
      exact hmany (Nat.zero_le 1)
  | [a] =>
      rw [hlist] at hmany
      exact hmany (Nat.le_refl 1)
  | a :: b :: rest =>
      rw [hlist] at hpair hmem
      have ha := hmem a List.mem_cons_self
      have hb := hmem b (List.mem_cons_of_mem _ List.mem_cons_self)
      have hab := (List.pairwise_cons.mp hpair).1 b List.mem_cons_self
      exact hab (ha.1.trans hb.1.symm) ⟨ha.2, hb.2⟩

end Channel
