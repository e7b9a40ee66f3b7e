import Mathlib.Data.List.Nodup
import Mathlib.Data.List.Sort
import Mathlib.Tactic.Common

/-!
# Finite maps

A dictionary is a list of entries that carries the proof that its keys differ, so
a key has at most one value and counting entries counts keys.  The lemmas say what
a lookup finds, and how many entries meet a condition, after each operation; they
are all a development needs to know of the representation.
-/

/-- A finite map, as the list of its entries. -/
structure Dict (κ α : Type) where
  entries : List (κ × α)
  nodup : (entries.map Prod.fst).Nodup

namespace Dict

variable {κ α : Type} [DecidableEq κ]

instance : EmptyCollection (Dict κ α) := ⟨⟨[], List.nodup_nil⟩⟩

/-- The value of a key. -/
def get (d : Dict κ α) (k : κ) : Option α :=
  (d.entries.find? fun entry => entry.1 = k).map Prod.snd

def keys (d : Dict κ α) : List κ := d.entries.map Prod.fst

def size (d : Dict κ α) : Nat := d.entries.length

def erase (d : Dict κ α) (k : κ) : Dict κ α where
  entries := d.entries.filter fun entry => entry.1 ≠ k
  nodup := d.nodup.sublist (List.filter_sublist.map Prod.fst)

/-- Give a key a value, in place of the one it has. -/
def set (d : Dict κ α) (k : κ) (a : α) : Dict κ α where
  entries := (k, a) :: (d.erase k).entries
  nodup := by
    refine List.nodup_cons.mpr ⟨?_, (d.erase k).nodup⟩
    intro hmem
    obtain ⟨entry, hentry, hkey⟩ := List.mem_map.mp hmem
    exact of_decide_eq_true (List.mem_filter.mp hentry).2 hkey

/-- Change every value. -/
def map (d : Dict κ α) (f : κ → α → α) : Dict κ α where
  entries := d.entries.map fun entry => (entry.1, f entry.1 entry.2)
  nodup := by
    rw [List.map_map]
    exact d.nodup

/-- The entries that meet a condition, counted. -/
def count (d : Dict κ α) (p : κ → α → Prop) [∀ k a, Decidable (p k a)] : Nat :=
  d.entries.countP fun entry => p entry.1 entry.2

/-- Give a key a value, unless it has one. -/
def orInsert (d : Dict κ α) (k : κ) (a : α) : Dict κ α :=
  if (d.get k).isSome then d else d.set k a

omit [DecidableEq κ] in
/-- The entries whose key is kept. -/
def retain (d : Dict κ α) (keep : κ → Bool) : Dict κ α where
  entries := d.entries.filter fun entry => keep entry.1
  nodup := d.nodup.sublist (List.filter_sublist.map Prod.fst)

omit [DecidableEq κ] in
/-- The same entries, put in an order of their keys. -/
def sort (d : Dict κ α) (le : κ → κ → Prop) [DecidableRel le] : Dict κ α where
  entries := d.entries.insertionSort fun a b => le a.1 b.1
  nodup := ((List.perm_insertionSort _ _).map Prod.fst).nodup_iff.mpr d.nodup

/-! ## Lookups -/

section lookup

variable {d : Dict κ α} {k j : κ} {a b : α}

theorem get_eq_some : d.get k = some a ↔ (k, a) ∈ d.entries := by
  unfold get
  constructor
  · intro h
    obtain ⟨⟨j, b⟩, hfind, rfl⟩ := Option.map_eq_some_iff.mp h
    obtain rfl : j = k := of_decide_eq_true (List.find?_some hfind :)
    exact List.mem_of_find?_eq_some hfind
  · intro hmem
    cases hfind : d.entries.find? fun entry => entry.1 = k with
    | none => exact absurd (List.find?_eq_none.mp hfind (k, a) hmem) (by simp)
    | some entry =>
        have hkey : entry.1 = k := of_decide_eq_true (List.find?_some hfind :)
        rw [List.inj_on_of_nodup_map d.nodup (List.mem_of_find?_eq_some hfind) hmem hkey]
        rfl

theorem get_eq_none : d.get k = none ↔ k ∉ d.keys := by
  constructor
  · intro h hmem
    obtain ⟨⟨_, a⟩, hentry, rfl⟩ := List.mem_map.mp hmem
    rw [get_eq_some.mpr hentry] at h
    cases h
  · intro h
    cases hget : d.get k with
    | none => rfl
    | some a => exact absurd (List.mem_map.mpr ⟨_, get_eq_some.mp hget, rfl⟩) h

theorem mem_keys : k ∈ d.keys ↔ ∃ a, d.get k = some a := by
  constructor
  · intro h
    obtain ⟨⟨_, a⟩, hentry, rfl⟩ := List.mem_map.mp h
    exact ⟨a, get_eq_some.mpr hentry⟩
  · rintro ⟨a, h⟩
    exact List.mem_map.mpr ⟨_, get_eq_some.mp h, rfl⟩

@[simp] theorem get_empty : (∅ : Dict κ α).get k = none := rfl

theorem get_erase : (d.erase k).get j = if j = k then none else d.get j := by
  refine Option.ext fun a => ?_
  rw [get_eq_some]
  unfold erase
  rw [List.mem_filter, ← get_eq_some]
  split
  · simp_all
  · simp_all

theorem get_set : (d.set k a).get j = if j = k then some a else d.get j := by
  refine Option.ext fun b => ?_
  rw [get_eq_some]
  unfold set
  rw [List.mem_cons, ← get_eq_some, get_erase]
  by_cases h : j = k
  · simp [h, eq_comm]
  · simp [h]

@[simp] theorem get_set_self : (d.set k a).get k = some a := by rw [get_set, if_pos rfl]

theorem get_set_ne (h : j ≠ k) : (d.set k a).get j = d.get j := by rw [get_set, if_neg h]

theorem get_erase_ne (h : j ≠ k) : (d.erase k).get j = d.get j := by rw [get_erase, if_neg h]

theorem get_orInsert :
    (d.orInsert k a).get j = if j = k ∧ d.get k = none then some a else d.get j := by
  unfold orInsert
  by_cases h : (d.get k).isSome
  · rw [if_pos h, if_neg]
    intro hand
    rw [hand.2] at h
    cases h
  · have hnone : d.get k = none := by simpa using h
    rw [if_neg h, get_set]
    simp only [hnone, and_true]

theorem get_retain {keep : κ → Bool} :
    (d.retain keep).get k = if keep k then d.get k else none := by
  refine Option.ext fun a => ?_
  rw [get_eq_some]
  unfold retain
  rw [List.mem_filter, ← get_eq_some]
  split
  · simp_all
  · simp_all

/-- Entries in another order are found under the same keys. -/
theorem get_eq_of_perm {d e : Dict κ α} (h : d.entries.Perm e.entries) : d.get k = e.get k := by
  refine Option.ext fun a => ?_
  rw [get_eq_some, get_eq_some, h.mem_iff]

theorem get_map {f : κ → α → α} : (d.map f).get k = (d.get k).map (f k) := by
  refine Option.ext fun b => ?_
  rw [get_eq_some, Option.map_eq_some_iff]
  unfold map
  rw [List.mem_map]
  constructor
  · rintro ⟨⟨j, a⟩, hentry, heq⟩
    obtain ⟨rfl, rfl⟩ := Prod.mk.inj heq
    exact ⟨a, get_eq_some.mpr hentry, rfl⟩
  · rintro ⟨a, hget, rfl⟩
    exact ⟨_, get_eq_some.mp hget, rfl⟩

end lookup

/-! ## Counts -/

section count

variable {d : Dict κ α} {k : κ} {a : α} {p q : κ → α → Prop} [∀ k a, Decidable (p k a)]
  [∀ k a, Decidable (q k a)]

theorem erase_of_none (h : d.get k = none) : (d.erase k).entries = d.entries := by
  refine List.filter_eq_self.mpr fun entry hentry => ?_
  have hne : entry.1 ≠ k := fun hkey =>
    get_eq_none.mp h (List.mem_map.mpr ⟨entry, hentry, hkey⟩)
  simpa using hne

theorem count_erase_none (h : d.get k = none) : (d.erase k).count p = d.count p := by
  unfold count
  rw [erase_of_none h]

/-- An erased entry was counted or not. -/
theorem count_erase_some (h : d.get k = some a) :
    d.count p = (d.erase k).count p + if p k a then 1 else 0 := by
  have hmem := get_eq_some.mp h
  have hnodup := d.nodup
  show d.entries.countP _ = (d.entries.filter fun entry => entry.1 ≠ k).countP _ + _
  generalize d.entries = entries at hmem hnodup ⊢
  induction entries with
  | nil => cases hmem
  | cons entry entries ih =>
      rw [List.map_cons, List.nodup_cons] at hnodup
      have hrest : ∀ other ∈ entries, other.1 = k → entry.1 ≠ k := by
        intro other hother hkey heq
        exact hnodup.1 (List.mem_map.mpr ⟨other, hother, hkey.trans heq.symm⟩)
      rcases List.mem_cons.mp hmem with heq | hmem
      · subst heq
        have hkept : entries.filter (fun entry => entry.1 ≠ k) = entries :=
          List.filter_eq_self.mpr fun other hother => by
            simpa using fun hkey => hrest other hother hkey rfl
        rw [List.filter_cons_of_neg (by simp), hkept, List.countP_cons]
        simp
      · have hne : entry.1 ≠ k := hrest _ hmem rfl
        rw [List.filter_cons_of_pos (by simpa using hne), List.countP_cons, List.countP_cons,
          ih hmem hnodup.2]
        omega

theorem count_set : (d.set k a).count p = (d.erase k).count p + if p k a then 1 else 0 := by
  unfold count set
  rw [List.countP_cons]
  simp

/-- A condition that the change does not touch counts the same entries. -/
theorem count_map {f : κ → α → α} (h : ∀ k a, d.get k = some a → (p k (f k a) ↔ q k a)) :
    (d.map f).count p = d.count q := by
  unfold count map
  rw [List.countP_map]
  refine List.countP_congr fun entry hentry => ?_
  have hiff := h entry.1 entry.2 (get_eq_some.mpr hentry)
  simpa using hiff

theorem count_pos : 0 < d.count p ↔ ∃ k a, d.get k = some a ∧ p k a := by
  unfold count
  rw [List.countP_pos_iff]
  constructor
  · rintro ⟨entry, hentry, hp⟩
    exact ⟨entry.1, entry.2, get_eq_some.mpr hentry, of_decide_eq_true hp⟩
  · rintro ⟨k, a, hget, hp⟩
    exact ⟨(k, a), get_eq_some.mp hget, decide_eq_true hp⟩

end count

end Dict
