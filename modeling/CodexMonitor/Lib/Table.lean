import Mathlib.Data.List.Pairwise
import Mathlib.Data.List.Sort
import Mathlib.Tactic.Common

/-!
# Keyed tables

A table is a list of rows in insertion order that carries the proof of its
own constraints.  A row type names its key columns once, together with the
relation that the keys of an earlier and a later row must stand in: distinct
primary keys, distinct unique columns, a growing row number.  `insert?` checks
the relation against every row and refuses a row that breaks it; `update`
rewrites rows in place and may not touch a key column.  So no sequence of
statements builds a table that breaks a constraint, and a row is determined by
any of its unique columns.
-/

/-- The key columns of a row type and the constraint between two rows. -/
class Schema (ρ : Type) where
  /-- All key columns of a row. -/
  Key : Type
  key : ρ → Key
  /-- An earlier row with the first key may stand before a later row with the second. -/
  Fits : Key → Key → Prop
  decFits : DecidableRel Fits

/-- Rows in insertion order, constraints included. -/
structure Table (ρ : Type) [Schema ρ] where
  rows : List ρ
  fits : rows.Pairwise fun a b => Schema.Fits (Schema.key a) (Schema.key b)

namespace Table

variable {ρ : Type} [Schema ρ]

instance (k : Schema.Key ρ) (k' : Schema.Key ρ) : Decidable (Schema.Fits k k') :=
  Schema.decFits k k'

instance : Membership ρ (Table ρ) where
  mem t r := r ∈ t.rows

theorem mem_def {t : Table ρ} {r : ρ} : r ∈ t ↔ r ∈ t.rows := Iff.rfl

/-- Two tables with the same rows are the same table. -/
@[ext] theorem ext {t u : Table ρ} (h : t.rows = u.rows) : t = u := by
  cases t
  cases u
  simp only at h
  subst h
  rfl

/-- The table of a new database. -/
def empty : Table ρ := ⟨[], List.Pairwise.nil⟩

@[simp] theorem rows_empty : (empty : Table ρ).rows = [] := rfl

@[simp] theorem not_mem_empty (r : ρ) : r ∉ (empty : Table ρ) := by
  simp [mem_def]

/-- Every row may stand before `r`. -/
def Admits (t : Table ρ) (r : ρ) : Prop :=
  ∀ a ∈ t.rows, Schema.Fits (Schema.key a) (Schema.key r)

instance (t : Table ρ) (r : ρ) : Decidable (t.Admits r) :=
  inferInstanceAs (Decidable (∀ a ∈ t.rows, _))

/-- Append a row that the constraints admit. -/
def push (t : Table ρ) (r : ρ) (h : t.Admits r) : Table ρ where
  rows := t.rows ++ [r]
  fits := by
    rw [List.pairwise_append]
    refine ⟨t.fits, List.pairwise_singleton _ _, ?_⟩
    intro a ha b hb
    rw [List.mem_singleton.mp hb]
    exact h a ha

/-- `INSERT`: refused when a constraint would break. -/
def insert? (t : Table ρ) (r : ρ) : Option (Table ρ) :=
  if h : t.Admits r then some (t.push r h) else none

/-- `INSERT` of a row the caller knows to be admitted. -/
def add (t : Table ρ) (r : ρ) : Table ρ := (t.insert? r).getD t

/-- `UPDATE … SET … WHERE p`; the key columns stay. -/
def update (t : Table ρ) (p : ρ → Prop) [DecidablePred p] (f : ρ → ρ)
    (hf : ∀ r, Schema.key (f r) = Schema.key r := by intro r; rfl) : Table ρ where
  rows := t.rows.map fun r => if p r then f r else r
  fits := by
    rw [List.pairwise_map]
    refine t.fits.imp ?_
    intro a b hab
    have hkey : ∀ r : ρ, Schema.key (if p r then f r else r) = Schema.key r := by
      intro r
      split
      · exact hf r
      · rfl
    rw [hkey, hkey]
    exact hab

/-- `DELETE … WHERE p`. -/
def delete (t : Table ρ) (p : ρ → Prop) [DecidablePred p] : Table ρ where
  rows := t.rows.filter fun r => ¬ p r
  fits := t.fits.filter _

/-- `SELECT … WHERE p ORDER BY le`; rows that tie keep their insertion order. -/
def select (t : Table ρ) (p : ρ → Prop) [DecidablePred p] (le : ρ → ρ → Prop) [DecidableRel le] :
    List ρ :=
  (t.rows.filter p).insertionSort le

/-- `SELECT … WHERE p` for a condition that at most one row meets. -/
def find? (t : Table ρ) (p : ρ → Prop) [DecidablePred p] : Option ρ :=
  t.rows.find? p

/-- `SELECT count(*) … WHERE p`. -/
def count (t : Table ρ) (p : ρ → Prop) [DecidablePred p] : Nat :=
  t.rows.countP p

/-- `SELECT EXISTS(… WHERE p)`. -/
def Any (t : Table ρ) (p : ρ → Prop) : Prop := ∃ r ∈ t.rows, p r

instance (t : Table ρ) (p : ρ → Prop) [DecidablePred p] : Decidable (t.Any p) :=
  inferInstanceAs (Decidable (∃ r ∈ t.rows, p r))

/-- The next value of an `AUTOINCREMENT` column; rows are never deleted. -/
def nextSeq (t : Table ρ) (seq : ρ → Nat) : Nat :=
  (t.rows.map seq).foldr max 0 + 1

/-! ## Inserting -/

@[simp] theorem rows_push {t : Table ρ} {r : ρ} (h : t.Admits r) :
    (t.push r h).rows = t.rows ++ [r] := rfl

theorem insert?_eq_some {t u : Table ρ} {r : ρ} :
    t.insert? r = some u ↔ t.Admits r ∧ u = t.add r := by
  unfold add insert?
  by_cases h : t.Admits r
  · simp [h, eq_comm]
  · simp [h]

theorem rows_add {t : Table ρ} {r : ρ} (h : t.Admits r) : (t.add r).rows = t.rows ++ [r] := by
  simp [add, insert?, h]

theorem mem_add {t : Table ρ} {r a : ρ} (h : t.Admits r) : a ∈ t.add r ↔ a ∈ t ∨ a = r := by
  simp [mem_def, rows_add h]

theorem mem_add_of_mem {t : Table ρ} {r a : ρ} (ha : a ∈ t) : a ∈ t.add r := by
  by_cases h : t.Admits r
  · exact (mem_add h).mpr (Or.inl ha)
  · simpa [add, insert?, h] using ha

theorem lt_nextSeq {t : Table ρ} {seq : ρ → Nat} {r : ρ} (hr : r ∈ t) :
    seq r < t.nextSeq seq := by
  have hmax : ∀ l : List Nat, ∀ n ∈ l, n ≤ l.foldr max 0 := by
    intro l
    induction l with
    | nil => simp
    | cons m l ih =>
        intro n hn
        rcases List.mem_cons.mp hn with rfl | hn
        · exact Nat.le_max_left _ _
        · exact Nat.le_trans (ih n hn) (Nat.le_max_right _ _)
  exact Nat.lt_succ_of_le (hmax _ _ (List.mem_map_of_mem hr))

/-! ## Updating -/

section update

variable {t : Table ρ} {p : ρ → Prop} [DecidablePred p] {f : ρ → ρ}
variable {hf : ∀ r, Schema.key (f r) = Schema.key r}

@[simp] theorem rows_update :
    (t.update p f hf).rows = t.rows.map fun r => if p r then f r else r := rfl

theorem mem_update {a : ρ} :
    a ∈ t.update p f hf ↔ ∃ r ∈ t, (if p r then f r else r) = a := by
  simp [mem_def]

end update

theorem mem_delete {t : Table ρ} {p : ρ → Prop} [DecidablePred p] {r : ρ} :
    r ∈ t.delete p ↔ r ∈ t ∧ ¬ p r := by
  simp [mem_def, delete]

/-! ## Looking rows up -/

section lookup

variable {t : Table ρ} {p : ρ → Prop} [DecidablePred p]

theorem find?_some {r : ρ} (h : t.find? p = some r) : r ∈ t ∧ p r := by
  have hp := List.find?_some h
  exact ⟨List.mem_of_find?_eq_some h, by simpa using hp⟩

theorem find?_none : t.find? p = none ↔ ∀ r ∈ t, ¬ p r := by
  simp [find?, mem_def]

/-- A row that is the only one to meet `p` is the one the query returns. -/
theorem find?_eq_of_unique {r : ρ} (hr : r ∈ t) (hp : p r) (huniq : ∀ a ∈ t, p a → a = r) :
    t.find? p = some r := by
  cases h : t.find? p with
  | none => exact absurd hp (find?_none.mp h r hr)
  | some a => rw [huniq a (find?_some h).1 (find?_some h).2]

theorem mem_select {le : ρ → ρ → Prop} [DecidableRel le] {r : ρ} :
    r ∈ t.select p le ↔ r ∈ t ∧ p r := by
  simp [select, mem_def]

theorem select_eq_nil {le : ρ → ρ → Prop} [DecidableRel le] :
    t.select p le = [] ↔ ∀ r ∈ t, ¬ p r := by
  rw [List.eq_nil_iff_forall_not_mem]
  simp only [mem_select, not_and]

/-- A symmetric relation between any two rows holds between any two rows of a query. -/
theorem select_pairwise {le : ρ → ρ → Prop} [DecidableRel le] {R : ρ → ρ → Prop}
    (hsymm : ∀ {a b}, R a b → R b a) (h : t.rows.Pairwise R) : (t.select p le).Pairwise R := by
  have hperm : (t.select p le).Perm (t.rows.filter p) := List.perm_insertionSort _ _
  exact (hperm.pairwise_iff hsymm).mpr (h.filter _)

/-- Rows already in order are returned as they stand. -/
theorem select_of_pairwise {le : ρ → ρ → Prop} [DecidableRel le]
    (h : t.rows.Pairwise le) : t.select p le = t.rows.filter p :=
  (h.filter _).insertionSort_eq

end lookup

/-! ## Rows and their keys -/

/-- Two rows of a table are the same row as soon as neither may stand before the other. -/
theorem eq_of_not_fits {t : Table ρ} {a b : ρ} (ha : a ∈ t) (hb : b ∈ t)
    (hab : ¬ Schema.Fits (Schema.key a) (Schema.key b))
    (hba : ¬ Schema.Fits (Schema.key b) (Schema.key a)) : a = b := by
  by_contra hne
  have hor : t.rows.Pairwise fun x y =>
      Schema.Fits (Schema.key x) (Schema.key y) ∨ Schema.Fits (Schema.key y) (Schema.key x) :=
    t.fits.imp Or.inl
  have : Std.Symm fun x y : ρ =>
      Schema.Fits (Schema.key x) (Schema.key y) ∨ Schema.Fits (Schema.key y) (Schema.key x) :=
    ⟨fun _ _ h => h.symm⟩
  rcases hor.forall ha hb hne with h | h
  · exact hab h
  · exact hba h

end Table
