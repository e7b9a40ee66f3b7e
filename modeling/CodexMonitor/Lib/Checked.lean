import Mathlib.Algebra.Group.Int.Defs
import Mathlib.Algebra.Group.Nat.Defs
import Mathlib.Data.List.Basic
import Mathlib.Tactic.Common

/-!
# Code that may panic

Code over a state with the integers of a 64-bit machine.  A sum, a difference or a
product that leaves the range of its type is a panic; so is an index past the end of
a sequence, a division by zero and the value of nothing.

`Keeps I x Q` is the rule of code that does not panic: from every state in `I` it
returns a value in `Q` and leaves a state in `I`.
-/

namespace Checked

/-- What stops the code. -/
inductive Panic
  | index | overflow | zero | missing
deriving DecidableEq, Repr

/-- Code over states `σ` that returns an `α` unless it panics. -/
structure Code (σ α : Type) where
  run : σ → Except Panic (α × σ)

variable {σ α β : Type}

namespace Code

protected def pure (a : α) : Code σ α := ⟨fun s => .ok (a, s)⟩

/-- Run `x`, and go on with its value when it returns. -/
protected def bind (x : Code σ α) (f : α → Code σ β) : Code σ β :=
  ⟨fun s => match x.run s with
    | .ok (a, t) => (f a).run t
    | .error p => .error p⟩

instance : Monad (Code σ) where
  pure := Code.pure
  bind := Code.bind

end Code

/-! ## Operations -/

def panic (p : Panic) : Code σ α := ⟨fun _ => .error p⟩

/-- Read the state. -/
def read (f : σ → α) : Code σ α := ⟨fun s => .ok (f s, s)⟩

/-- Change the state. -/
def write (f : σ → σ) : Code σ Unit := ⟨fun s => .ok ((), f s)⟩

/-- `a + b`, unsigned. -/
def add (a b : Nat) : Code σ Nat := if a + b < 2 ^ 64 then pure (a + b) else panic .overflow

/-- `a - b`, unsigned. -/
def sub (a b : Nat) : Code σ Nat := if b ≤ a then pure (a - b) else panic .overflow

/-- `a * b`, unsigned. -/
def mul (a b : Nat) : Code σ Nat := if a * b < 2 ^ 64 then pure (a * b) else panic .overflow

/-- `a / b`. -/
def div (a b : Nat) : Code σ Nat := if b = 0 then panic .zero else pure (a / b)

/-- `a % b`. -/
def rem (a b : Nat) : Code σ Nat := if b = 0 then panic .zero else pure (a % b)

/-- The range of a signed integer. -/
def Signed (i : Int) : Prop := -2 ^ 63 ≤ i ∧ i < 2 ^ 63

instance : DecidablePred Signed := fun _ => inferInstanceAs (Decidable (_ ∧ _))

/-- `a + b`, signed. -/
def addSigned (a b : Int) : Code σ Int :=
  if Signed (a + b) then pure (a + b) else panic .overflow

/-- `a - b`, signed. -/
def subSigned (a b : Int) : Code σ Int :=
  if Signed (a - b) then pure (a - b) else panic .overflow

/-- `n as isize`. -/
def toSigned (n : Nat) : Int := if n < 2 ^ 63 then n else n - 2 ^ 64

/-- `i as usize`. -/
def toUnsigned (i : Int) : Nat := (i % 2 ^ 64).toNat

/-- `l[i]`. -/
def item (l : List α) (i : Nat) : Code σ α :=
  match l[i]? with
  | some a => pure a
  | none => panic .index

/-- `l[i] = a`. -/
def setItem (l : List α) (i : Nat) (a : α) : Code σ (List α) :=
  if i < l.length then pure (l.set i a) else panic .index

/-- `insert(i, a)`. -/
def insertItem (l : List α) (i : Nat) (a : α) : Code σ (List α) :=
  if i ≤ l.length then pure (l.insertIdx i a) else panic .index

/-- `unwrap`. -/
def unwrap : Option α → Code σ α
  | some a => pure a
  | none => panic .missing

/-- Run `f` on every element. -/
def each (f : α → Code σ Unit) : List α → Code σ Unit
  | [] => pure ()
  | a :: as => f a >>= fun _ => each f as

/-- Run `f` on every element, each time with what the one before it returned. -/
def fold (f : β → α → Code σ β) : β → List α → Code σ β
  | b, [] => pure b
  | b, a :: as => f b a >>= fun b' => fold f b' as

/-- The numbers from `a` on, below `b`: `a..b`. -/
def upTo (a b : Nat) : List Nat := List.range' a (b - a)

theorem mem_upTo {a b n : Nat} : n ∈ upTo a b ↔ a ≤ n ∧ n < b := by
  unfold upTo
  rw [List.mem_range'_1]
  omega

/-! ## Operations that stay in range -/

section range

variable {a b : Nat} {i j : Int}

theorem returns_bind (a : α) (f : α → Code σ β) : (pure a : Code σ α) >>= f = f a := rfl

theorem add_eq (h : a + b < 2 ^ 64) : (add a b : Code σ Nat) = pure (a + b) := if_pos h

theorem sub_eq (h : b ≤ a) : (sub a b : Code σ Nat) = pure (a - b) := if_pos h

theorem mul_eq (h : a * b < 2 ^ 64) : (mul a b : Code σ Nat) = pure (a * b) := if_pos h

theorem div_eq (h : b ≠ 0) : (div a b : Code σ Nat) = pure (a / b) := if_neg h

theorem rem_eq (h : b ≠ 0) : (rem a b : Code σ Nat) = pure (a % b) := if_neg h

theorem addSigned_eq (h : Signed (i + j)) : (addSigned i j : Code σ Int) = pure (i + j) :=
  if_pos h

theorem subSigned_eq (h : Signed (i - j)) : (subSigned i j : Code σ Int) = pure (i - j) :=
  if_pos h

theorem toSigned_eq (h : a < 2 ^ 63) : toSigned a = a := if_pos h

theorem toUnsigned_eq (h0 : 0 ≤ i) (h : Signed i) : toUnsigned i = i.toNat := by
  unfold toUnsigned
  rw [Int.emod_eq_of_lt h0 (by unfold Signed at h; omega)]

theorem item_eq {l : List α} {x : α} (h : l[a]? = some x) : (item l a : Code σ α) = pure x := by
  unfold item
  rw [h]

theorem setItem_eq {l : List α} {x : α} (h : a < l.length) :
    (setItem l a x : Code σ (List α)) = pure (l.set a x) := if_pos h

theorem insertItem_eq {l : List α} {x : α} (h : a ≤ l.length) :
    (insertItem l a x : Code σ (List α)) = pure (l.insertIdx a x) := if_pos h

end range

/-! ## Code that does not panic -/

/-- From `I` the code returns, with a value in `Q` and a state in `I`. -/
def Keeps (I : σ → Prop) (x : Code σ α) (Q : α → Prop) : Prop :=
  ∀ s, I s → ∃ a t, x.run s = .ok (a, t) ∧ I t ∧ Q a

/-- The code may return `a`. -/
def Returns (x : Code σ α) (a : α) : Prop := ∃ s t, x.run s = .ok (a, t)

section rules

variable {I : σ → Prop} {P Q : α → Prop} {R : β → Prop}

theorem Keeps.pure {a : α} (h : Q a) : Keeps I (pure a) Q :=
  fun s hs => ⟨a, s, rfl, hs, h⟩

theorem Keeps.bind {x : Code σ α} {f : α → Code σ β} (hx : Keeps I x P)
    (hf : ∀ a, P a → Keeps I (f a) R) : Keeps I (x >>= f) R := by
  intro s hs
  obtain ⟨a, t, hrun, ht, ha⟩ := hx s hs
  obtain ⟨b, u, hrun', hu, hb⟩ := hf a ha t ht
  refine ⟨b, u, ?_, hu, hb⟩
  show (Code.bind x f).run s = _
  simp only [Code.bind, hrun, hrun']

/-- What the code returns is what it may return. -/
theorem Keeps.returns {x : Code σ α} (h : Keeps I x Q) :
    Keeps I x fun a => Q a ∧ Returns x a := by
  intro s hs
  obtain ⟨a, t, hrun, ht, ha⟩ := h s hs
  exact ⟨a, t, hrun, ht, ha, s, t, hrun⟩

theorem Keeps.mono {x : Code σ α} (h : Keeps I x P) (hPQ : ∀ a, P a → Q a) : Keeps I x Q := by
  intro s hs
  obtain ⟨a, t, hrun, ht, ha⟩ := h s hs
  exact ⟨a, t, hrun, ht, hPQ a ha⟩

/-- First `x`, whose value does not matter, and then `y`. -/
theorem Keeps.andThen {x : Code σ α} {y : Code σ β} (hx : Keeps I x fun _ => True)
    (hy : Keeps I y R) : Keeps I (x >>= fun _ => y) R :=
  hx.bind fun _ _ => hy

theorem Keeps.ite {c : Prop} [Decidable c] {x y : Code σ α} (hx : c → Keeps I x Q)
    (hy : ¬ c → Keeps I y Q) : Keeps I (if c then x else y) Q := by
  by_cases hc : c
  · rw [if_pos hc]
    exact hx hc
  · rw [if_neg hc]
    exact hy hc

theorem Keeps.read {f : σ → α} : Keeps I (read f) fun a => ∃ s, I s ∧ a = f s :=
  fun s hs => ⟨f s, s, rfl, hs, s, hs, rfl⟩

theorem Keeps.write {f : σ → σ} (h : ∀ s, I s → I (f s)) : Keeps I (write f) fun _ => True :=
  fun s hs => ⟨(), f s, rfl, h s hs, trivial⟩

theorem Keeps.each {f : α → Code σ Unit} {l : List α}
    (h : ∀ a ∈ l, Keeps I (f a) fun _ => True) : Keeps I (each f l) fun _ => True := by
  induction l with
  | nil => exact .pure trivial
  | cons a l ih =>
      exact (h a List.mem_cons_self).andThen (ih fun b hb => h b (List.mem_cons_of_mem a hb))

theorem Keeps.fold {f : β → α → Code σ β} {l : List α} {b : β} (hb : R b)
    (h : ∀ b, ∀ a ∈ l, R b → Keeps I (f b a) R) : Keeps I (fold f b l) R := by
  induction l generalizing b with
  | nil => exact .pure hb
  | cons a l ih =>
      refine (h b a List.mem_cons_self hb).bind fun b' hb' => ?_
      exact ih hb' fun c x hx => h c x (List.mem_cons_of_mem a hx)

end rules

end Checked
