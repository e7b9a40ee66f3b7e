import CodexMonitor.Lib.Table
import CodexMonitor.Lib.Transaction

/-!
# Two runs side by side

`Tx.Agree Q x y s t` runs `x` from `s` and `y` from `t` and says that both fail
with the same error, or both succeed and `Q` holds of their values and states.
The rules take two bodies apart one statement at a time.  Tables agree on some
of their rows when they hold the same ones; what a query answers from such rows
is then the same.
-/

namespace Transaction.Tx

variable {σ ε ε' α β γ δ : Type}

/-- The same error, or values and states that `Q` relates. -/
def Agree (Q : α → σ → β → σ → Prop) (x : Tx σ ε α) (y : Tx σ ε β) (s t : σ) : Prop :=
  match x.run s, y.run t with
  | (.ok a, s'), (.ok b, t') => Q a s' b t'
  | (.error e, _), (.error e', _) => e = e'
  | _, _ => False

section agree

variable {Q : α → σ → β → σ → Prop} {R : γ → σ → δ → σ → Prop}
variable {x : Tx σ ε α} {y : Tx σ ε β} {f : α → Tx σ ε γ} {g : β → Tx σ ε δ} {s t : σ}

theorem Agree.bind (h : Agree Q x y s t)
    (hnext : ∀ a s' b t', Q a s' b t' → Agree R (f a) (g b) s' t') :
    Agree R (x >>= f) (y >>= g) s t := by
  unfold Agree at h
  rcases hx : x.run s with ⟨e | a, s'⟩ <;> rcases hy : y.run t with ⟨e' | b, t'⟩ <;>
    rw [hx, hy] at h
  · unfold Agree
    rw [run_bind_of_error hx, run_bind_of_error hy]
    exact h
  · exact h.elim
  · exact h.elim
  · have hrest := hnext a s' b t' h
    unfold Agree at hrest ⊢
    rw [run_bind_of_ok hx, run_bind_of_ok hy]
    exact hrest

/-- Two bodies that agree on their values answer the same. -/
theorem Agree.answer {x y : Tx σ ε α} (h : Agree (fun a _ b _ => a = b) x y s t) :
    (x.run s).1 = (y.run t).1 := by
  unfold Agree at h
  rcases hx : x.run s with ⟨e | a, s'⟩ <;> rcases hy : y.run t with ⟨e' | b, t'⟩ <;>
    rw [hx, hy] at h
  · exact congrArg Except.error h
  · exact h.elim
  · exact h.elim
  · exact congrArg Except.ok h

theorem agree_pure {a : α} {b : β} (h : Q a s b t) : Agree Q (pure a) (pure b : Tx σ ε β) s t := h

/-- A query; the rest goes on with what each run reads. -/
theorem agree_query {p : σ → α} {q : σ → β} (h : Agree R (f (p s)) (g (q t)) s t) :
    Agree R (query p >>= f) (query q >>= g) s t := h

/-- A check that fires in both runs or in none. -/
theorem agree_check {c d : Prop} [Decidable c] [Decidable d] {e : ε} {f : Unit → Tx σ ε γ}
    {g : Unit → Tx σ ε δ} (hiff : c ↔ d) (h : ¬ c → Agree R (f ()) (g ()) s t) :
    Agree R (bailIf c e >>= f) (bailIf d e >>= g) s t := by
  unfold bailIf
  by_cases hc : c
  · rw [if_pos hc, if_pos (hiff.mp hc)]
    exact rfl
  · rw [if_neg hc, if_neg fun hd => hc (hiff.mpr hd)]
    exact h hc

/-- A row that both runs have or neither. -/
theorem agree_expect {e : ε} {o : Option α} {o' : Option β} (hnone : o = none ↔ o' = none)
    (h : ∀ a b, o = some a → o' = some b → Agree R (f a) (g b) s t) :
    Agree R (expect e o >>= f) (expect e o' >>= g) s t := by
  cases o with
  | none =>
      rw [hnone.mp rfl]
      exact rfl
  | some a =>
      cases o' with
      | none => exact absurd (hnone.mpr rfl) (Option.some_ne_none a)
      | some b => exact h a b rfl rfl

/-- A pure computation that both runs do. -/
theorem agree_ofExcept {v : Except ε α} {f : α → Tx σ ε γ} {g : α → Tx σ ε δ}
    (h : ∀ a, v = .ok a → Agree R (f a) (g a) s t) :
    Agree R (ofExcept v >>= f) (ofExcept v >>= g) s t := by
  cases v with
  | error e => exact rfl
  | ok a => exact h a rfl

/-- A write that both runs admit. -/
theorem agree_attempt {e : ε} {w w' : σ → Option σ} {s' t' : σ} {f : Unit → Tx σ ε γ}
    {g : Unit → Tx σ ε δ} (hs : w s = some s') (ht : w' t = some t')
    (h : Agree R (f ()) (g ()) s' t') :
    Agree R (attempt e w >>= f) (attempt e w' >>= g) s t := by
  have hsrun : (attempt e w).run s = (.ok (), s') := attempt_ok.mpr hs
  have htrun : (attempt e w').run t = (.ok (), t') := attempt_ok.mpr ht
  unfold Agree at h ⊢
  rw [run_bind_of_ok hsrun, run_bind_of_ok htrun]
  exact h

/-- A rolled-back error is the same error. -/
theorem Agree.atomically (h : Agree Q x y s t) :
    Agree Q (Tx.atomically x) (Tx.atomically y) s t := by
  unfold Agree Tx.atomically at *
  rcases hx : x.run s with ⟨e | a, s'⟩ <;> rcases hy : y.run t with ⟨e' | b, t'⟩ <;>
    simp only [hx, hy] at h ⊢ <;> exact h

/-- The same error is the same under another name. -/
theorem Agree.mapError (h : Agree Q x y s t) (convert : ε → ε') :
    Agree Q (Tx.mapError convert x) (Tx.mapError convert y) s t := by
  unfold Agree Tx.mapError at *
  rcases hx : x.run s with ⟨e | a, s'⟩ <;> rcases hy : y.run t with ⟨e' | b, t'⟩ <;>
    simp only [hx, hy] at h ⊢
  · exact congrArg convert h
  · exact h

end agree

end Transaction.Tx

namespace Table

variable {ρ : Type} [Schema ρ] {p q : ρ → Prop} {t u : Table ρ}

/-- The tables hold the same rows of those that meet `p`. -/
def AgreeOn (p : ρ → Prop) (t u : Table ρ) : Prop := ∀ r, p r → (r ∈ t ↔ r ∈ u)

theorem AgreeOn.symm (h : AgreeOn p t u) : AgreeOn p u t := fun r hr => (h r hr).symm

section agreement

variable [DecidablePred q]

/-- A look-up that can only find rows of the kind finds the same row. -/
theorem AgreeOn.find? (h : AgreeOn p t u) (hsub : ∀ r, q r → p r)
    (huniq : ∀ a b, a ∈ u → b ∈ u → q a → q b → a = b) : t.find? q = u.find? q := by
  cases ht : t.find? q with
  | some r =>
      obtain ⟨hr, hq⟩ := find?_some ht
      have hru := (h r (hsub r hq)).mp hr
      exact (find?_eq_of_unique hru hq fun a ha hqa => huniq a r ha hru hqa hq).symm
  | none =>
      cases hu : u.find? q with
      | none => rfl
      | some r =>
          obtain ⟨hr, hq⟩ := find?_some hu
          exact absurd hq (find?_none.mp ht r ((h r (hsub r hq)).mpr hr))

/-- Rows that a growing number orders stand in the same order in both tables. -/
theorem AgreeOn.filter (h : AgreeOn p t u) (hsub : ∀ r, q r → p r) (seq : ρ → Nat)
    (hseq : ∀ v : Table ρ, v.rows.Pairwise fun a b => seq a < seq b) :
    t.rows.filter q = u.rows.filter q := by
  have : Std.Irrefl fun a b : ρ => seq a < seq b := ⟨fun a => lt_irrefl (seq a)⟩
  have : Std.Asymm fun a b : ρ => seq a < seq b := ⟨fun _ _ hab hba => lt_asymm hab hba⟩
  refine List.Pairwise.eq_of_mem_iff ((hseq t).filter _) ((hseq u).filter _) fun r => ?_
  simp only [List.mem_filter, decide_eq_true_eq]
  constructor
  · intro hr
    exact ⟨(h r (hsub r hr.2)).mp hr.1, hr.2⟩
  · intro hr
    exact ⟨(h r (hsub r hr.2)).mpr hr.1, hr.2⟩

/-- So a sorted query answers the same. -/
theorem AgreeOn.select {le : ρ → ρ → Prop} [DecidableRel le]
    (h : t.rows.filter q = u.rows.filter q) : t.select q le = u.select q le := by
  unfold Table.select
  rw [h]

theorem AgreeOn.count (h : t.rows.filter q = u.rows.filter q) : t.count q = u.count q := by
  unfold Table.count
  rw [List.countP_eq_length_filter, List.countP_eq_length_filter, h]

end agreement

end Table
