import Mathlib.Tactic.Common

/-!
# Transactions with rollback

A transaction body reads and writes one state and ends with a value or with an
error.  Writes made before an error are visible to the rest of the body only:
`atomically` puts the old state back, as a database does when a transaction is
dropped without a commit.

The lemmas invert a successful run one statement at a time.  They are the whole
interface: a body written with the operations below is taken apart by
`simp only [tx]`-style rewriting with the `…_ok` lemmas, never by unfolding
the monad.
-/

namespace Transaction

/-- A transaction body over states `σ`, errors `ε` and results `α`. -/
structure Tx (σ ε α : Type) where
  run : σ → Except ε α × σ

namespace Tx

variable {σ ε α β : Type}

protected def pure (a : α) : Tx σ ε α := ⟨fun s => (.ok a, s)⟩

/-- Run `x`, and go on with its value; an error of `x` ends the body. -/
protected def bind (x : Tx σ ε α) (f : α → Tx σ ε β) : Tx σ ε β :=
  ⟨fun s => match x.run s with
    | (.ok a, t) => (f a).run t
    | (.error e, t) => (.error e, t)⟩

instance : Monad (Tx σ ε) where
  pure := Tx.pure
  bind := Tx.bind

/-- End the body with an error. -/
def fail (e : ε) : Tx σ ε α := ⟨fun s => (.error e, s)⟩

/-- End the body with `e` when `c` holds. -/
def bailIf (c : Prop) [Decidable c] (e : ε) : Tx σ ε Unit :=
  if c then fail e else pure ()

/-- Take a pure computation that may fail into the body. -/
def ofExcept : Except ε α → Tx σ ε α
  | .ok a => pure a
  | .error e => fail e

/-- The row of a query that must have one. -/
def expect (e : ε) : Option α → Tx σ ε α
  | some a => pure a
  | none => fail e

/-- A query: it reads the state and changes nothing. -/
def query (f : σ → α) : Tx σ ε α := ⟨fun s => (.ok (f s), s)⟩

/-- A write statement that cannot fail. -/
def write (f : σ → σ) : Tx σ ε Unit := ⟨fun s => (.ok (), f s)⟩

/-- A write statement that a constraint may refuse. -/
def attempt (e : ε) (f : σ → Option σ) : Tx σ ε Unit :=
  ⟨fun s => match f s with
    | some t => (.ok (), t)
    | none => (.error e, s)⟩

/-- Commit when the body succeeds, roll every write back when it fails. -/
def atomically (x : Tx σ ε α) : Tx σ ε α :=
  ⟨fun s => match x.run s with
    | (.ok a, t) => (.ok a, t)
    | (.error e, _) => (.error e, s)⟩

/-- Report the errors of `x` under other names. -/
def mapError {ε' : Type} (convert : ε → ε') (x : Tx σ ε α) : Tx σ ε' α :=
  ⟨fun s => match x.run s with
    | (.ok a, t) => (.ok a, t)
    | (.error e, t) => (.error (convert e), t)⟩

/-! ## Inverting a successful run -/

@[simp] theorem bind_ok {x : Tx σ ε α} {f : α → Tx σ ε β} {s t : σ} {b : β} :
    (x >>= f).run s = (.ok b, t) ↔
      ∃ a u, x.run s = (.ok a, u) ∧ (f a).run u = (.ok b, t) := by
  show (Tx.bind x f).run s = (.ok b, t) ↔ _
  unfold Tx.bind
  rcases hx : x.run s with ⟨_ | a, u⟩ <;> simp [hx]

@[simp] theorem pure_ok {a b : α} {s t : σ} :
    (pure a : Tx σ ε α).run s = (.ok b, t) ↔ a = b ∧ s = t := by
  show (Tx.pure a : Tx σ ε α).run s = (.ok b, t) ↔ _
  simp [Tx.pure]

@[simp] theorem fail_ok {e : ε} {a : α} {s t : σ} :
    (fail e : Tx σ ε α).run s = (.ok a, t) ↔ False := by
  simp [fail]

@[simp] theorem bailIf_ok {c : Prop} [Decidable c] {e : ε} {s t : σ} {u : Unit} :
    (bailIf c e : Tx σ ε Unit).run s = (.ok u, t) ↔ ¬ c ∧ s = t := by
  unfold bailIf
  split <;> simp_all

@[simp] theorem ofExcept_ok {x : Except ε α} {a : α} {s t : σ} :
    (ofExcept x : Tx σ ε α).run s = (.ok a, t) ↔ x = .ok a ∧ s = t := by
  cases x <;> simp [ofExcept]

@[simp] theorem expect_ok {e : ε} {o : Option α} {a : α} {s t : σ} :
    (expect e o : Tx σ ε α).run s = (.ok a, t) ↔ o = some a ∧ s = t := by
  cases o <;> simp [expect]

@[simp] theorem query_ok {f : σ → α} {a : α} {s t : σ} :
    (query f : Tx σ ε α).run s = (.ok a, t) ↔ f s = a ∧ s = t := by
  simp [query]

@[simp] theorem write_ok {f : σ → σ} {s t : σ} {u : Unit} :
    (write f : Tx σ ε Unit).run s = (.ok u, t) ↔ f s = t := by
  simp [write]

@[simp] theorem attempt_ok {e : ε} {f : σ → Option σ} {s t : σ} {u : Unit} :
    (attempt e f : Tx σ ε Unit).run s = (.ok u, t) ↔ f s = some t := by
  unfold attempt
  cases hf : f s <;> simp [hf]

@[simp] theorem atomically_ok {x : Tx σ ε α} {a : α} {s t : σ} :
    (atomically x).run s = (.ok a, t) ↔ x.run s = (.ok a, t) := by
  unfold atomically
  rcases hx : x.run s with ⟨_ | a, u⟩ <;> simp [hx]

@[simp] theorem mapError_ok {ε' : Type} {convert : ε → ε'} {x : Tx σ ε α} {a : α} {s t : σ} :
    (mapError convert x).run s = (.ok a, t) ↔ x.run s = (.ok a, t) := by
  unfold mapError
  rcases hx : x.run s with ⟨_ | a, u⟩ <;> simp [hx]

/-! ## Running one statement -/

theorem run_query_bind (f : σ → α) (g : α → Tx σ ε β) (s : σ) :
    (query f >>= g).run s = (g (f s)).run s := rfl

theorem run_write_bind (f : σ → σ) (g : Unit → Tx σ ε β) (s : σ) :
    (write f >>= g).run s = (g ()).run (f s) := rfl

theorem run_expect_bind (e : ε) (a : α) (g : α → Tx σ ε β) (s : σ) :
    (expect e (some a) >>= g).run s = (g a).run s := rfl

theorem run_pure (a : α) (s : σ) : (pure a : Tx σ ε α).run s = (.ok a, s) := rfl

/-- A statement that succeeds hands its value and its state on. -/
theorem run_bind_of_ok {x : Tx σ ε α} {s t : σ} {a : α} (h : x.run s = (.ok a, t))
    (g : α → Tx σ ε β) : (x >>= g).run s = (g a).run t := by
  show (match x.run s with
    | (.ok a, t) => (g a).run t
    | (.error e, t) => (.error e, t)) = _
  rw [h]

/-- A statement that fails ends the body. -/
theorem run_bind_of_error {x : Tx σ ε α} {s t : σ} {e : ε} (h : x.run s = (.error e, t))
    (g : α → Tx σ ε β) : (x >>= g).run s = (.error e, t) := by
  show (match x.run s with
    | (.ok a, t) => (g a).run t
    | (.error e, t) => (.error e, t)) = _
  rw [h]

/-! ## What a failed run leaves behind -/

/-- A failed run of `x` leaves the state as it was. -/
def Harmless (x : Tx σ ε α) : Prop :=
  ∀ s e, (x.run s).1 = .error e → (x.run s).2 = s

/-- `x` never changes the state. -/
def ReadOnly (x : Tx σ ε α) : Prop :=
  ∀ s, (x.run s).2 = s

theorem ReadOnly.harmless {x : Tx σ ε α} (h : ReadOnly x) : Harmless x :=
  fun s _ _ => h s

theorem ReadOnly.ok {x : Tx σ ε α} (h : ReadOnly x) {s t : σ} {a : α}
    (hx : x.run s = (.ok a, t)) : s = t := by
  have hs := h s
  rw [hx] at hs
  exact hs.symm

theorem ReadOnly.bind {x : Tx σ ε α} {f : α → Tx σ ε β}
    (hx : ReadOnly x) (hf : ∀ a, ReadOnly (f a)) : ReadOnly (x >>= f) := by
  intro s
  show ((Tx.bind x f).run s).2 = s
  have hs := hx s
  unfold Tx.bind
  rcases h : x.run s with ⟨_ | a, u⟩
  · simpa [h] using hs
  · have hu : u = s := by simpa [h] using hs
    subst hu
    simpa [h] using hf a u

theorem ReadOnly.ite {c : Prop} [Decidable c] {x y : Tx σ ε α}
    (hx : ReadOnly x) (hy : ReadOnly y) : ReadOnly (if c then x else y) := by
  split
  · exact hx
  · exact hy

theorem readOnly_fail (e : ε) : ReadOnly (fail e : Tx σ ε α) := fun _ => rfl

theorem readOnly_bailIf (c : Prop) [Decidable c] (e : ε) :
    ReadOnly (bailIf c e : Tx σ ε Unit) := by
  intro s
  unfold bailIf
  split <;> rfl

theorem readOnly_ofExcept (x : Except ε α) : ReadOnly (ofExcept x : Tx σ ε α) := by
  intro s
  cases x <;> rfl

theorem readOnly_expect (e : ε) (o : Option α) : ReadOnly (expect e o : Tx σ ε α) := by
  intro s
  cases o <;> rfl

theorem readOnly_query (f : σ → α) : ReadOnly (query f : Tx σ ε α) := fun _ => rfl

theorem readOnly_pure (a : α) : ReadOnly (pure a : Tx σ ε α) := fun _ => rfl

/-- Rollback makes every body harmless. -/
theorem harmless_atomically (x : Tx σ ε α) : Harmless (atomically x) := by
  intro s e
  unfold atomically
  rcases hx : x.run s with ⟨_ | a, u⟩ <;> simp [hx]

/-- Checks in front of a harmless body keep it harmless. -/
theorem ReadOnly.bind_harmless {x : Tx σ ε α} {f : α → Tx σ ε β}
    (hx : ReadOnly x) (hf : ∀ a, Harmless (f a)) : Harmless (x >>= f) := by
  intro s e
  show ((Tx.bind x f).run s).1 = _ → ((Tx.bind x f).run s).2 = _
  have hs := hx s
  unfold Tx.bind
  rcases h : x.run s with ⟨_ | a, u⟩
  · intro _
    simpa [h] using hs
  · have hu : u = s := by simpa [h] using hs
    subst hu
    simpa [h] using hf a u e

/-- Dropping the value of a harmless body keeps it harmless. -/
theorem Harmless.discard {x : Tx σ ε α} (h : Harmless x) :
    Harmless (x >>= fun _ => (pure () : Tx σ ε Unit)) := by
  intro s e
  show ((Tx.bind x fun _ => Tx.pure ()).run s).1 = _ → ((Tx.bind x fun _ => Tx.pure ()).run s).2 = _
  have hs := h s
  unfold Tx.bind
  rcases hx : x.run s with ⟨e' | a, u⟩
  · intro _
    simpa [hx] using hs
  · simp [hx, Tx.pure]

/-- The two outcomes of a harmless body: it commits, or it leaves no trace. -/
theorem Harmless.outcome {x : Tx σ ε α} (h : Harmless x) (s : σ) :
    (∃ a, x.run s = (.ok a, (x.run s).2)) ∨ (x.run s).2 = s := by
  rcases hx : x.run s with ⟨e | a, t⟩
  · exact Or.inr (by simpa [hx] using h s e (by rw [hx]))
  · exact Or.inl ⟨a, rfl⟩

/-! ## What every run keeps -/

/-- A run of `x` keeps `P`, whatever it ends with. -/
def Preserves (P : σ → Prop) (x : Tx σ ε α) : Prop := ∀ s, P s → P (x.run s).2

theorem ReadOnly.preserves {x : Tx σ ε α} (h : ReadOnly x) (P : σ → Prop) : Preserves P x :=
  fun s hs => (h s).symm ▸ hs

theorem Preserves.bind {P : σ → Prop} {x : Tx σ ε α} {f : α → Tx σ ε β} (hx : Preserves P x)
    (hf : ∀ a, Preserves P (f a)) : Preserves P (x >>= f) := by
  intro s hs
  have hafter := hx s hs
  rcases h : x.run s with ⟨e | a, t⟩
  · rw [run_bind_of_error h]
    rw [h] at hafter
    exact hafter
  · rw [run_bind_of_ok h]
    rw [h] at hafter
    exact hf a t hafter

theorem Preserves.mapError {ε' : Type} {P : σ → Prop} {x : Tx σ ε α} (h : Preserves P x)
    (convert : ε → ε') : Preserves P (Tx.mapError convert x) := by
  intro s hs
  have hafter := h s hs
  unfold Tx.mapError
  rcases hx : x.run s with ⟨e | a, t⟩ <;> rw [hx] at hafter <;> simpa [hx] using hafter

theorem ReadOnly.mapError {ε' : Type} {x : Tx σ ε α} (h : ReadOnly x) (convert : ε → ε') :
    ReadOnly (Tx.mapError convert x) := by
  intro s
  have hafter := h s
  unfold Tx.mapError
  rcases hx : x.run s with ⟨e | a, t⟩ <;> rw [hx] at hafter <;> simpa [hx] using hafter

/-! ## Errors a run does not end with -/

/-- From `s`, `x` does not end with the error `e`. -/
def Avoids (x : Tx σ ε α) (e : ε) (s : σ) : Prop := (x.run s).1 ≠ .error e

section avoids

variable {e : ε} {s : σ}

theorem Avoids.bind {x : Tx σ ε α} {f : α → Tx σ ε β} (hx : Avoids x e s)
    (hf : ∀ a t, x.run s = (.ok a, t) → Avoids (f a) e t) : Avoids (x >>= f) e s := by
  show ((Tx.bind x f).run s).1 ≠ _
  unfold Avoids at hx hf
  unfold Tx.bind
  rcases h : x.run s with ⟨e' | a, t⟩
  · simpa [h] using hx
  · simpa [h] using hf a t h

theorem Avoids.ite {c : Prop} [Decidable c] {x y : Tx σ ε α} (hx : c → Avoids x e s)
    (hy : ¬ c → Avoids y e s) : Avoids (if c then x else y) e s := by
  split
  · rename_i hc
    exact hx hc
  · rename_i hc
    exact hy hc

theorem Avoids.atomically {x : Tx σ ε α} (hx : Avoids x e s) : Avoids (Tx.atomically x) e s := by
  unfold Avoids at *
  unfold Tx.atomically
  rcases h : x.run s with ⟨e' | a, t⟩
  · simpa [h] using hx
  · simp [h]

theorem avoids_pure (a : α) : Avoids (pure a : Tx σ ε α) e s := nofun

theorem avoids_query (f : σ → α) : Avoids (query f : Tx σ ε α) e s := nofun

theorem avoids_write (f : σ → σ) : Avoids (write f : Tx σ ε Unit) e s := nofun

theorem avoids_fail {e' : ε} (h : e' ≠ e) : Avoids (fail e' : Tx σ ε α) e s :=
  fun heq => h (Except.error.inj heq)

theorem avoids_expect {e' : ε} (h : e' ≠ e) (o : Option α) : Avoids (expect e' o) e s := by
  cases o with
  | none => exact avoids_fail h
  | some a => exact avoids_pure a

theorem avoids_bailIf {c : Prop} [Decidable c] {e' : ε} (h : c → e' ≠ e) :
    Avoids (bailIf c e' : Tx σ ε Unit) e s :=
  Avoids.ite (fun hc => avoids_fail (h hc)) fun _ => avoids_pure ()

theorem avoids_attempt {e' : ε} (h : e' ≠ e) (f : σ → Option σ) :
    Avoids (attempt e' f : Tx σ ε Unit) e s := by
  unfold Avoids attempt
  cases hf : f s with
  | none => simpa [hf] using h
  | some t => simp [hf]

theorem avoids_ofExcept {x : Except ε α} (h : x ≠ .error e) : Avoids (ofExcept x : Tx σ ε α) e s := by
  cases x with
  | error e' => exact avoids_fail fun heq => h (congrArg _ heq)
  | ok a => exact avoids_pure a

end avoids

end Tx

end Transaction
