import Mathlib.Tactic.Common

/-!
# Programs that may fail or stop at every operation

Each operation of a program has a place.  A plan says what happens at every place:
the operation runs, it fails and changes nothing, or the process stops there.  A
program that stops runs no handler, so what it leaves behind is all a later process
finds.

`Spec` is the rule of such programs: from states in `P` a program that is done ends
in `Q`, and one that fails or stops leaves a state in `E`.
-/

namespace Faults

/-- What happens to an operation. -/
inductive Fault
  | none
  | error
  | stop
deriving DecidableEq, Repr

/-- How a program ends. -/
inductive Outcome (ε α : Type)
  | done (a : α)
  | failed (e : ε)
  | stopped
deriving DecidableEq, Repr

/-- The error of a program that failed. -/
def Outcome.error? {ε α : Type} : Outcome ε α → Option ε
  | .failed e => some e
  | _ => none

/-- The program is done. -/
def Outcome.isDone {ε α : Type} : Outcome ε α → Bool
  | .done _ => true
  | _ => false

theorem Outcome.exists_of_isDone {ε α : Type} {o : Outcome ε α} (h : o.isDone = true) :
    ∃ a, o = .done a := by
  cases o with
  | done a => exact ⟨a, rfl⟩
  | failed e => cases h
  | stopped => cases h

/-- A program over places `κ`, states `σ`, errors `ε` and results `α`. -/
structure Prog (κ σ ε α : Type) where
  run : (κ → Fault) → σ → Outcome ε α × σ

namespace Prog

variable {κ σ ε α β : Type}

protected def pure (a : α) : Prog κ σ ε α := ⟨fun _ s => (.done a, s)⟩

/-- Run `x`, and go on with its value when it is done. -/
protected def bind (x : Prog κ σ ε α) (f : α → Prog κ σ ε β) : Prog κ σ ε β :=
  ⟨fun plan s => match x.run plan s with
    | (.done a, t) => (f a).run plan t
    | (.failed e, t) => (.failed e, t)
    | (.stopped, t) => (.stopped, t)⟩

instance : Monad (Prog κ σ ε) where
  pure := Prog.pure
  bind := Prog.bind

/-- Read the state. -/
def read (f : σ → α) : Prog κ σ ε α := ⟨fun _ s => (.done (f s), s)⟩

/-- A pure computation that may fail. -/
def ofExcept : Except ε α → Prog κ σ ε α
  | .ok a => ⟨fun _ s => (.done a, s)⟩
  | .error e => ⟨fun _ s => (.failed e, s)⟩

/-- Fail with `e` when `c` holds. -/
def bailIf (c : Prop) [Decidable c] (e : ε) : Prog κ σ ε Unit :=
  ofExcept (if c then .error e else .ok ())

/-- An operation at a place; `e` is its error when the plan makes it fail. -/
def op (place : κ) (e : ε) (f : σ → Except ε (α × σ)) : Prog κ σ ε α :=
  ⟨fun plan s => match plan place with
    | .none => match f s with
      | .ok (a, t) => (.done a, t)
      | .error e => (.failed e, s)
    | .error => (.failed e, s)
    | .stop => (.stopped, s)⟩

/-- An operation that writes. -/
def write (place : κ) (e : ε) (f : σ → σ) : Prog κ σ ε Unit :=
  op place e fun s => .ok ((), f s)

/-- An operation that changes nothing the program reads back. -/
def probe (place : κ) (e : ε) : Prog κ σ ε Unit := write place e fun s => s

/-- A note that nothing can interrupt. -/
def tell (f : σ → σ) : Prog κ σ ε Unit := ⟨fun _ s => (.done (), f s)⟩

/-- Take the error of `x` as a value. -/
def caught (x : Prog κ σ ε α) : Prog κ σ ε (Except ε α) :=
  ⟨fun plan s => match x.run plan s with
    | (.done a, t) => (.done (.ok a), t)
    | (.failed e, t) => (.done (.error e), t)
    | (.stopped, t) => (.stopped, t)⟩

/-- Run `f` on every element. -/
def each (f : α → Prog κ σ ε Unit) : List α → Prog κ σ ε Unit
  | [] => Prog.pure ()
  | a :: as => f a >>= fun _ => each f as

/-- Run `f` on every element whatever comes of the others; were they all done? -/
def tryEach (f : α → Prog κ σ ε Unit) : List α → Prog κ σ ε Bool
  | [] => Prog.pure true
  | a :: as => caught (f a) >>= fun result => tryEach f as >>= fun rest =>
      Prog.pure (result.isOk && rest)

/-- Run `handler` after `x` failed, and report the error of `x` whatever comes of it. -/
def onFailure (x : Prog κ σ ε α) (handler : Prog κ σ ε Unit) : Prog κ σ ε α :=
  ⟨fun plan s => match x.run plan s with
    | (.done a, t) => (.done a, t)
    | (.failed e, t) => match handler.run plan t with
      | (.stopped, u) => (.stopped, u)
      | (_, u) => (.failed e, u)
    | (.stopped, t) => (.stopped, t)⟩

/-- Run `cleanup` after `x`, done or failed, and end as `x` did whatever comes of it. -/
def andThen (x : Prog κ σ ε α) (cleanup : Prog κ σ ε Unit) : Prog κ σ ε α :=
  ⟨fun plan s => match x.run plan s with
    | (.stopped, t) => (.stopped, t)
    | (outcome, t) => match cleanup.run plan t with
      | (.stopped, u) => (.stopped, u)
      | (_, u) => (outcome, u)⟩

/-! ## Running one operation -/

section run

variable (plan : κ → Fault) (s : σ)

theorem run_bind (x : Prog κ σ ε α) (f : α → Prog κ σ ε β) :
    (x >>= f).run plan s = match x.run plan s with
      | (.done a, t) => (f a).run plan t
      | (.failed e, t) => (.failed e, t)
      | (.stopped, t) => (.stopped, t) := rfl

theorem run_op (place : κ) (e : ε) (f : σ → Except ε (α × σ)) :
    (op place e f).run plan s = match plan place with
      | .none => match f s with
        | .ok (a, t) => (.done a, t)
        | .error e => (.failed e, s)
      | .error => (.failed e, s)
      | .stop => (.stopped, s) := rfl

theorem run_write (place : κ) (e : ε) (f : σ → σ) :
    (write place e f).run plan s = match plan place with
      | .none => (.done (), f s)
      | .error => (.failed e, s)
      | .stop => (.stopped, s) := rfl

theorem run_onFailure (x : Prog κ σ ε α) (handler : Prog κ σ ε Unit) :
    (onFailure x handler).run plan s = match x.run plan s with
      | (.done a, t) => (.done a, t)
      | (.failed e, t) => match handler.run plan t with
        | (.stopped, u) => (.stopped, u)
        | (_, u) => (.failed e, u)
      | (.stopped, t) => (.stopped, t) := rfl

theorem run_andThen (x : Prog κ σ ε α) (cleanup : Prog κ σ ε Unit) :
    (andThen x cleanup).run plan s = match x.run plan s with
      | (.stopped, t) => (.stopped, t)
      | (outcome, t) => match cleanup.run plan t with
        | (.stopped, u) => (.stopped, u)
        | (_, u) => (outcome, u) := rfl

/-- A program that is done hands its value and its state on. -/
theorem run_bind_of_done {x : Prog κ σ ε α} {plan : κ → Fault} {s t : σ} {a : α}
    (h : x.run plan s = (.done a, t)) (f : α → Prog κ σ ε β) :
    (x >>= f).run plan s = (f a).run plan t := by
  rw [run_bind, h]

/-- What is done already needs no handler. -/
theorem run_onFailure_bind {x : Prog κ σ ε α} {plan : κ → Fault} {s t : σ} {a : α}
    (h : x.run plan s = (.done a, t)) (f : α → Prog κ σ ε β) (handler : Prog κ σ ε Unit) :
    (onFailure (x >>= f) handler).run plan s = (onFailure (f a) handler).run plan t := by
  rw [run_onFailure, run_bind_of_done h, run_onFailure]

end run

/-! ## Inverting a run that is done -/

section done

variable {plan : κ → Fault} {s t : σ}

@[simp] theorem bind_done {x : Prog κ σ ε α} {f : α → Prog κ σ ε β} {b : β} :
    (x >>= f).run plan s = (.done b, t) ↔
      ∃ a u, x.run plan s = (.done a, u) ∧ (f a).run plan u = (.done b, t) := by
  rw [run_bind]
  rcases x.run plan s with ⟨_ | _ | _, u⟩ <;> simp

@[simp] theorem pure_done {a b : α} :
    (pure a : Prog κ σ ε α).run plan s = (.done b, t) ↔ a = b ∧ s = t := by
  show (Prog.pure a : Prog κ σ ε α).run plan s = (.done b, t) ↔ _
  simp [Prog.pure]

@[simp] theorem read_done {f : σ → α} {a : α} :
    (read f : Prog κ σ ε α).run plan s = (.done a, t) ↔ f s = a ∧ s = t := by
  simp [read]

@[simp] theorem ofExcept_done {x : Except ε α} {a : α} :
    (ofExcept x : Prog κ σ ε α).run plan s = (.done a, t) ↔ x = .ok a ∧ s = t := by
  cases x <;> simp [ofExcept]

@[simp] theorem bailIf_done {c : Prop} [Decidable c] {e : ε} {u : Unit} :
    (bailIf c e : Prog κ σ ε Unit).run plan s = (.done u, t) ↔ ¬ c ∧ s = t := by
  unfold bailIf
  split <;> simp_all

@[simp] theorem op_done {place : κ} {e : ε} {f : σ → Except ε (α × σ)} {a : α} :
    (op place e f).run plan s = (.done a, t) ↔ plan place = .none ∧ f s = .ok (a, t) := by
  rw [run_op]
  cases plan place with
  | none => rcases f s with _ | ⟨b, u⟩ <;> simp
  | error => simp
  | stop => simp

@[simp] theorem write_done {place : κ} {e : ε} {f : σ → σ} {u : Unit} :
    (write place e f).run plan s = (.done u, t) ↔ plan place = .none ∧ f s = t := by
  simp [write]

@[simp] theorem onFailure_done {x : Prog κ σ ε α} {handler : Prog κ σ ε Unit} {a : α} :
    (onFailure x handler).run plan s = (.done a, t) ↔ x.run plan s = (.done a, t) := by
  rw [run_onFailure]
  rcases x.run plan s with ⟨b | e | _, u⟩
  · simp
  · rcases hh : handler.run plan u with ⟨_ | _ | _, v⟩ <;> simp [hh]
  · simp

theorem andThen_done {x : Prog κ σ ε α} {cleanup : Prog κ σ ε Unit} {a : α}
    (h : (andThen x cleanup).run plan s = (.done a, t)) :
    ∃ u, x.run plan s = (.done a, u) ∧ t = (cleanup.run plan u).2 := by
  rw [run_andThen] at h
  rcases hx : x.run plan s with ⟨b | e | _, u⟩
  · rcases hc : cleanup.run plan u with ⟨_ | _ | _, v⟩ <;> simp [hx, hc] at h
    all_goals exact ⟨u, by rw [h.1], by rw [hc, h.2]⟩
  · rcases hc : cleanup.run plan u with ⟨_ | _ | _, v⟩ <;> simp [hx, hc] at h
  · simp [hx] at h

end done

/-! ## Inverting a run that fails -/

section failed

variable {plan : κ → Fault} {s t : σ} {e : ε}

theorem bind_failed {x : Prog κ σ ε α} {f : α → Prog κ σ ε β} :
    (x >>= f).run plan s = (.failed e, t) ↔
      x.run plan s = (.failed e, t) ∨
        ∃ a u, x.run plan s = (.done a, u) ∧ (f a).run plan u = (.failed e, t) := by
  rw [run_bind]
  rcases x.run plan s with ⟨_ | _ | _, u⟩ <;> simp

theorem caught_not_failed {x : Prog κ σ ε α} : (caught x).run plan s ≠ (.failed e, t) := by
  unfold caught
  rcases hx : x.run plan s with ⟨_ | _ | _, u⟩ <;> simp [hx]

theorem tryEach_not_failed {f : α → Prog κ σ ε Unit} {as : List α} :
    (tryEach f as).run plan s ≠ (.failed e, t) := by
  induction as generalizing s with
  | nil => exact nofun
  | cons a as ih =>
      intro h
      rcases bind_failed.mp h with h | ⟨result, u, _, h⟩
      · exact caught_not_failed h
      · rcases bind_failed.mp h with h | ⟨rest, v, _, h⟩
        · exact ih h
        · cases h

end failed

/-! ## What a program leaves behind -/

/-- From `P` the program ends in `Q` when it is done, and leaves `E` when it fails or stops. -/
def Spec (P : σ → Prop) (x : Prog κ σ ε α) (Q : α → σ → Prop) (E : σ → Prop) : Prop :=
  ∀ plan s, P s → match x.run plan s with
    | (.done a, t) => Q a t
    | (_, t) => E t

/-- The program keeps `I`, however it ends. -/
def Keeps (I : σ → Prop) (x : Prog κ σ ε α) : Prop := Spec I x (fun _ => I) I

section rules

variable {P : σ → Prop} {Q : α → σ → Prop} {R : β → σ → Prop} {E I : σ → Prop}

theorem Spec.elim {x : Prog κ σ ε α} (h : Spec P x Q E) (plan : κ → Fault) {s : σ} (hs : P s) :
    (∃ a t, x.run plan s = (.done a, t) ∧ Q a t) ∨
      ((∀ a, (x.run plan s).1 ≠ .done a) ∧ E (x.run plan s).2) := by
  have hspec := h plan s hs
  rcases hx : x.run plan s with ⟨a | e | _, t⟩ <;> rw [hx] at hspec
  · exact Or.inl ⟨a, t, rfl, hspec⟩
  · exact Or.inr ⟨nofun, hspec⟩
  · exact Or.inr ⟨nofun, hspec⟩

theorem Keeps.state {x : Prog κ σ ε α} (h : Keeps I x) (plan : κ → Fault) {s : σ} (hs : I s) :
    I (x.run plan s).2 := by
  obtain ⟨a, t, hrun, ht⟩ | ⟨_, ht⟩ := Spec.elim h plan hs
  · rw [hrun]
    exact ht
  · exact ht

theorem Spec.bind {x : Prog κ σ ε α} {f : α → Prog κ σ ε β} (hx : Spec P x Q E)
    (hf : ∀ a, Spec (Q a) (f a) R E) : Spec P (x >>= f) R E := by
  intro plan s hs
  have hspec := hx plan s hs
  rw [run_bind]
  rcases hrun : x.run plan s with ⟨a | e | _, t⟩ <;> rw [hrun] at hspec
  · exact hf a plan t hspec
  · exact hspec
  · exact hspec

theorem Spec.mono {P' : σ → Prop} {Q' : α → σ → Prop} {E' : σ → Prop} {x : Prog κ σ ε α}
    (h : Spec P x Q E) (hP : ∀ s, P' s → P s) (hQ : ∀ a s, Q a s → Q' a s)
    (hE : ∀ s, E s → E' s) : Spec P' x Q' E' := by
  intro plan s hs
  have hspec := h plan s (hP s hs)
  rcases hrun : x.run plan s with ⟨a | e | _, t⟩ <;> rw [hrun] at hspec
  · exact hQ a t hspec
  · exact hE t hspec
  · exact hE t hspec

theorem Keeps.bind {x : Prog κ σ ε α} {f : α → Prog κ σ ε β} (hx : Keeps I x)
    (hf : ∀ a, Keeps I (f a)) : Keeps I (x >>= f) :=
  Spec.bind hx hf

theorem Keeps.pure (a : α) : Keeps I (pure a : Prog κ σ ε α) := fun _ _ hs => hs

theorem Keeps.read (f : σ → α) : Keeps I (read f : Prog κ σ ε α) := fun _ _ hs => hs

theorem Keeps.ofExcept (x : Except ε α) : Keeps I (ofExcept x : Prog κ σ ε α) := by
  intro plan s hs
  cases x <;> exact hs

theorem Keeps.bailIf (c : Prop) [Decidable c] (e : ε) :
    Keeps I (bailIf c e : Prog κ σ ε Unit) :=
  Keeps.ofExcept _

theorem Keeps.op {place : κ} {e : ε} {f : σ → Except ε (α × σ)}
    (h : ∀ s a t, I s → f s = .ok (a, t) → I t) : Keeps I (op place e f) := by
  intro plan s hs
  rw [run_op]
  cases plan place with
  | none =>
      rcases hf : f s with _ | ⟨a, t⟩
      · exact hs
      · exact h s a t hs hf
  | error => exact hs
  | stop => exact hs

theorem Keeps.write {place : κ} {e : ε} {f : σ → σ} (h : ∀ s, I s → I (f s)) :
    Keeps I (write place e f) := by
  refine Keeps.op fun s a t hs heq => ?_
  obtain rfl := (Prod.mk.inj (Except.ok.inj heq)).2
  exact h s hs

theorem Keeps.andThen {x : Prog κ σ ε α} {cleanup : Prog κ σ ε Unit} (hx : Keeps I x)
    (hc : Keeps I cleanup) : Keeps I (andThen x cleanup) := by
  intro plan s hs
  have hspec := hx.state plan hs
  rw [run_andThen]
  rcases hrun : x.run plan s with ⟨a | e | _, t⟩ <;> rw [hrun] at hspec
  · have hafter := hc.state plan hspec
    rcases hrun' : cleanup.run plan t with ⟨_ | _ | _, u⟩ <;> rw [hrun'] at hafter <;>
      simpa only [hrun'] using hafter
  · have hafter := hc.state plan hspec
    rcases hrun' : cleanup.run plan t with ⟨_ | _ | _, u⟩ <;> rw [hrun'] at hafter <;>
      simpa only [hrun'] using hafter
  · exact hspec

theorem Keeps.probe (place : κ) (e : ε) : Keeps I (probe place e : Prog κ σ ε Unit) :=
  Keeps.write fun _ hs => hs

theorem Spec.caught {x : Prog κ σ ε α} (h : Spec P x Q E) :
    Spec P (caught x) (fun result t => match result with | .ok a => Q a t | .error _ => E t) E := by
  intro plan s hs
  have hspec := h plan s hs
  unfold Prog.caught
  rcases hx : x.run plan s with ⟨_ | _ | _, u⟩ <;> rw [hx] at hspec <;> simpa [hx] using hspec

/-- The rule of a loop: `I` is carried from the elements that are done to one more. -/
theorem Spec.each {f : α → Prog κ σ ε Unit} {I : List α → σ → Prop} (as : List α)
    (h : ∀ past a rest, as = past ++ a :: rest →
      Spec (I past) (f a) (fun _ => I (past ++ [a])) E) :
    Spec (I []) (each f as) (fun _ => I as) E := by
  have hloop : ∀ rest past, as = past ++ rest → Spec (I past) (Prog.each f rest) (fun _ => I as) E := by
    intro rest
    induction rest with
    | nil =>
        intro past heq plan s hs
        rw [heq, List.append_nil]
        exact hs
    | cons a rest ih =>
        intro past heq
        refine (h past a rest heq).bind fun _ => ih (past ++ [a]) ?_
        rw [heq, List.append_assoc]
        rfl
  exact hloop as [] rfl

/-- In a loop that goes on after an error, an element ends done or failed. -/
theorem Spec.tryEach {f : α → Prog κ σ ε Unit} {I : List α → σ → Prop} (as : List α)
    (h : ∀ past a rest, as = past ++ a :: rest →
      Spec (I past) (f a) (fun _ => I (past ++ [a])) (I (past ++ [a])))
    (hE : ∀ past s, I past s → E s) :
    Spec (I []) (tryEach f as) (fun _ => I as) E := by
  have hloop : ∀ rest past, as = past ++ rest →
      Spec (I past) (Prog.tryEach f rest) (fun _ => I as) E := by
    intro rest
    induction rest with
    | nil =>
        intro past heq plan s hs
        rw [heq, List.append_nil]
        exact hs
    | cons a rest ih =>
        intro past heq
        have hone : Spec (I past) (Prog.caught (f a)) (fun _ => I (past ++ [a])) E := by
          refine (Spec.caught (h past a rest heq)).mono (fun _ hs => hs) ?_ (hE _)
          intro result t ht
          cases result with
          | ok u => exact ht
          | error e => exact ht
        have hrest := ih (past ++ [a]) (by rw [heq, List.append_assoc]; rfl)
        exact hone.bind fun _ => hrest.bind fun _ _ _ ht => ht
  exact hloop as [] rfl

/-- What is read is known afterwards. -/
theorem Spec.read (f : σ → α) : Spec P (read f : Prog κ σ ε α) (fun a s => P s ∧ f s = a) E :=
  fun _ _ hs => ⟨hs, rfl⟩

theorem Spec.write {Q : σ → Prop} {place : κ} {e : ε} {f : σ → σ} (h : ∀ s, P s → Q (f s))
    (hE : ∀ s, P s → E s) : Spec P (write place e f) (fun _ => Q) E := by
  intro plan s hs
  rw [run_write]
  cases plan place with
  | none => exact h s hs
  | error => exact hE s hs
  | stop => exact hE s hs

theorem Spec.bailIf {c : Prop} [Decidable c] {e : ε} (hE : ∀ s, P s → E s) :
    Spec P (bailIf c e : Prog κ σ ε Unit) (fun _ s => P s ∧ ¬ c) E := by
  intro plan s hs
  unfold Prog.bailIf
  by_cases hc : c
  · rw [if_pos hc]
    exact hE s hs
  · rw [if_neg hc]
    exact ⟨hs, hc⟩

theorem Spec.pure {a : α} (h : ∀ s, P s → Q a s) : Spec P (pure a : Prog κ σ ε α) Q E :=
  fun _ s hs => h s hs

/-- What is known of the values so far may be used in the rest. -/
theorem Spec.given {c : Prop} {x : Prog κ σ ε α} (h : c → Spec P x Q E) :
    Spec (fun s => P s ∧ c) x Q E :=
  fun plan s hs => h hs.2 plan s hs.1

theorem Spec.tell {Q : σ → Prop} {f : σ → σ} (h : ∀ s, P s → Q (f s)) :
    Spec P (tell f : Prog κ σ ε Unit) (fun _ => Q) E :=
  fun _ s hs => h s hs

theorem Spec.done {x : Prog κ σ ε α} (h : Spec P x Q E) {plan : κ → Fault} {s t : σ} {a : α}
    (hs : P s) (hrun : x.run plan s = (.done a, t)) : Q a t := by
  have hspec := h plan s hs
  rw [hrun] at hspec
  exact hspec

/-- A run that fails does so in its first part or goes on from the state that this part ends in. -/
theorem Spec.peel {x : Prog κ σ ε α} {f : α → Prog κ σ ε β} (h : Spec P x Q E) {plan : κ → Fault}
    {s t : σ} {e : ε} (hs : P s) (hrun : (x >>= f).run plan s = (.failed e, t)) :
    E t ∨ ∃ a u, x.run plan s = (.done a, u) ∧ Q a u ∧ (f a).run plan u = (.failed e, t) := by
  have hspec := h plan s hs
  rcases bind_failed.mp hrun with hx | ⟨a, u, hx, hf⟩
  · rw [hx] at hspec
    exact Or.inl hspec
  · rw [hx] at hspec
    exact Or.inr ⟨a, u, hx, hspec, hf⟩

/-- What holds of both ends holds of the state a run ends in. -/
theorem Spec.final {x : Prog κ σ ε α} (h : Spec P x (fun _ => E) E) (plan : κ → Fault) {s : σ}
    (hs : P s) : E (x.run plan s).2 := by
  have hspec := h plan s hs
  rcases hx : x.run plan s with ⟨_ | _ | _, u⟩ <;> rw [hx] at hspec <;> exact hspec

/-- A program that ends in `E` in any case. -/
theorem Spec.of_final {x : Prog κ σ ε α} (h : ∀ plan s, P s → E (x.run plan s).2) :
    Spec P x (fun _ => E) E := by
  intro plan s hs
  have hfinal := h plan s hs
  rcases hx : x.run plan s with ⟨_ | _ | _, u⟩ <;> rw [hx] at hfinal <;> exact hfinal

/-- `x`, when the faults are those of `plan`. -/
def under (plan : κ → Fault) (x : Prog κ σ ε α) : Prog κ σ ε α := ⟨fun _ s => x.run plan s⟩

theorem Spec.under {x : Prog κ σ ε α} (h : Spec P x Q E) (plan : κ → Fault) :
    Spec P (x.under plan) Q E :=
  fun _ s hs => h plan s hs

theorem under_bind (plan : κ → Fault) (x : Prog κ σ ε α) (f : α → Prog κ σ ε β) :
    (x >>= f).under plan = x.under plan >>= fun a => (f a).under plan := rfl

/-- An operation that does not run ends the program and changes nothing. -/
theorem Spec.blocked {place : κ} {e : ε} {f : σ → σ} {plan : κ → Fault} (h : plan place ≠ .none) :
    Spec P ((Prog.write place e f).under plan) (fun _ _ => False) P := by
  intro other s hs
  have hrun : ((Prog.write place e f).under plan).run other s =
      (Prog.write place e f).run plan s := rfl
  rw [hrun, run_write]
  cases hfault : plan place with
  | none => exact h hfault
  | error => exact hs
  | stop => exact hs

/-- What every run that is done ends in. -/
theorem Spec.ends {x : Prog κ σ ε α} {plan : κ → Fault} {c : α → σ → Prop}
    (h : Spec P (x.under plan) Q E) (hc : ∀ s a t, x.run plan s = (.done a, t) → c a t) :
    Spec P (x.under plan) (fun a t => Q a t ∧ c a t) E := by
  intro other s hs
  have hspec := h other s hs
  have hunder : (x.under plan).run other s = x.run plan s := rfl
  rw [hunder] at hspec ⊢
  rcases hx : x.run plan s with ⟨a | e | _, t⟩ <;> rw [hx] at hspec
  · exact ⟨hspec, hc s a t hx⟩
  · exact hspec
  · exact hspec

/-- What a plan leaves in peace when the program is done may be used after it. -/
theorem Spec.known {x : Prog κ σ ε α} {plan : κ → Fault} {c : α → Prop}
    (h : Spec P (x.under plan) Q E) (hc : ∀ s a t, x.run plan s = (.done a, t) → c a) :
    Spec P (x.under plan) (fun a t => Q a t ∧ c a) E :=
  h.ends hc

theorem run_tryEach_under (plan other : κ → Fault) (f : α → Prog κ σ ε Unit) (as : List α) (s : σ) :
    (tryEach f as).run plan s = (tryEach (fun a => (f a).under plan) as).run other s := by
  induction as generalizing s with
  | nil => rfl
  | cons a as ih =>
      simp only [tryEach, run_bind, Prog.caught, Prog.under, ih]
      rfl

theorem Keeps.foldlM {γ : Type} {f : α → γ → Prog κ σ ε α} (h : ∀ a c, Keeps I (f a c)) :
    ∀ (cs : List γ) (a : α), Keeps I (cs.foldlM f a)
  | [], a => Keeps.pure a
  | c :: cs, a => (h a c).bind fun b => Keeps.foldlM h cs b

/-- A program that is done ends in `Q`, wherever it started. -/
def Ends (Q : α → σ → Prop) (x : Prog κ σ ε α) : Prop :=
  ∀ plan s a t, x.run plan s = (.done a, t) → Q a t

/-- How a program ends is how its last part ends. -/
theorem Ends.bind {x : Prog κ σ ε α} {f : α → Prog κ σ ε β} (h : ∀ a, Ends R (f a)) :
    Ends R (x >>= f) := by
  intro plan s b t hrun
  obtain ⟨a, u, _, hf⟩ := bind_done.mp hrun
  exact h a plan u b t hf

/-- The last part may use how the first one ended. -/
theorem Ends.seq {x : Prog κ σ ε α} {f : α → Prog κ σ ε β} (hx : Ends Q x)
    (h : ∀ a u, Q a u → Ends R (f a)) : Ends R (x >>= f) := by
  intro plan s b t hrun
  obtain ⟨a, u, ha, hf⟩ := bind_done.mp hrun
  exact h a u (hx plan s a u ha) plan u b t hf

end rules

/-! ## A program that is not disturbed -/

/-- The plan lets every one of the operations run. -/
def Calm (plan : κ → Fault) (places : List κ) : Prop := ∀ place ∈ places, plan place = .none

/-- The first of the operations that does not run, if there is one, fails, and `mends`. -/
def Mended (plan : κ → Fault) (mends : κ → Prop) : List κ → Prop
  | [] => True
  | place :: places =>
      match plan place with
      | .none => Mended plan mends places
      | .error => mends place
      | .stop => False

section mended

variable {plan : κ → Fault} {mends mends' : κ → Prop}

theorem Mended.mono {ps : List κ} (h : Mended plan mends ps)
    (hmends : ∀ p ∈ ps, mends p → mends' p) : Mended plan mends' ps := by
  induction ps with
  | nil => trivial
  | cons p ps ih =>
      unfold Mended at h ⊢
      cases hfault : plan p with
      | none =>
          rw [hfault] at h
          exact ih h fun q hq => hmends q (List.mem_cons_of_mem _ hq)
      | error =>
          rw [hfault] at h
          exact hmends p List.mem_cons_self h
      | stop =>
          rw [hfault] at h
          exact h

theorem Mended.left {ps qs : List κ} (h : Mended plan mends (ps ++ qs)) : Mended plan mends ps := by
  induction ps with
  | nil => trivial
  | cons p ps ih =>
      rw [List.cons_append] at h
      unfold Mended at h ⊢
      cases hfault : plan p with
      | none =>
          rw [hfault] at h
          exact ih h
      | error =>
          rw [hfault] at h
          exact h
      | stop =>
          rw [hfault] at h
          exact h

theorem Mended.right {ps qs : List κ} (h : Mended plan mends (ps ++ qs)) (hcalm : Calm plan ps) :
    Mended plan mends qs := by
  induction ps with
  | nil => exact h
  | cons p ps ih =>
      rw [List.cons_append] at h
      unfold Mended at h
      rw [hcalm p List.mem_cons_self] at h
      exact ih h fun q hq => hcalm q (List.mem_cons_of_mem _ hq)

/-- What is mended before an operation that does not run is mended with everything after it. -/
theorem Mended.extend {ps : List κ} (h : Mended plan mends ps) (hcut : ¬ Calm plan ps)
    (qs : List κ) : Mended plan mends (ps ++ qs) := by
  induction ps with
  | nil => exact absurd nofun hcut
  | cons p ps ih =>
      rw [List.cons_append]
      unfold Mended at h ⊢
      cases hfault : plan p with
      | none =>
          rw [hfault] at h
          refine ih h fun hcalm => hcut ?_
          exact List.forall_mem_cons.mpr ⟨hfault, hcalm⟩
      | error =>
          rw [hfault] at h
          exact h
      | stop =>
          rw [hfault] at h
          exact h

theorem Calm.mended {ps : List κ} (h : Calm plan ps) : Mended plan mends ps := by
  induction ps with
  | nil => trivial
  | cons p ps ih =>
      unfold Mended
      rw [h p List.mem_cons_self]
      exact ih fun q hq => h q (List.mem_cons_of_mem _ hq)

end mended

/-- Under the plan the program is done from every state in `P`, and ends in `Q`. -/
def Total (plan : κ → Fault) (P : σ → Prop) (x : Prog κ σ ε α) (Q : α → σ → Prop) : Prop :=
  ∀ s, P s → ∃ a t, x.run plan s = (.done a, t) ∧ Q a t

section total

variable {plan : κ → Fault} {P : σ → Prop} {Q : α → σ → Prop} {R : β → σ → Prop}

theorem Calm.left {ps qs : List κ} (h : Calm plan (ps ++ qs)) : Calm plan ps :=
  fun place hplace => h place (List.mem_append_left _ hplace)

theorem Total.bind {x : Prog κ σ ε α} {f : α → Prog κ σ ε β} (hx : Total plan P x Q)
    (hf : ∀ a, Total plan (Q a) (f a) R) : Total plan P (x >>= f) R := by
  intro s hs
  obtain ⟨a, t, hrun, ht⟩ := hx s hs
  obtain ⟨b, u, hrun', hu⟩ := hf a t ht
  exact ⟨b, u, by rw [run_bind_of_done hrun, hrun'], hu⟩

theorem Total.mono {P' : σ → Prop} {Q' : α → σ → Prop} {x : Prog κ σ ε α}
    (h : Total plan P x Q) (hP : ∀ s, P' s → P s) (hQ : ∀ a s, Q a s → Q' a s) :
    Total plan P' x Q' := by
  intro s hs
  obtain ⟨a, t, hrun, ht⟩ := h s (hP s hs)
  exact ⟨a, t, hrun, hQ a t ht⟩

theorem Total.pure {a : α} (h : ∀ s, P s → Q a s) :
    Total plan P (pure a : Prog κ σ ε α) Q :=
  fun s hs => ⟨a, s, rfl, h s hs⟩

theorem Total.read {f : σ → α} (h : ∀ s, P s → Q (f s) s) :
    Total plan P (Prog.read f : Prog κ σ ε α) Q :=
  fun s hs => ⟨f s, s, rfl, h s hs⟩

theorem Total.bailIf {Q : Unit → σ → Prop} {c : Prop} [Decidable c] {e : ε} (hc : ¬ c)
    (h : ∀ s, P s → Q () s) : Total plan P (Prog.bailIf c e : Prog κ σ ε Unit) Q := by
  intro s hs
  refine ⟨(), s, ?_, h s hs⟩
  simp only [bailIf_done, and_true]
  exact hc

theorem Total.ofExcept {x : Except ε α} {a : α} (hx : x = .ok a) (h : ∀ s, P s → Q a s) :
    Total plan P (Prog.ofExcept x : Prog κ σ ε α) Q := by
  intro s hs
  subst hx
  exact ⟨a, s, rfl, h s hs⟩

theorem Total.write {Q : Unit → σ → Prop} {place : κ} {e : ε} {f : σ → σ}
    (hplace : plan place = .none) (h : ∀ s, P s → Q () (f s)) :
    Total plan P (Prog.write place e f) Q := by
  intro s hs
  exact ⟨(), f s, by rw [run_write, hplace], h s hs⟩

theorem Total.probe {Q : Unit → σ → Prop} {place : κ} {e : ε} (hplace : plan place = .none)
    (h : ∀ s, P s → Q () s) : Total plan P (Prog.probe place e) Q :=
  Total.write hplace h

theorem Total.onFailure {x : Prog κ σ ε α} {handler : Prog κ σ ε Unit} (h : Total plan P x Q) :
    Total plan P (onFailure x handler) Q := by
  intro s hs
  obtain ⟨a, t, hrun, ht⟩ := h s hs
  exact ⟨a, t, onFailure_done.mpr hrun, ht⟩

theorem Total.andThen {Q' : α → σ → Prop} {x : Prog κ σ ε α} {cleanup : Prog κ σ ε Unit}
    (h : Total plan P x Q) (hcleanup : ∀ a, Total plan (Q a) cleanup fun _ => Q' a) :
    Total plan P (andThen x cleanup) Q' := by
  intro s hs
  obtain ⟨a, t, hrun, ht⟩ := h s hs
  obtain ⟨_, u, hrun', hu⟩ := hcleanup a t ht
  exact ⟨a, u, by simp only [run_andThen, hrun, hrun'], hu⟩

theorem Total.spec {x : Prog κ σ ε α} {E : σ → Prop} (h : Total plan P x Q) :
    Spec P (x.under plan) Q E := by
  intro other s hs
  obtain ⟨a, t, hrun, ht⟩ := h s hs
  show match x.run plan s with | (.done a, t) => Q a t | (_, t) => E t
  rw [hrun]
  exact ht

/-- What an undisturbed program is known to keep holds at its end. -/
theorem Total.and {x : Prog κ σ ε α} {I E : σ → Prop} {J : α → σ → Prop} (h : Total plan P x Q)
    (hspec : Spec I (x.under plan) J E) :
    Total plan (fun s => P s ∧ I s) x fun a t => Q a t ∧ J a t := by
  intro s hs
  obtain ⟨a, t, hrun, ht⟩ := h s hs.1
  have hunder : (x.under plan).run plan s = (.done a, t) := hrun
  exact ⟨a, t, hrun, ht, hspec.done hs.2 hunder⟩

end total

/-! ## A program that may fail but does not stop -/

/-- Under the plan the program does not stop from any state in `P`; it ends in `Q` when it is done
and in `F` when it fails. -/
def Guarded (plan : κ → Fault) (P : σ → Prop) (x : Prog κ σ ε α) (Q : α → σ → Prop)
    (F : σ → Prop) : Prop :=
  ∀ s, P s → match x.run plan s with
    | (.done a, t) => Q a t
    | (.failed _, t) => F t
    | (.stopped, _) => False

section guarded

variable {plan : κ → Fault} {P F : σ → Prop} {Q : α → σ → Prop} {R : β → σ → Prop}

theorem Guarded.bind {x : Prog κ σ ε α} {f : α → Prog κ σ ε β} (hx : Guarded plan P x Q F)
    (hf : ∀ a, Guarded plan (Q a) (f a) R F) : Guarded plan P (x >>= f) R F := by
  intro s hs
  have hspec := hx s hs
  rw [run_bind]
  rcases hrun : x.run plan s with ⟨a | e | _, t⟩ <;> rw [hrun] at hspec
  · exact hf a t hspec
  · exact hspec
  · exact hspec

theorem Guarded.mono {P' F' : σ → Prop} {Q' : α → σ → Prop} {x : Prog κ σ ε α}
    (h : Guarded plan P x Q F) (hP : ∀ s, P' s → P s) (hQ : ∀ a s, Q a s → Q' a s)
    (hF : ∀ s, F s → F' s) : Guarded plan P' x Q' F' := by
  intro s hs
  have hspec := h s (hP s hs)
  rcases hrun : x.run plan s with ⟨a | e | _, t⟩ <;> rw [hrun] at hspec
  · exact hQ a t hspec
  · exact hF t hspec
  · exact hspec

theorem Guarded.pure {a : α} (h : ∀ s, P s → Q a s) :
    Guarded plan P (pure a : Prog κ σ ε α) Q F :=
  fun s hs => h s hs

theorem Guarded.read {f : σ → α} (h : ∀ s, P s → Q (f s) s) :
    Guarded plan P (Prog.read f : Prog κ σ ε α) Q F :=
  fun s hs => h s hs

theorem Guarded.ofExcept {x : Except ε α} (h : ∀ a s, x = .ok a → P s → Q a s)
    (hF : ∀ e s, x = .error e → P s → F s) :
    Guarded plan P (Prog.ofExcept x : Prog κ σ ε α) Q F := by
  intro s hs
  cases x with
  | error e => exact hF e s rfl hs
  | ok a => exact h a s rfl hs

theorem Guarded.bailIf {Q : Unit → σ → Prop} {c : Prop} [Decidable c] {e : ε}
    (h : ∀ s, ¬ c → P s → Q () s) (hF : ∀ s, c → P s → F s) :
    Guarded plan P (Prog.bailIf c e : Prog κ σ ε Unit) Q F := by
  refine Guarded.ofExcept (fun _ s hx hs => h s ?_ hs) fun _ s hx hs => hF s ?_ hs
  · intro hc
    rw [if_pos hc] at hx
    cases hx
  · by_contra hc
    rw [if_neg hc] at hx
    cases hx

/-- What is known of the values so far may be used in the rest. -/
theorem Guarded.given {c : Prop} {x : Prog κ σ ε α} (h : c → Guarded plan P x Q F) :
    Guarded plan (fun s => P s ∧ c) x Q F :=
  fun s hs => h hs.2 s hs.1

/-- An operation of a list that is mended runs, or fails and mends. -/
theorem Guarded.write {Q : σ → Prop} {mends : κ → Prop} {place : κ} {places : List κ} {e : ε}
    {f : σ → σ} (hplan : Mended plan mends (place :: places)) (h : ∀ s, P s → Q (f s))
    (hF : ∀ s, P s → mends place → F s) :
    Guarded plan P (Prog.write place e f)
      (fun _ s => Q s ∧ plan place = .none ∧ Mended plan mends places) F := by
  intro s hs
  rw [run_write]
  unfold Mended at hplan
  cases hfault : plan place with
  | none =>
      rw [hfault] at hplan
      exact ⟨h s hs, rfl, hplan⟩
  | error =>
      rw [hfault] at hplan
      exact hF s hs hplan
  | stop =>
      rw [hfault] at hplan
      exact hplan

/-- A handler that is done after every failure. -/
theorem Guarded.onFailure {F' : σ → Prop} {x : Prog κ σ ε α} {handler : Prog κ σ ε Unit}
    (hx : Guarded plan P x Q F) (hhandler : Total plan F handler fun _ => F') :
    Guarded plan P (onFailure x handler) Q F' := by
  intro s hs
  have hspec := hx s hs
  rw [run_onFailure]
  rcases hrun : x.run plan s with ⟨a | e | _, t⟩ <;> rw [hrun] at hspec
  · exact hspec
  · obtain ⟨u, v, hafter, hv⟩ := hhandler t hspec
    simpa only [hafter] using hv
  · exact hspec

theorem Guarded.known {x : Prog κ σ ε α} {c : α → Prop} (h : Guarded plan P x Q F)
    (hc : ∀ s a t, x.run plan s = (.done a, t) → c a) :
    Guarded plan P x (fun a t => Q a t ∧ c a) F := by
  intro s hs
  have hspec := h s hs
  rcases hrun : x.run plan s with ⟨a | e | _, t⟩ <;> rw [hrun] at hspec
  · exact ⟨hspec, hc s a t hrun⟩
  · exact hspec
  · exact hspec

/-- What a program leaves behind in any case holds where it is guarded. -/
theorem Guarded.and {x : Prog κ σ ε α} {P' E : σ → Prop} {Q' : α → σ → Prop}
    (h : Guarded plan P x Q F) (hspec : Spec P' (x.under plan) Q' E) :
    Guarded plan (fun s => P s ∧ P' s) x (fun a s => Q a s ∧ Q' a s) (fun s => F s ∧ E s) := by
  intro s hs
  have hguarded := h s hs.1
  have hleft := hspec plan s hs.2
  have hunder : (x.under plan).run plan s = x.run plan s := rfl
  rw [hunder] at hleft
  rcases hrun : x.run plan s with ⟨a | e | _, t⟩ <;> rw [hrun] at hguarded hleft
  · exact ⟨hguarded, hleft⟩
  · exact ⟨hguarded, hleft⟩
  · exact hguarded

theorem Guarded.spec {x : Prog κ σ ε α} (h : Guarded plan P x Q F) :
    Spec P (x.under plan) Q F := by
  intro other s hs
  have hspec := h s hs
  have hrun : (x.under plan).run other s = x.run plan s := rfl
  rw [hrun]
  rcases hrun : x.run plan s with ⟨a | e | _, t⟩ <;> rw [hrun] at hspec
  · exact hspec
  · exact hspec
  · exact hspec.elim

/-- What the program leaves when it fails or stops is kept by its handler. -/
theorem Spec.onFailure {E : σ → Prop} {x : Prog κ σ ε α} {handler : Prog κ σ ε Unit}
    (hx : Spec P (x.under plan) Q E) (hhandler : Spec E (handler.under plan) (fun _ => E) E) :
    Spec P ((Prog.onFailure x handler).under plan) Q E := by
  intro other s hs
  have hspec := hx other s hs
  have hunder : (x.under plan).run other s = x.run plan s := rfl
  have hwhole : ((Prog.onFailure x handler).under plan).run other s =
      (Prog.onFailure x handler).run plan s := rfl
  rw [hunder] at hspec
  rw [hwhole, run_onFailure]
  rcases hrun : x.run plan s with ⟨a | e | _, t⟩ <;> rw [hrun] at hspec
  · exact hspec
  · have hafter : E (handler.run plan t).2 := hhandler.final other hspec
    rcases hrun' : handler.run plan t with ⟨_ | _ | _, u⟩ <;> rw [hrun'] at hafter <;>
      simpa only [hrun'] using hafter
  · exact hspec

/-- A program that does not fail has no use for its handler. -/
theorem Spec.unhandled {E : σ → Prop} {x : Prog κ σ ε α} {handler : Prog κ σ ε Unit}
    (hx : Spec P (x.under plan) Q E)
    (hnever : ∀ s e t, P s → x.run plan s ≠ (.failed e, t)) :
    Spec P ((Prog.onFailure x handler).under plan) Q E := by
  intro other s hs
  have hspec := hx other s hs
  have hunder : (x.under plan).run other s = x.run plan s := rfl
  have hwhole : ((Prog.onFailure x handler).under plan).run other s =
      (Prog.onFailure x handler).run plan s := rfl
  rw [hunder] at hspec
  rw [hwhole, run_onFailure]
  rcases hrun : x.run plan s with ⟨a | e | _, t⟩ <;> rw [hrun] at hspec
  · exact hspec
  · exact absurd hrun (hnever s e t hs)
  · exact hspec

/-- A clean-up that keeps what the program ends in. -/
theorem Spec.andThen {E : σ → Prop} {x : Prog κ σ ε α} {cleanup : Prog κ σ ε Unit}
    (hx : Spec P x Q E) (hQ : ∀ a, Keeps (Q a) cleanup) (hE : Keeps E cleanup)
    (hleft : ∀ a s, Q a s → E s) : Spec P (Prog.andThen x cleanup) Q E := by
  intro plan s hs
  have hspec := hx plan s hs
  rw [run_andThen]
  rcases hrun : x.run plan s with ⟨a | e | _, t⟩ <;> rw [hrun] at hspec
  · have hafter := (hQ a).state plan hspec
    rcases hrun' : cleanup.run plan t with ⟨_ | _ | _, u⟩ <;> rw [hrun'] at hafter
    · simpa only [hrun'] using hafter
    · simpa only [hrun'] using hafter
    · simpa only [hrun'] using hleft a u hafter
  · have hafter := hE.state plan hspec
    rcases hrun' : cleanup.run plan t with ⟨_ | _ | _, u⟩ <;> rw [hrun'] at hafter <;>
      simpa only [hrun'] using hafter
  · exact hspec

theorem under_andThen (plan : κ → Fault) (x : Prog κ σ ε α) (cleanup : Prog κ σ ε Unit) :
    (Prog.andThen x cleanup).under plan = Prog.andThen (x.under plan) (cleanup.under plan) := rfl

theorem Total.guarded {x : Prog κ σ ε α} (h : Total plan P x Q) : Guarded plan P x Q F := by
  intro s hs
  obtain ⟨a, t, hrun, ht⟩ := h s hs
  rw [hrun]
  exact ht

end guarded

end Prog

end Faults
