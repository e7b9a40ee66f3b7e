import CodexMonitor.Lib.Runs

/-!
# Tasks over one shared state

A program asks questions and goes on with their answers.  Any number of tasks run such
programs over one shared state; between two questions of a task the others, and the
world outside, may do anything to it.  A log keeps every question with its answer and
the number of the task that asked.

`Traced` says what a program returns when it is given certain answers, and knows of no
state.  `Meets` is the rule of a program among others: whatever happens while it waits,
what it does keeps an invariant, and what it returns meets a condition.  A condition
that looks at the log alone is not lost by waiting.
-/

namespace Tasks

/-- A program that asks questions and goes on with their answers. -/
inductive Prog (Q : Type) (A : Q → Type) (α : Type) : Type
  | done (a : α)
  | ask (q : Q) (k : A q → Prog Q A α)

variable {Q : Type} {A : Q → Type} {α β : Type}

namespace Prog

/-- Run `x`, and go on with its value. -/
protected def bind : Prog Q A α → (α → Prog Q A β) → Prog Q A β
  | .done a, f => f a
  | .ask q k, f => .ask q fun a => (k a).bind f

instance : Monad (Prog Q A) where
  pure := .done
  bind := Prog.bind

/-- Every question that may be asked meets a condition. -/
def Asks (P : Q → Prop) : Prog Q A α → Prop
  | .done _ => True
  | .ask q k => P q ∧ ∀ a, (k a).Asks P

theorem asks_bind {P : Q → Prop} {x : Prog Q A α} {f : α → Prog Q A β} (hx : x.Asks P)
    (hf : ∀ a, (f a).Asks P) : (x >>= f).Asks P := by
  induction x with
  | done a => exact hf a
  | ask q k ih => exact ⟨hx.1, fun a => ih a (hx.2 a)⟩

theorem Asks.mono {P P' : Q → Prop} {x : Prog Q A α} (hx : x.Asks P) (h : ∀ q, P q → P' q) :
    x.Asks P' := by
  induction x with
  | done a => trivial
  | ask q k ih => exact ⟨h q hx.1, fun a => ih a (hx.2 a)⟩

end Prog

/-! ## Traces -/

/-- A question with its answer. -/
abbrev Event (A : Q → Type) : Type := Sigma A

/-- The program asks these questions, is given these answers, and returns a value. -/
inductive Traced : Prog Q A α → List (Event A) → α → Prop
  | done (a : α) : Traced (.done a) [] a
  | ask {q : Q} {k : A q → Prog Q A α} {a : A q} {events : List (Event A)} {v : α}
      (hrest : Traced (k a) events v) : Traced (.ask q k) (⟨q, a⟩ :: events) v

theorem traced_done {a v : α} {events : List (Event A)}
    (h : Traced (Prog.done a : Prog Q A α) events v) : events = [] ∧ v = a := by
  cases h
  exact ⟨rfl, rfl⟩

theorem traced_ask {q : Q} {k : A q → Prog Q A α} {events : List (Event A)} {v : α}
    (h : Traced (.ask q k) events v) :
    ∃ a rest, events = ⟨q, a⟩ :: rest ∧ Traced (k a) rest v := by
  cases h with
  | @ask _ _ a rest _ hrest => exact ⟨a, rest, rfl, hrest⟩

/-- A program in two parts is traced part by part. -/
theorem traced_bind {x : Prog Q A α} {f : α → Prog Q A β} {events : List (Event A)} {v : β}
    (h : Traced (x >>= f) events v) :
    ∃ first last a, events = first ++ last ∧ Traced x first a ∧ Traced (f a) last v := by
  induction x generalizing events with
  | done a => exact ⟨[], events, a, rfl, .done a, h⟩
  | ask q k ih =>
      cases h with
      | @ask _ _ a rest _ hrest =>
          obtain ⟨first, last, b, rfl, hfirst, hlast⟩ := ih a hrest
          exact ⟨⟨q, a⟩ :: first, last, b, rfl, .ask hfirst, hlast⟩

/-! ## The shared state -/

/-- The state that all tasks share, and what they have asked. -/
structure Shared (A : Q → Type) (σ : Type) where
  state : σ
  log : List (Nat × Event A)

/-- What one task has asked. -/
def own (i : Nat) (log : List (Nat × Event A)) : List (Event A) :=
  (log.filter fun entry => entry.1 = i).map Prod.snd

section own

variable {i j : Nat} {log more : List (Nat × Event A)} {e : Event A}

@[simp] theorem own_nil : own i ([] : List (Nat × Event A)) = [] := rfl

@[simp] theorem own_append : own i (log ++ more) = own i log ++ own i more := by
  simp [own]

@[simp] theorem own_self : own i [(i, e)] = [e] := by simp [own]

theorem own_other (h : j ≠ i) : own i [(j, e)] = [] := by simp [own, h]

theorem mem_own : e ∈ own i log ↔ (i, e) ∈ log := by
  simp [own]

theorem own_mono (h : log <+: more) : own i log <+: own i more := by
  obtain ⟨rest, rfl⟩ := h
  rw [own_append]
  exact List.prefix_append _ _

end own

variable {σ : Type}

/-- A question is answered. -/
def Shared.answered (s : Shared A σ) (i : Nat) (q : Q) (a : A q) (state : σ) : Shared A σ :=
  ⟨state, s.log ++ [(i, ⟨q, a⟩)]⟩

/-- What may happen while a task waits: the log grows by what others ask. -/
structure Waits (i : Nat) (s t : Shared A σ) : Prop where
  log : s.log <+: t.log
  own : own i t.log = own i s.log

theorem Waits.refl (i : Nat) (s : Shared A σ) : Waits i s s := ⟨List.prefix_rfl, rfl⟩

theorem Waits.trans {i : Nat} {s t u : Shared A σ} (h : Waits i s t) (h' : Waits i t u) :
    Waits i s u :=
  ⟨h.log.trans h'.log, h'.own.trans h.own⟩

theorem waits_answered {i j : Nat} (s : Shared A σ) (h : j ≠ i) (q : Q) (a : A q) (state : σ) :
    Waits i s (s.answered j q a state) := by
  refine ⟨List.prefix_append _ _, ?_⟩
  unfold Shared.answered
  rw [own_append, own_other h, List.append_nil]

/-! ## Machines -/

/-- The programs of the tasks, what answers their questions, and what happens besides. -/
structure Machine (A : Q → Type) (σ α ι ω ε : Type) where
  program : ι → Prog Q A α
  handle : ω → (q : Q) → σ → Option (A q × σ)
  turn : ε → σ → Option σ

/-- The tasks, each with what it was started on and what is left of its program. -/
structure Pool (A : Q → Type) (σ α ι : Type) where
  shared : Shared A σ
  tasks : List (ι × Prog Q A α)

inductive Act (ι ω ε : Type)
  | started (x : ι)
  | went (i : Nat) (w : ω)
  | turned (e : ε)

variable {ι ω ε : Type}

/-- The value that a task has returned. -/
def Pool.result? (p : Pool A σ α ι) (i : Nat) : Option α :=
  match p.tasks[i]? with
  | some (_, .done a) => some a
  | _ => none

namespace Machine

variable (m : Machine A σ α ι ω ε)

def step (p : Pool A σ α ι) : Act ι ω ε → Option (Pool A σ α ι)
  | .started x => some { p with tasks := p.tasks ++ [(x, m.program x)] }
  | .went i w =>
      match p.tasks[i]? with
      | some (x, .ask q k) =>
          (m.handle w q p.shared.state).map fun found =>
            ⟨p.shared.answered i q found.1 found.2, p.tasks.set i (x, k found.1)⟩
      | _ => none
  | .turned e =>
      (m.turn e p.shared.state).map fun state => { p with shared := { p.shared with state } }

/-- Any number of steps. -/
def Leads : Pool A σ α ι → Pool A σ α ι → Prop := Runs.Leads m.step

/-- No task yet. -/
def start (state : σ) : Pool A σ α ι := ⟨⟨state, []⟩, []⟩

end Machine

/-! ## The rule -/

/-- From a state on, the program keeps `I` with every question it asks, and what it returns meets
`post`, whatever happens while it waits. -/
def Meets (handle : ω → (q : Q) → σ → Option (A q × σ)) (I : Shared A σ → Prop) (i : Nat)
    (post : β → Shared A σ → Prop) : Prog Q A β → Shared A σ → Prop
  | .done a, s => post a s
  | .ask q k, s => ∀ t, Waits i s t → I t → ∀ w a state, handle w q t.state = some (a, state) →
      I (t.answered i q a state) ∧ Meets handle I i post (k a) (t.answered i q a state)

section meets

variable {handle : ω → (q : Q) → σ → Option (A q × σ)} {I : Shared A σ → Prop} {i : Nat}
  {s t : Shared A σ}

theorem Meets.mono {post post' : β → Shared A σ → Prop} {x : Prog Q A β}
    (h : Meets handle I i post x s) (hpost : ∀ a t, post a t → post' a t) :
    Meets handle I i post' x s := by
  induction x generalizing s with
  | done a => exact hpost a s h
  | ask q k ih =>
      intro t hwaits ht w a state hanswer
      obtain ⟨hkept, hrest⟩ := h t hwaits ht w a state hanswer
      exact ⟨hkept, ih a hrest⟩

theorem Meets.bind {post : β → Shared A σ → Prop} {x : Prog Q A α} {f : α → Prog Q A β}
    (h : Meets handle I i (fun a t => Meets handle I i post (f a) t) x s) :
    Meets handle I i post (x >>= f) s := by
  induction x generalizing s with
  | done a => exact h
  | ask q k ih =>
      intro t hwaits ht w a state hanswer
      obtain ⟨hkept, hrest⟩ := h t hwaits ht w a state hanswer
      exact ⟨hkept, ih a hrest⟩

/-- A task that waits loses nothing, when its condition is not lost by waiting. -/
theorem Meets.waits {post : β → Shared A σ → Prop} {x : Prog Q A β}
    (hstable : ∀ a s t, Waits i s t → post a s → post a t) (hwaits : Waits i s t)
    (h : Meets handle I i post x s) : Meets handle I i post x t := by
  cases x with
  | done a => exact hstable a s t hwaits h
  | ask q k =>
      intro u hwaits' hu w a state hanswer
      exact h u (hwaits.trans hwaits') hu w a state hanswer

/-- Questions that keep the invariant are asked freely, and the log has the trace. -/
theorem meets_quiet {P : Q → Prop} {x : Prog Q A β} (hx : x.Asks P)
    (hquiet : ∀ q, P q → ∀ t w a state, I t → handle w q t.state = some (a, state) →
      I (t.answered i q a state)) (s : Shared A σ) :
    Meets handle I i (fun v t => s.log <+: t.log ∧
      ∃ events, own i t.log = own i s.log ++ events ∧ Traced x events v) x s := by
  induction x generalizing s with
  | done a => exact ⟨List.prefix_rfl, [], (List.append_nil _).symm, .done a⟩
  | ask q k ih =>
      intro t hwaits ht w a state hanswer
      refine ⟨hquiet q hx.1 t w a state ht hanswer, ?_⟩
      refine (ih a (hx.2 a) _).mono fun v u hu => ?_
      obtain ⟨hlog, events, hown, htraced⟩ := hu
      refine ⟨hwaits.log.trans ((List.prefix_append _ _).trans hlog), ⟨q, a⟩ :: events, ?_,
        .ask htraced⟩
      rw [hown, Shared.answered, own_append, own_self, hwaits.own, List.append_assoc]
      rfl

end meets

/-! ## Pools -/

section pools

variable {m : Machine A σ α ι ω ε} {I : Shared A σ → Prop}
  {post : ι → Nat → α → Shared A σ → Prop} {p p' : Pool A σ α ι}

/-- What makes every run of a machine keep an invariant and every task meet its condition. -/
structure Machine.Rules (m : Machine A σ α ι ω ε) (I : Shared A σ → Prop)
    (post : ι → Nat → α → Shared A σ → Prop) : Prop where
  program : ∀ x i s, own i s.log = [] → I s → Meets m.handle I i (post x i) (m.program x) s
  turn : ∀ e s state, I s → m.turn e s.state = some state → I { s with state }
  stable : ∀ x i a s t, Waits i s t → post x i a s → post x i a t

/-- Where a pool is while it is run. -/
structure Pool.Sound (m : Machine A σ α ι ω ε) (I : Shared A σ → Prop)
    (post : ι → Nat → α → Shared A σ → Prop) (p : Pool A σ α ι) : Prop where
  inv : I p.shared
  tasks : ∀ i x prog, p.tasks[i]? = some (x, prog) →
    Meets m.handle I i (post x i) prog p.shared
  fresh : ∀ i, p.tasks.length ≤ i → own i p.shared.log = []

theorem started_sound (hm : m.Rules I post) (hp : p.Sound m I post) (x : ι) :
    Pool.Sound m I post { p with tasks := p.tasks ++ [(x, m.program x)] } where
  inv := hp.inv
  tasks := by
    intro i y prog hi
    by_cases hlt : i < p.tasks.length
    · rw [List.getElem?_append_left hlt] at hi
      exact hp.tasks i y prog hi
    · have hlen := Nat.le_of_not_lt hlt
      rw [List.getElem?_append_right hlen] at hi
      obtain ⟨rfl, rfl⟩ := Prod.mk.inj (List.mem_singleton.mp (List.mem_of_getElem? hi))
      exact hm.program y i p.shared (hp.fresh i hlen) hp.inv
  fresh := by
    intro i hi
    refine hp.fresh i (Nat.le_trans ?_ hi)
    rw [List.length_append]
    exact Nat.le_add_right _ _

theorem went_sound (hm : m.Rules I post) (hp : p.Sound m I post) {i : Nat} {x : ι} {q : Q}
    {k : A q → Prog Q A α} {w : ω} {a : A q} {state : σ}
    (hi : p.tasks[i]? = some (x, .ask q k)) (ha : m.handle w q p.shared.state = some (a, state)) :
    Pool.Sound m I post ⟨p.shared.answered i q a state, p.tasks.set i (x, k a)⟩ := by
  have hlt : i < p.tasks.length := (List.getElem?_eq_some_iff.mp hi).1
  obtain ⟨hkept, hrest⟩ := hp.tasks i x _ hi p.shared (.refl i _) hp.inv w a state ha
  refine ⟨hkept, fun j y prog hj => ?_, fun j hj => ?_⟩
  · by_cases hji : i = j
    · subst hji
      rw [List.getElem?_set_self hlt] at hj
      cases hj
      exact hrest
    · rw [List.getElem?_set_ne hji] at hj
      exact (hp.tasks j y prog hj).waits (hm.stable y j) (waits_answered _ hji q a state)
  · rw [List.length_set] at hj
    have hne : i ≠ j := fun h => absurd (h ▸ hlt) (Nat.not_lt.mpr hj)
    rw [(waits_answered p.shared hne q a state).own]
    exact hp.fresh j hj

theorem step_sound (hm : m.Rules I post) (hp : p.Sound m I post) {a : Act ι ω ε}
    (h : m.step p a = some p') : p'.Sound m I post := by
  cases a with
  | started x =>
      cases h
      exact started_sound hm hp x
  | went i w =>
      simp only [Machine.step] at h
      split at h
      · rename_i x q k hi
        obtain ⟨⟨a, state⟩, ha, rfl⟩ := Option.map_eq_some_iff.mp h
        exact went_sound hm hp hi ha
      · cases h
  | turned e =>
      obtain ⟨state, hstate, rfl⟩ := Option.map_eq_some_iff.mp h
      refine ⟨hm.turn e _ state hp.inv hstate, fun i x prog hi => ?_, hp.fresh⟩
      exact Meets.waits (s := p.shared) (hm.stable x i) ⟨List.prefix_rfl, rfl⟩ (hp.tasks i x prog hi)

/-- Every run keeps the invariant, and every task that has returned meets its condition. -/
theorem leads_sound (hm : m.Rules I post) {state : σ} (hstate : I ⟨state, []⟩)
    (h : m.Leads (Machine.start state) p) : p.Sound m I post := by
  refine Runs.Leads.invariant (P := Pool.Sound m I post) ?_ h ?_
  · intro p a p' hp hstep
    exact step_sound hm hp hstep
  · refine ⟨hstate, fun i x prog hi => ?_, fun i _ => rfl⟩
    cases hi

theorem result_meets (hp : p.Sound m I post) {i : Nat} {a : α} (h : p.result? i = some a) :
    ∃ x, p.tasks[i]? = some (x, .done a) ∧ post x i a p.shared := by
  unfold Pool.result? at h
  split at h
  · rename_i x a' hi
    cases h
    exact ⟨x, hi, hp.tasks i x _ hi⟩
  · cases h

/-- Whatever is asked in a run, a program may ask. -/
theorem leads_asks {P : Q → Prop} (hprogram : ∀ x, (m.program x).Asks P) {state : σ}
    (h : m.Leads (Machine.start state) p) : ∀ entry ∈ p.shared.log, P entry.2.1 := by
  have hm : m.Rules (fun s => ∀ entry ∈ s.log, P entry.2.1) fun _ _ _ _ => True := by
    refine ⟨fun x i s _ _ => ?_, fun _ _ _ hs _ => hs, fun _ _ _ _ _ _ _ => trivial⟩
    refine (meets_quiet (hprogram x) (fun q hq t w a state ht _ => ?_) s).mono fun _ _ _ => trivial
    exact List.forall_mem_append.mpr ⟨ht, List.forall_mem_singleton.mpr hq⟩
  exact (leads_sound hm (List.forall_mem_nil _) h).inv

end pools

end Tasks
