import CodexMonitor.Lib.Runs
import CodexMonitor.Lib.Transaction

/-!
# Deferred transactions beside other writers

A client of a database in WAL mode sends the statements of its transactions one at a
time, and other connections commit between them.  A deferred transaction takes no lock
when it begins: its first read fixes the snapshot it reads from, and its first write asks
for the write lock.  The write is refused as busy when another connection has committed
since the snapshot; once it is granted, no other connection commits until the transaction
ends.

`Body` is a transaction as the statements it sends; `Body.meaning` is what the body does
when nothing comes between them.  `Peers.step` is the machine of one client and the other
connections.  A step keeps `apart` when it is no commit of another connection between the
snapshot of the open transaction and a write that this transaction still sends: in a run
from an idle client nothing is refused, and nothing is bound to be, if and only if every
step keeps apart (`clear_iff`).
-/

namespace Wal

open Transaction

variable {σ ε α β ω κ : Type}

/-- The statements of a transaction body, in the order in which they are sent. -/
inductive Body (σ ε α : Type) where
  | done (a : α)
  | fail (e : ε)
  | read (next : σ → Body σ ε α)
  | write (change : σ → Except ε σ) (next : Body σ ε α)

namespace Body

protected def bind : Body σ ε α → (α → Body σ ε β) → Body σ ε β
  | done a, f => f a
  | fail e, _ => fail e
  | read next, f => read fun s => (next s).bind f
  | write change next, f => write change (next.bind f)

instance : Monad (Body σ ε) where
  pure := done
  bind := Body.bind

/-- A `SELECT`. -/
def query (f : σ → α) : Body σ ε α := read fun s => done (f s)

/-- A write statement that cannot fail. -/
def update (f : σ → σ) : Body σ ε Unit := write (fun s => .ok (f s)) (done ())

/-- A write statement that a constraint may refuse. -/
def attempt (e : ε) (f : σ → Option σ) : Body σ ε Unit :=
  write (fun s => match f s with
    | some t => .ok t
    | none => .error e) (done ())

/-- A check between two statements. -/
def bailIf (c : Prop) [Decidable c] (e : ε) : Body σ ε Unit :=
  if c then fail e else done ()

def ofExcept : Except ε α → Body σ ε α
  | .ok a => done a
  | .error e => fail e

def expect (e : ε) : Option α → Body σ ε α
  | some a => done a
  | none => fail e

/-! ## A body on its own -/

/-- What the body ends with, and the state its own writes make. -/
def runOn : Body σ ε α → σ → Except ε α × σ
  | done a, s => (.ok a, s)
  | fail e, s => (.error e, s)
  | read next, s => (next s).runOn s
  | write change next, s =>
      match change s with
      | .ok t => next.runOn t
      | .error e => (.error e, s)

/-- The body as one uninterrupted transaction body. -/
def meaning (x : Body σ ε α) : Tx σ ε α := ⟨x.runOn⟩

/-- Reading from `s`, the body gets to a write statement. -/
def writes : Body σ ε α → σ → Bool
  | done _, _ => false
  | fail _, _ => false
  | read next, s => (next s).writes s
  | write _ _, _ => true

/-- What follows a statement depends only on what it ended with. -/
theorem run_bind_congr {x y : Tx σ ε α} {s t : σ} (h : x.run s = y.run t) (g : α → Tx σ ε β) :
    (x >>= g).run s = (y >>= g).run t := by
  show (Tx.bind x g).run s = (Tx.bind y g).run t
  simp only [Tx.bind, h]

theorem meaning_bind (x : Body σ ε α) (f : α → Body σ ε β) :
    (x >>= f).meaning = x.meaning >>= fun a => (f a).meaning := by
  show Tx.mk (x.bind f).runOn = Tx.mk _
  refine congrArg Tx.mk (funext fun s => ?_)
  show (x.bind f).runOn s = (Tx.mk x.runOn >>= fun a => Tx.mk (f a).runOn).run s
  induction x generalizing s with
  | done a => rfl
  | fail e => rfl
  | read next ih => exact ih s s
  | write change next ih =>
      have hleft : ((write change next).bind f).runOn s =
          (write change (next.bind f)).runOn s := rfl
      cases hchange : change s with
      | error e =>
          have hfirst : (Tx.mk (write change next).runOn).run s = (.error e, s) := by
            show (write change next).runOn s = _
            rw [runOn, hchange]
          rw [Tx.run_bind_of_error hfirst, hleft, runOn, hchange]
      | ok t =>
          have hfirst : (Tx.mk (write change next).runOn).run s = next.runOn t := by
            show (write change next).runOn s = _
            rw [runOn, hchange]
          rw [hleft, runOn, hchange]
          exact (ih t).trans (run_bind_congr hfirst _).symm

@[simp] theorem meaning_pure (a : α) : (pure a : Body σ ε α).meaning = pure a := rfl

@[simp] theorem meaning_fail (e : ε) : (fail e : Body σ ε α).meaning = Tx.fail e := rfl

@[simp] theorem meaning_query (f : σ → α) : (query f : Body σ ε α).meaning = Tx.query f := rfl

@[simp] theorem meaning_update (f : σ → σ) :
    (update f : Body σ ε Unit).meaning = Tx.write f := rfl

@[simp] theorem meaning_attempt (e : ε) (f : σ → Option σ) :
    (attempt e f : Body σ ε Unit).meaning = Tx.attempt e f := by
  show Tx.mk _ = Tx.mk _
  refine congrArg Tx.mk (funext fun s => ?_)
  rw [attempt, runOn]
  cases f s with
  | none => rfl
  | some t => rfl

@[simp] theorem meaning_bailIf (c : Prop) [Decidable c] (e : ε) :
    (bailIf c e : Body σ ε Unit).meaning = Tx.bailIf c e := by
  unfold bailIf Tx.bailIf
  by_cases hc : c
  · rw [if_pos hc, if_pos hc]
    rfl
  · rw [if_neg hc, if_neg hc]
    rfl

@[simp] theorem meaning_expect (e : ε) (o : Option α) :
    (expect e o : Body σ ε α).meaning = Tx.expect e o := by
  cases o <;> rfl

@[simp] theorem meaning_ofExcept (x : Except ε α) :
    (ofExcept x : Body σ ε α).meaning = Tx.ofExcept x := by
  cases x <;> rfl

theorem meaning_ite (c : Prop) [Decidable c] (x y : Body σ ε α) :
    (if c then x else y).meaning = if c then x.meaning else y.meaning := by
  by_cases hc : c
  · rw [if_pos hc, if_pos hc]
  · rw [if_neg hc, if_neg hc]

end Body

/-! ## A transaction between its statements -/

/-- Where a deferred transaction stands: before its first statement; with the snapshot it reads
from, `behind` when another connection has committed since; or with the write lock. -/
inductive Phase (σ : Type) where
  | begun
  | reading (snapshot : σ) (behind : Bool)
  | writing (own : σ)
deriving DecidableEq

/-- How a transaction fails: SQLite refuses a write because of another connection, or the body
ends with its own error. -/
inductive Failure (ε : Type) where
  | busy
  | error (e : ε)
deriving DecidableEq

/-- An open transaction: where it stands and what it still sends. -/
structure Open (σ ε : Type) where
  phase : Phase σ
  body : Body σ ε Unit

/-- A transaction after its next statement: still open, or ended, with the database it leaves. -/
inductive Progress (σ ε : Type) where
  | going (t : Open σ ε)
  | ended (result : Except (Failure ε) Unit) (db : σ)

namespace Open

/-- Take the write lock for a write statement on `own`; an error rolls back to `db`. -/
def lock (db own : σ) (change : σ → Except ε σ) (next : Body σ ε Unit) : Progress σ ε :=
  match change own with
  | .ok t => .going ⟨.writing t, next⟩
  | .error e => .ended (.error (.error e)) db

/-- The next statement, or the commit, when `db` is what is committed. -/
def advance (db : σ) : Open σ ε → Progress σ ε
  | ⟨.writing own, .done _⟩ => .ended (.ok ()) own
  | ⟨_, .done _⟩ => .ended (.ok ()) db
  | ⟨_, .fail e⟩ => .ended (.error (.error e)) db
  | ⟨.begun, .read next⟩ => .going ⟨.reading db false, next db⟩
  | ⟨.reading snapshot behind, .read next⟩ => .going ⟨.reading snapshot behind, next snapshot⟩
  | ⟨.writing own, .read next⟩ => .going ⟨.writing own, next own⟩
  | ⟨.begun, .write change next⟩ => lock db db change next
  | ⟨.reading _ true, .write _ _⟩ => .ended (.error .busy) db
  | ⟨.reading snapshot false, .write change next⟩ => lock db snapshot change next
  | ⟨.writing own, .write change next⟩ => lock db own change next

/-- The transaction holds the write lock. -/
def locked (t : Open σ ε) : Bool :=
  match t.phase with
  | .writing _ => true
  | _ => false

/-- Another connection has committed. -/
def overtaken (t : Open σ ε) : Open σ ε :=
  match t.phase with
  | .reading snapshot _ => ⟨.reading snapshot true, t.body⟩
  | _ => t

/-- The transaction has its snapshot and still sends a first write. -/
def exposed (t : Open σ ε) : Bool :=
  match t.phase with
  | .reading snapshot _ => t.body.writes snapshot
  | _ => false

/-- The first write that the transaction still sends will be refused. -/
def doomed (t : Open σ ε) : Bool :=
  match t.phase with
  | .reading snapshot true => t.body.writes snapshot
  | _ => false

theorem doomed_overtaken (t : Open σ ε) : t.overtaken.doomed = t.exposed := by
  obtain ⟨phase, body⟩ := t
  cases phase <;> rfl

theorem doomed_exposed {t : Open σ ε} (h : t.doomed = true) : t.exposed = true := by
  obtain ⟨phase, body⟩ := t
  cases phase with
  | begun => cases h
  | writing own => cases h
  | reading snapshot behind =>
      cases behind with
      | false => cases h
      | true => exact h

theorem lock_going {db own : σ} {change : σ → Except ε σ} {next : Body σ ε Unit} {t : Open σ ε}
    (h : lock db own change next = .going t) : t.doomed = false := by
  unfold lock at h
  split at h
  · cases h
    rfl
  · cases h

theorem lock_ended {db own d : σ} {change : σ → Except ε σ} {next : Body σ ε Unit}
    {result : Except (Failure ε) Unit} (h : lock db own change next = .ended result d) :
    result ≠ .error .busy := by
  unfold lock at h
  split at h
  · cases h
  · cases h
    nofun

/-- A transaction that goes on is bound to be refused exactly when it was before. -/
theorem advance_going {db : σ} {t u : Open σ ε} (h : t.advance db = .going u) :
    u.doomed = t.doomed := by
  obtain ⟨phase, body⟩ := t
  cases body with
  | done a => cases phase <;> cases h
  | fail e => cases phase <;> cases h
  | read next =>
      cases phase with
      | begun =>
          cases h
          rfl
      | reading snapshot behind =>
          cases h
          cases behind <;> rfl
      | writing own =>
          cases h
          rfl
  | write change next =>
      cases phase with
      | begun => exact lock_going h
      | reading snapshot behind =>
          cases behind with
          | false => exact lock_going h
          | true => cases h
      | writing own => exact lock_going h

/-- A transaction ends busy exactly when it was bound to. -/
theorem advance_ended {db d : σ} {t : Open σ ε} {result : Except (Failure ε) Unit}
    (h : t.advance db = .ended result d) : result = .error .busy ↔ t.doomed = true := by
  obtain ⟨phase, body⟩ := t
  have hlock : ∀ {own change next}, lock db own change next = .ended result d →
      (result = .error .busy ↔ false = true) := by
    intro own change next h
    simp [lock_ended h]
  cases body with
  | done a =>
      cases phase with
      | begun =>
          cases h
          simp [doomed]
      | reading snapshot behind =>
          cases h
          cases behind <;> simp [doomed, Body.writes]
      | writing own =>
          cases h
          simp [doomed]
  | fail e =>
      cases phase with
      | begun =>
          cases h
          simp [doomed]
      | reading snapshot behind =>
          cases h
          cases behind <;> simp [doomed, Body.writes]
      | writing own =>
          cases h
          simp [doomed]
  | read next => cases phase <;> cases h
  | write change next =>
      cases phase with
      | begun => exact hlock h
      | reading snapshot behind =>
          cases behind with
          | false => exact hlock h
          | true =>
              cases h
              simp [doomed, Body.writes]
      | writing own => exact hlock h

end Open

/-! ## One client and the other connections -/

/-- The database, the client's open transaction and what its earlier ones ended with. -/
structure Site (σ ε ω : Type) where
  db : σ
  current : Option (ω × Open σ ε)
  ended : List (ω × Except (Failure ε) Unit)

/-- A client that has sent nothing yet. -/
def Site.idle (db : σ) : Site σ ε ω := ⟨db, none, []⟩

/-- What can happen next: the client begins a transaction or sends its next statement, or
another connection commits. -/
inductive Act (ω κ : Type) where
  | start (call : ω)
  | statement
  | commit (command : κ)

/-- The transactions of a client, when it begins one given what its earlier ones ended with, and
the commits of the other connections. -/
structure Peers (σ ε ω κ : Type) where
  body : ω → Body σ ε Unit
  may : List (ω × Except (Failure ε) Unit) → ω → Bool
  change : κ → σ → σ

/-- A commit of another connection lands now: nobody holds the write lock, and something is
written. -/
def Site.open? (s : Site σ ε ω) : Bool :=
  match s.current with
  | some (_, t) => !t.locked
  | none => true

/-- One step; `none` when the action is not possible. -/
def Peers.step [DecidableEq σ] (peers : Peers σ ε ω κ) (s : Site σ ε ω) :
    Act ω κ → Option (Site σ ε ω)
  | .start call =>
      if s.current.isNone = true ∧ peers.may s.ended call = true then
        some { s with current := some (call, ⟨.begun, peers.body call⟩) }
      else none
  | .statement =>
      match s.current with
      | none => none
      | some (call, t) =>
          match t.advance s.db with
          | .going u => some { s with current := some (call, u) }
          | .ended result db => some ⟨db, none, s.ended ++ [(call, result)]⟩
  | .commit command =>
      if s.open? = true ∧ peers.change command s.db ≠ s.db then
        some { s with
          db := peers.change command s.db
          current := s.current.map fun c => (c.1, c.2.overtaken) }
      else none

/-- No commit of another connection falls between the snapshot of the open transaction and a
write that the transaction still sends. -/
def Site.apart (s : Site σ ε ω) : Act ω κ → Bool
  | .commit _ => s.current.all fun c => !c.2.exposed
  | _ => true

/-- Nothing was refused as busy, and the open transaction is not bound to be. -/
structure Site.Clear (s : Site σ ε ω) : Prop where
  ended : ∀ r ∈ s.ended, r.2 ≠ .error .busy
  current : ∀ c ∈ s.current, c.2.doomed = false

theorem Site.clear_idle (db : σ) : (Site.idle db : Site σ ε ω).Clear :=
  ⟨nofun, nofun⟩

section runs

variable [DecidableEq σ] {peers : Peers σ ε ω κ} {s t : Site σ ε ω}

/-- A step keeps everything clear exactly when it keeps apart. -/
theorem step_clear {act : Act ω κ} (h : peers.step s act = some t) :
    t.Clear ↔ s.Clear ∧ s.apart act = true := by
  cases act with
  | start call =>
      rw [Peers.step] at h
      split at h
      · rename_i hidle
        cases h
        have hnone : s.current = none := Option.isNone_iff_eq_none.mp hidle.1
        constructor
        · intro ht
          exact ⟨⟨ht.ended, by simp [hnone]⟩, rfl⟩
        · intro hs
          refine ⟨hs.1.ended, fun c hc => ?_⟩
          cases hc
          rfl
      · cases h
  | statement =>
      rw [Peers.step] at h
      split at h
      · cases h
      rename_i call u hcurrent
      split at h
      · rename_i v hgoing
        cases h
        have hdoomed := Open.advance_going hgoing
        constructor
        · intro ht
          refine ⟨⟨ht.ended, fun c hc => ?_⟩, rfl⟩
          rw [hcurrent] at hc
          cases hc
          exact hdoomed.symm.trans (ht.current _ rfl)
        · intro hs
          refine ⟨hs.1.ended, fun c hc => ?_⟩
          cases hc
          exact hdoomed.trans (hs.1.current _ hcurrent)
      · rename_i result db hended
        cases h
        have hbusy := Open.advance_ended hended
        constructor
        · intro ht
          have hlast := ht.ended (call, result) (by simp)
          refine ⟨⟨fun r hr => ht.ended r (List.mem_append_left _ hr), fun c hc => ?_⟩, rfl⟩
          rw [hcurrent] at hc
          cases hc
          exact Bool.eq_false_iff.mpr fun hdoomed => hlast (hbusy.mpr hdoomed)
        · intro hs
          refine ⟨fun r hr => ?_, nofun⟩
          rcases List.mem_append.mp hr with hold | hnew
          · exact hs.1.ended r hold
          · obtain rfl := List.mem_singleton.mp hnew
            intro heq
            have hdoomed := hs.1.current _ hcurrent
            rw [hbusy.mp heq] at hdoomed
            cases hdoomed
  | commit command =>
      rw [Peers.step] at h
      split at h
      · cases h
        cases hcurrent : s.current with
        | none =>
            constructor
            · intro ht
              exact ⟨⟨ht.ended, by simp [hcurrent]⟩, by simp [Site.apart, hcurrent]⟩
            · intro hs
              exact ⟨hs.1.ended, by simp⟩
        | some c =>
            constructor
            · intro ht
              have hexposed : c.2.exposed = false := by
                rw [← Open.doomed_overtaken]
                exact ht.current _ rfl
              refine ⟨⟨ht.ended, fun d hd => ?_⟩, by simp [Site.apart, hcurrent, hexposed]⟩
              rw [hcurrent] at hd
              cases hd
              refine Bool.eq_false_iff.mpr fun hdoomed => ?_
              rw [Open.doomed_exposed hdoomed] at hexposed
              cases hexposed
            · intro hs
              have hexposed : c.2.exposed = false := by
                simpa [Site.apart, hcurrent] using hs.2
              refine ⟨hs.1.ended, fun d hd => ?_⟩
              cases hd
              exact (Open.doomed_overtaken _).trans hexposed
      · cases h

/-- A run from an idle client leaves everything clear exactly when each of its steps keeps
apart. -/
theorem clear_iff {acts : List (Act ω κ)} (hs : s.Clear)
    (h : Runs.run? peers.step acts s = some t) :
    t.Clear ↔ Runs.after? peers.step (fun s act => s.apart act = true) acts s = some t := by
  have hlost : ∀ (acts : List (Act ω κ)) (r : Site σ ε ω), ¬ r.Clear →
      Runs.run? peers.step acts r = some t → ¬ t.Clear := by
    intro acts
    induction acts with
    | nil =>
        intro r hr h
        cases h
        exact hr
    | cons act acts ih =>
        intro r hr h
        rw [Runs.run_cons] at h
        obtain ⟨u, hact, hrest⟩ := Option.bind_eq_some_iff.mp h
        exact ih u (fun hu => hr ((step_clear hact).mp hu).1) hrest
  induction acts generalizing s with
  | nil =>
      cases h
      exact iff_of_true hs rfl
  | cons act acts ih =>
      rw [Runs.run_cons] at h
      obtain ⟨u, hact, hrest⟩ := Option.bind_eq_some_iff.mp h
      by_cases hapart : s.apart act = true
      · have hu : u.Clear := (step_clear hact).mpr ⟨hs, hapart⟩
        have hcons : Runs.after? peers.step (fun s act => s.apart act = true) (act :: acts) s =
            Runs.after? peers.step (fun s act => s.apart act = true) acts u := by
          rw [Runs.after?, if_pos hapart, hact]
          rfl
        rw [hcons]
        exact ih hu hrest
      · refine iff_of_false ?_ ?_
        · exact hlost acts u (fun hu => hapart ((step_clear hact).mp hu).2) hrest
        · rw [Runs.after?, if_neg hapart]
          intro heq
          cases heq

end runs

/-! ## A transaction that is left alone -/

section alone

variable [DecidableEq σ] {peers : Peers σ ε ω κ}

/-- What a transaction ends with, as its client sees it. -/
def report : Except ε Unit → Except (Failure ε) Unit
  | .ok _ => .ok ()
  | .error e => .error (.error e)

/-- What a body leaves in the database: its writes, or nothing of them. -/
def Body.leaves (body : Body σ ε Unit) (own db : σ) : σ :=
  match body.runOn own with
  | (.ok _, t) => t
  | (.error _, _) => db

/-- The state that an open transaction goes on from. -/
def Phase.view (phase : Phase σ) (db : σ) : σ :=
  match phase with
  | .begun => db
  | .reading snapshot _ => snapshot
  | .writing own => own

/-- Nobody has committed since the transaction took its snapshot. -/
def Phase.Fresh (phase : Phase σ) (db : σ) : Prop :=
  ∀ snapshot behind, phase = .reading snapshot behind → snapshot = db ∧ behind = false

/-- A statement that ends the transaction. -/
theorem run_ends {call : ω} {t : Open σ ε} {db d : σ}
    {ended : List (ω × Except (Failure ε) Unit)} {result : Except (Failure ε) Unit}
    (h : t.advance db = .ended result d) :
    ∃ n, Runs.run? peers.step (List.replicate n .statement) ⟨db, some (call, t), ended⟩ =
      some ⟨d, none, ended ++ [(call, result)]⟩ := by
  have hstep : peers.step ⟨db, some (call, t), ended⟩ .statement =
      some ⟨d, none, ended ++ [(call, result)]⟩ := by
    simp only [Peers.step, h]
  refine ⟨1, ?_⟩
  rw [List.replicate_one, Runs.run_cons, hstep]
  rfl

/-- A statement that the transaction goes on after. -/
theorem run_goes {call : ω} {t u : Open σ ε} {db : σ}
    {ended : List (ω × Except (Failure ε) Unit)} {s : Site σ ε ω} (h : t.advance db = .going u)
    (hrest : ∃ n, Runs.run? peers.step (List.replicate n .statement) ⟨db, some (call, u), ended⟩ =
      some s) :
    ∃ n, Runs.run? peers.step (List.replicate n .statement) ⟨db, some (call, t), ended⟩ = some s := by
  obtain ⟨n, hn⟩ := hrest
  have hstep : peers.step ⟨db, some (call, t), ended⟩ .statement =
      some ⟨db, some (call, u), ended⟩ := by
    simp only [Peers.step, h]
  refine ⟨n + 1, ?_⟩
  rw [List.replicate_succ, Runs.run_cons, hstep]
  exact hn

/-- A write statement that is granted the lock. -/
theorem run_writes {call : ω} {phase : Phase σ} {db own : σ} {change : σ → Except ε σ}
    {next : Body σ ε Unit} {ended : List (ω × Except (Failure ε) Unit)}
    (h : (⟨phase, .write change next⟩ : Open σ ε).advance db = Open.lock db own change next)
    (hrest : ∀ t, ∃ n, Runs.run? peers.step (List.replicate n .statement)
      ⟨db, some (call, ⟨.writing t, next⟩), ended⟩ =
        some ⟨next.leaves t db, none, ended ++ [(call, report (next.runOn t).1)]⟩) :
    ∃ n, Runs.run? peers.step (List.replicate n .statement)
      ⟨db, some (call, ⟨phase, .write change next⟩), ended⟩ =
        some ⟨(Body.write change next).leaves own db, none,
          ended ++ [(call, report ((Body.write change next).runOn own).1)]⟩ := by
  cases hchange : change own with
  | error e =>
      rw [Open.lock, hchange] at h
      simpa [Body.leaves, Body.runOn, hchange, report] using run_ends h
  | ok t =>
      rw [Open.lock, hchange] at h
      simpa [Body.leaves, Body.runOn, hchange] using run_goes h (hrest t)

/-- Statements that nothing comes between end the transaction as its atomic body ends. -/
theorem runs_alone (call : ω) (body : Body σ ε Unit) (phase : Phase σ) (db : σ)
    (ended : List (ω × Except (Failure ε) Unit)) (hfresh : phase.Fresh db) :
    ∃ n, Runs.run? peers.step (List.replicate n .statement) ⟨db, some (call, ⟨phase, body⟩), ended⟩ =
      some ⟨body.leaves (phase.view db) db, none,
        ended ++ [(call, report (body.runOn (phase.view db)).1)]⟩ := by
  induction body generalizing phase with
  | done a =>
      cases phase with
      | begun => exact run_ends rfl
      | reading snapshot behind =>
          obtain ⟨rfl, rfl⟩ := hfresh _ _ rfl
          exact run_ends rfl
      | writing own => exact run_ends rfl
  | fail e => cases phase <;> exact run_ends rfl
  | read next ih =>
      cases phase with
      | begun =>
          have hsnapshot : (Phase.reading db false).Fresh db := by
            intro snapshot behind heq
            cases heq
            exact ⟨rfl, rfl⟩
          exact run_goes rfl (ih db (.reading db false) hsnapshot)
      | reading snapshot behind => exact run_goes rfl (ih snapshot _ hfresh)
      | writing own => exact run_goes rfl (ih own (.writing own) nofun)
  | write change next ih =>
      have hrest : ∀ t, ∃ n, Runs.run? peers.step (List.replicate n .statement)
          ⟨db, some (call, ⟨.writing t, next⟩), ended⟩ =
            some ⟨next.leaves t db, none, ended ++ [(call, report (next.runOn t).1)]⟩ :=
        fun t => ih (.writing t) nofun
      cases phase with
      | begun => exact run_writes rfl hrest
      | reading snapshot behind =>
          obtain ⟨rfl, rfl⟩ := hfresh _ _ rfl
          exact run_writes rfl hrest
      | writing own => exact run_writes rfl hrest

end alone

end Wal
