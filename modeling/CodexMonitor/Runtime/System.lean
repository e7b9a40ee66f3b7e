import CodexMonitor.Lib.Channel
import CodexMonitor.Runtime.Deliver
import CodexMonitor.Store.Movement

/-!
# The receiver and the App Server

One receiver process runs at a time.  Its dispatcher claims events and keeps at
most four delivery jobs, its reconciler inspects uncertain events four at a time,
and every other task or process uses the store.  A job hands its add to the App
Server at some moment before it ends; from then on the server may accept the add
at any time, also after the job, or the whole receiver, is gone.  The server never
accepts an add that it answers with an explicit error.
-/

namespace CodexMonitor

open Transaction Session

/-- A delivery job, and the ticket of its add once that is handed over. -/
structure Job where
  claimed : ClaimedEvent
  ticket : Option Nat

structure System where
  db : Db
  dispatching : Bool
  reconciling : Bool
  jobs : List Job
  rows : List ClaimedEvent
  inspecting : List ClaimedEvent
  adds : Channel.Log String

/-- A receiver that has never run. -/
def System.initial : System := ⟨Db.empty, false, false, [], [], [], []⟩

/-- What can happen next. -/
inductive Action
  /-- a call of any other task or process -/
  | call (op : Op)
  /-- `serve` starts: recovery first -/
  | start (nextAt now : Rat)
  /-- the receiver stops or crashes; every task is dropped where it stands -/
  | stop
  /-- the dispatcher claims an event for a new job -/
  | claim (clock : Nat → Rat)
  /-- the write of a job's add begins -/
  | handOver (i : Nat)
  /-- the server accepts, or refuses, an add -/
  | decide (n : Nat) (fate : Channel.Fate)
  /-- a delivery job ends -/
  | complete (i : Nat) (probe add : Attempt) (now : Rat)
  /-- a delivery job is aborted -/
  | abort (i : Nat)
  /-- the reconciler reads the uncertain events -/
  | scan
  /-- the reconciler starts the next inspections -/
  | batch
  /-- an inspection ends -/
  | inspected (i : Nat) (probe : Attempt) (queue turns : Nat → Attempt) (inTime : Bool) (now : Rat)
  /-- an inspection is aborted -/
  | abandon (i : Nat)

/-- The text a claimed event is delivered as. -/
def ClaimedEvent.text? (crates : Crates) (c : ClaimedEvent) : Option String :=
  let envelope := match c.envelope with
    | .string text => crates.fromStr text
    | envelope => some envelope
  envelope.map fun envelope => renderEvent crates c.row.binding envelope c.row.id

/-- The attempts of a job hand its add over. -/
def ClaimedEvent.HandsOver (crates : Crates) (c : ClaimedEvent) (probe add : Attempt) : Prop :=
  match c.text? crates with
  | none => False
  | some text => Session.HandsOver crates c.endpoint c.thread c.row.clientId text probe add

instance (crates : Crates) (c : ClaimedEvent) (probe add : Attempt) :
    Decidable (c.HandsOver crates probe add) := by
  unfold ClaimedEvent.HandsOver
  split <;> infer_instance

/-- The attempts fit what happened to the job: the add was handed over if and only if the job has
a ticket, and an add that the server answered with an error is refused. -/
def Job.Fits (crates : Crates) (job : Job) (adds : Channel.Log String) (probe add : Attempt) :
    Prop :=
  (job.claimed.HandsOver crates probe add ↔ job.ticket.isSome = true) ∧
    (add.exchange.Refused crates →
      ∀ n ∈ job.ticket, (adds[n]?).map Channel.Ticket.fate = some .refused)

instance (crates : Crates) (job : Job) (adds : Channel.Log String) (probe add : Attempt) :
    Decidable (job.Fits crates adds probe add) :=
  inferInstanceAs (Decidable (_ ∧ _))

/-- The dispatcher ends: its jobs are dropped. -/
def System.endDispatch (s : System) (db : Db) : System :=
  { s with db := db, dispatching := false, jobs := [] }

/-- The reconciler ends. -/
def System.endReconcile (s : System) (db : Db) : System :=
  { s with db := db, reconciling := false, rows := [], inspecting := [] }

def maxJobs : Nat := 4

/-- One step; `none` when the action is not possible. -/
def System.step (crates : Crates) (s : System) : Action → Option System
  | .call op => if op.Handles = true then none else some { s with db := op.step crates s.db }
  | .start nextAt now =>
      if s.dispatching = true ∨ s.reconciling = true then none
      else
        some { s with
          db := (Op.recoverSubmitting nextAt now).step crates s.db
          dispatching := true
          reconciling := true }
  | .stop => some ((s.endDispatch s.db).endReconcile s.db)
  | .claim clock =>
      if s.dispatching = true ∧ s.jobs.length < maxJobs then
        match (claim crates clock).run s.db with
        | (.ok (some c), db) => some { s with db := db, jobs := s.jobs ++ [⟨c, none⟩] }
        | (.ok none, db) => some { s with db := db }
        | (.error _, db) => some (s.endDispatch db)
      else none
  | .handOver i =>
      match s.jobs[i]? with
      | some ⟨c, none⟩ =>
          some { s with
            jobs := s.jobs.set i ⟨c, some s.adds.length⟩
            adds := Channel.send s.adds c.row.clientId }
      | _ => none
  | .decide n fate => some { s with adds := Channel.resolve s.adds n fate }
  | .complete i probe add now =>
      match s.jobs[i]? with
      | none => none
      | some job =>
          if job.Fits crates s.adds probe add then
            match (deliverOne crates job.claimed probe add now).run s.db with
            | (.ok _, db) => some { s with db := db, jobs := s.jobs.eraseIdx i }
            | (.error _, db) => some (s.endDispatch db)
          else none
  | .abort i => some { s with jobs := s.jobs.eraseIdx i }
  | .scan =>
      if s.reconciling = true ∧ s.rows = [] ∧ s.inspecting = [] then
        match (uncertainEvents crates).run s.db with
        | (.ok rows, db) => some { s with db := db, rows := rows }
        | (.error _, db) => some (s.endReconcile db)
      else none
  | .batch =>
      if s.reconciling = true ∧ s.inspecting = [] then
        some { s with rows := s.rows.drop maxJobs, inspecting := s.rows.take maxJobs }
      else none
  | .inspected i probe queue turns inTime now =>
      match s.inspecting[i]? with
      | none => none
      | some c =>
          match (reconcileJob crates c probe queue turns inTime now).run s.db with
          | (.ok _, db) => some { s with db := db, inspecting := s.inspecting.eraseIdx i }
          | (.error _, db) => some (s.endReconcile db)
  | .abandon i => some { s with inspecting := s.inspecting.eraseIdx i }

/-- Any number of steps. -/
def System.Leads (crates : Crates) : System → System → Prop :=
  Relation.ReflTransGen fun s t => ∃ action, s.step crates action = some t

/-- Reachable from a receiver that has never run. -/
def System.Reachable (crates : Crates) (s : System) : Prop := System.Leads crates .initial s

/-- What every step keeps holds at the end of every run it holds at the start of. -/
theorem System.Leads.invariant {crates : Crates} {P : System → Prop}
    (hstep : ∀ s action t, P s → s.step crates action = some t → P t) {s t : System}
    (h : System.Leads crates s t) (hs : P s) : P t := by
  induction h with
  | refl => exact hs
  | tail _ hmove ih =>
      obtain ⟨action, haction⟩ := hmove
      exact hstep _ action _ ih haction

/-- The system after a list of actions. -/
def System.after? (crates : Crates) (actions : List Action) : Option System :=
  actions.foldlM (System.step crates) .initial

theorem System.reachable_after {crates : Crates} {actions : List Action} {s : System}
    (h : System.after? crates actions = some s) : System.Reachable crates s := by
  have hrun : ∀ (actions : List Action) (r : System),
      actions.foldlM (System.step crates) r = some s → System.Leads crates r s := by
    intro actions
    induction actions with
    | nil =>
        intro r h
        cases h
        exact .refl
    | cons action actions ih =>
        intro r h
        rw [List.foldlM_cons] at h
        obtain ⟨t, hstep, hrest⟩ := Option.bind_eq_some_iff.mp h
        exact Relation.ReflTransGen.head ⟨action, hstep⟩ (ih t hrest)
  exact hrun actions .initial h

theorem System.after_concat {crates : Crates} {actions : List Action} {action : Action}
    {s t : System} (h : System.after? crates actions = some s)
    (hstep : s.step crates action = some t) :
    System.after? crates (actions ++ [action]) = some t := by
  rw [System.after?] at h
  rw [System.after?, List.foldlM_append, h]
  simp only [Option.bind_eq_bind, Option.bind_some, List.foldlM_cons, List.foldlM_nil, hstep]
  rfl

/-- A job whose hand-over is recorded ends. -/
theorem System.step_complete {crates : Crates} {s : System} {i : Nat} {job : Job}
    {probe add : Attempt} {now : Rat} {db : Db} (hjob : s.jobs[i]? = some job)
    (hfits : job.Fits crates s.adds probe add)
    (hrun : (deliverOne crates job.claimed probe add now).run s.db = (.ok (), db)) :
    s.step crates (.complete i probe add now) =
      some { s with db := db, jobs := s.jobs.eraseIdx i } := by
  rw [System.step, hjob]
  dsimp only
  rw [if_pos hfits, hrun]

end CodexMonitor
