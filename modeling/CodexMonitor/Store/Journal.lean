import CodexMonitor.Store.Operation

/-!
# The journal of a run

Every call that commits is a sequence of *entries*: the atomic things the store
can do to its tables, each with the condition under which it is done.  An
invariant is proved once against the entries; that the calls write nothing else
is proved once, call by call.
-/

namespace CodexMonitor

open Transaction

/-- One atomic change of the database. -/
inductive Entry
  /-- a native route is registered -/
  | bind (b : Binding)
  /-- a route is paused, resumed or removed -/
  | route (name : String) (action : LifecycleAction) (now : Rat)
  /-- intake stores an event -/
  | store (e : Event)
  /-- `claim` expires a stale event -/
  | expire (e : Event) (now : Rat)
  /-- `claim` hands an event out -/
  | submit (e : Event) (now : Rat)
  /-- an event in flight gets an outcome -/
  | finish (e : Event) (state : EventState) (submissionId error : Option String) (now : Rat)
  /-- an event that never reached its endpoint goes back -/
  | defer (e : Event) (error : String) (now : Rat)
  /-- start-up recovery -/
  | recover (nextAt now : Rat)
  /-- a managed watch is registered with its binding -/
  | createWatch (b : Binding) (w : Watch)
  /-- a managed watch is paused, resumed or removed -/
  | watch (w : Watch) (action : LifecycleAction) (now : Rat)
  /-- a sample moves a watch's checkpoint -/
  | checkpoint (w : Watch) (text : String) (now : Rat)
  /-- a reply is put into the outbox -/
  | reply (r : Reply)
  /-- a reply is acknowledged -/
  | acknowledge (source replyId : String) (now : Rat)
  /-- a request is created -/
  | create (r : Request)
  /-- a request changes state -/
  | transition (r : Request) (updateId : String) (state : RequestState) (detail : Option String)
      (now : Rat)
  /-- a notification can never be delivered -/
  | failNotice (n : RequestNotification) (error : String) (now : Rat)
  /-- a notification takes over an existing event -/
  | link (n : RequestNotification) (e : Event) (now : Rat)
  /-- a notification waits for room -/
  | postpone (n : RequestNotification) (now : Rat)
  /-- a notification's own event is stored -/
  | deliver (n : RequestNotification) (e : Event) (now : Rat)

/-- The history row of a transition. -/
def transitionRow (db : Db) (r : Request) (updateId : String) (state : RequestState)
    (detail : Option String) (now : Rat) : RequestUpdate :=
  ⟨db.nextUpdateSeq, r.requestId, updateId, r.revision, r.revision + 1, r.state, state, detail,
    now⟩

/-- Append the outbox row of a transition, if its state has one. -/
def Db.addNotice (db : Db) (crates : Crates) (r : Request) (updateId : String)
    (state : RequestState) (detail : Option String) (now : Rat) : Db :=
  if state.notifies = true then
    { db with
      requestNotifications := db.requestNotifications.add
        (newNotification crates r updateId (r.revision + 1) state detail now) }
  else db

/-- Append the history row of a transition. -/
def Db.addUpdate (db : Db) (r : Request) (updateId : String) (state : RequestState)
    (detail : Option String) (now : Rat) : Db :=
  { db with
    requestUpdates := db.requestUpdates.add (transitionRow db r updateId state detail now) }

/-- Remove a route: settle its pending events and their notifications. -/
def Db.settleRoute (db : Db) (name : String) (retired : Bool) (now : Rat) : Db :=
  if retired then (db.killPending name now).failNotices name now else db

/-- The database after an entry. -/
def Entry.apply (crates : Crates) (db : Db) : Entry → Db
  | .bind b => { db with bindings := db.bindings.add b }
  | .route name action now =>
      ((db.setBinding name (action = .resume) (action = .remove)).setRouteWatches name
        (action = .resume) (action = .remove)).settleRoute name (action = .remove) now
  | .store e => { db with events := db.events.add e }
  | .expire e now => (db.expireEvent e.id now).settleNotices e.id .failed (some "event expired") now
  | .submit e now => db.submitPending e.id now
  | .finish e state submissionId error now =>
      (db.finishEvent e.id state submissionId error e.attempts
        (storedNextAt state e.attempts now) now).mirrorOutcome e.id state error now
  | .defer e error now => db.deferEvent e.id error (e.attempts - 1) now
  | .recover nextAt now => db.recoverEvents nextAt now
  | .createWatch b w =>
      { db with
        bindings := db.bindings.add b
        managedWatches := db.managedWatches.add w }
  | .watch w action now =>
      (db.setWatch w.id (action = .resume) (action = .remove) now).setBinding w.binding
        (action = .resume) (action = .remove)
  | .checkpoint w text now => db.setCheckpoint w.id w.epoch text now
  | .reply r => { db with replies := db.replies.add r }
  | .acknowledge source replyId now => db.acknowledgeReply source replyId now
  | .create r => { db with requests := db.requests.add r }
  | .transition r updateId state detail now =>
      ((db.addUpdate r updateId state detail now).advanceRequest r.requestId r.revision
        (r.revision + 1) state now).addNotice crates r updateId state detail now
  | .failNotice n error now => db.failNotice n.notificationId error now
  | .link n e now =>
      db.linkNotice n.notificationId (linkOutcome e.state).1 e.id (linkOutcome e.state).2 now
  | .postpone n now => db.postponeNotice n.notificationId now
  | .deliver n e now =>
      { db with events := db.events.add e }.deliverNotice n.notificationId e.id now

/-! ## When an entry is written -/

/-- A binding that takes new events of a source. -/
def Db.Accepts (db : Db) (binding source : String) (b : Binding) : Prop :=
  b ∈ db.bindings ∧ b.name = binding ∧ b.enabled = true ∧ b.removed = false ∧ source ∈ b.sources

/-- The queue, rate and trace limits leave room for one more event. -/
structure Db.RoomFor (db : Db) (crates : Crates) (binding : String) (traceId : Option String)
    (now : Rat) : Prop where
  open_lt : db.openEvents binding < maxPending
  recent_lt : db.recentEvents binding now < rateLimit
  trace_lt : ∃ n < traceLimit, db.traceEvents crates traceId = some n

/-- A pending notification that has no event yet and whose turn it is. -/
structure Db.Ready (db : Db) (n : RequestNotification) : Prop where
  mem : n ∈ db.requestNotifications
  pending : n.state = .pending
  unlinked : n.deliveryId = none
  first : db.NoEarlierNotice n

/-- A notification's binding is gone, retired, or no longer its request's. -/
def Db.Undeliverable (db : Db) (n : RequestNotification) : Prop :=
  (∀ b ∈ db.bindings, b.name ≠ n.originalBinding) ∨
    ∃ b ∈ db.bindings, b.name = n.originalBinding ∧
      (b.removed = true ∨ n.source ∉ b.sources ∨
        ∃ r ∈ db.requests, r.requestId = n.requestId ∧ r.thread ≠ b.thread)

/-- A new event is numbered next and named after a fresh identifier. -/
def Db.Fresh (db : Db) (e : Event) : Prop :=
  db.events.Admits e ∧ e.seq = db.nextEventSeq ∧
    ∃ uuid : Uuid, e.id = uuid.text ∧ e.clientId = "codex-monitor:" ++ uuid.text

/-- The condition under which the store writes an entry. -/
def Entry.Enabled (crates : Crates) (db : Db) : Entry → Prop
  | .bind b =>
      db.bindings.Admits b ∧ b.enabled = true ∧ b.removed = false ∧ "managed/file" ∉ b.sources
  | .route name action _ =>
      ∃ b ∈ db.bindings, b.name = name ∧ (b.removed = true → action = .remove)
  | .store e =>
      db.Fresh e ∧ (e.state = .pending ∨ e.state = .ignored) ∧ e.attempts = 0 ∧
        (∃ b, db.Accepts e.binding e.source b) ∧
        ∃ traceId, db.RoomFor crates e.binding traceId e.created
  | .expire e now => e ∈ db.events ∧ db.Claimable now e ∧ maxAgeSeconds < now - e.created
  | .submit e now => e ∈ db.events ∧ db.Claimable now e ∧ now - e.created ≤ maxAgeSeconds
  | .finish e state _ _ _ =>
      e ∈ db.events ∧ e.state.inFlight = true ∧ state ≠ .submitting ∧
        (state = .pending → e.attempts < maxAttempts)
  | .defer e _ _ => e ∈ db.events ∧ e.state = .submitting
  | .recover _ _ => True
  | .createWatch b w =>
      db.bindings.Admits b ∧ db.managedWatches.Admits w ∧ b.name = w.binding ∧
        b.thread = w.thread ∧ b.sources = ["managed/file"] ∧
        b.enabled = true ∧ b.removed = false ∧ w.enabled = true ∧ w.removed = false
  | .watch w _ _ => w ∈ db.managedWatches ∧ w.removed = false
  | .checkpoint w _ _ => w ∈ db.managedWatches ∧ w.enabled = true ∧ w.removed = false
  | .reply r =>
      db.replies.Admits r ∧ r.seq = db.nextReplySeq ∧ r.acknowledged = none ∧
        (∃ e ∈ db.events, e.id = r.deliveryId ∧ e.source = r.source ∧ e.binding = r.binding ∧
          e.eventId = r.eventId) ∧
        (db.replies.count fun r => r.acknowledged = none) < maxReplies
  | .acknowledge source replyId _ => ∃ r ∈ db.replies, r.id = replyId ∧ r.source = source
  | .create r =>
      db.requests.Admits r ∧ r.seq = db.nextRequestSeq ∧ r.state = .received ∧ r.revision = 0 ∧
        (∃ uuid : Uuid, r.requestId = uuid.text) ∧
        ∃ e ∈ db.events, e.id = r.deliveryId ∧ e.source = r.source ∧ e.binding = r.binding ∧
          ∃ b ∈ db.bindings, b.name = e.binding ∧ b.thread = r.thread
  | .transition r updateId state detail now =>
      r ∈ db.requests ∧ allowedTransition r.state state = true ∧
        db.requestUpdates.Admits (transitionRow db r updateId state detail now) ∧
        (state.notifies = true → db.pendingNotices < maxRequestNotifications ∧
          db.requestNotifications.Admits
            (newNotification crates r updateId (r.revision + 1) state detail now))
  | .failNotice n _ _ => db.Ready n ∧ db.Undeliverable n
  | .link n e _ =>
      db.Ready n ∧ (∃ b, db.Accepts n.originalBinding n.source b) ∧ e ∈ db.events ∧
        e.binding = n.originalBinding ∧ e.source = n.source ∧ e.eventId = n.eventId
  | .postpone n _ => db.Ready n
  | .deliver n e now =>
      db.Ready n ∧ (∃ b, db.Accepts n.originalBinding n.source b) ∧ db.Fresh e ∧
        e.binding = n.originalBinding ∧ e.source = n.source ∧ e.eventId = n.eventId ∧
        e.envelope = n.envelope ∧ e.state = .pending ∧ e.created = now ∧
        e.attempts = n.attempts ∧ db.RoomFor crates e.binding none now

/-- A sequence of entries, each written under its condition. -/
inductive Journal (crates : Crates) : Db → List Entry → Db → Prop
  | nil (db : Db) : Journal crates db [] db
  | cons {db db' : Db} {k : Entry} {ks : List Entry} (enabled : k.Enabled crates db)
      (rest : Journal crates (k.apply crates db) ks db') : Journal crates db (k :: ks) db'

theorem Journal.single {crates : Crates} {db : Db} {k : Entry} (h : k.Enabled crates db) :
    Journal crates db [k] (k.apply crates db) :=
  .cons h (.nil _)

theorem Journal.append {crates : Crates} {db db' db'' : Db} {ks ls : List Entry}
    (h : Journal crates db ks db') (h' : Journal crates db' ls db'') :
    Journal crates db (ks ++ ls) db'' := by
  induction h with
  | nil db => exact h'
  | cons enabled _ ih => exact .cons enabled (ih h')

/-- What every entry of a journal keeps holds at its end. -/
theorem Journal.invariant {crates : Crates} {P : Db → Prop} {db db' : Db} {ks : List Entry}
    (h : Journal crates db ks db')
    (hstep : ∀ k ∈ ks, ∀ d, k.Enabled crates d → P d → P (k.apply crates d)) (hdb : P db) :
    P db' := by
  induction h with
  | nil db => exact hdb
  | @cons db db' k ks enabled _ ih =>
      exact ih (fun l hl => hstep l (List.mem_cons_of_mem _ hl))
        (hstep k List.mem_cons_self _ enabled hdb)

end CodexMonitor
