import CodexMonitor.Store.Schema

/-!
# Handing events to a dispatcher

`claim` gives out the next deliverable event of some binding and expires stale
ones on the way; `finish` records what became of a handed-out event;
`deferUnavailable` takes it back when the endpoint was never reached;
`recoverSubmitting` runs at start-up.  Every settlement of an event is mirrored
into the notification that waits for it.
-/

namespace CodexMonitor

open Transaction

/-! ## Claiming -/

/-- No earlier event of the same binding is open. -/
def Db.NoEarlierOpen (db : Db) (e : Event) : Prop :=
  ¬ db.events.Any fun earlier =>
    earlier.binding = e.binding ∧ earlier.seq < e.seq ∧ earlier.state.isOpen = true

/-- The `WHERE` clause of `claim`. -/
def Db.Claimable (db : Db) (now : Rat) (e : Event) : Prop :=
  e.state = .pending ∧
    (db.bindings.Any fun b => b.name = e.binding ∧ b.enabled = true ∧ b.removed = false) ∧
    e.nextAt ≤ now ∧ db.NoEarlierOpen e

instance (db : Db) (e : Event) : Decidable (db.NoEarlierOpen e) :=
  inferInstanceAs (Decidable (¬ _))

instance (db : Db) (now : Rat) : DecidablePred (db.Claimable now) :=
  fun _ => inferInstanceAs (Decidable (_ ∧ _))

/-- `ORDER BY e.next_at,e.seq`. -/
def claimOrder (a b : Event) : Prop :=
  a.nextAt < b.nextAt ∨ (a.nextAt = b.nextAt ∧ a.seq ≤ b.seq)

instance : DecidableRel claimOrder :=
  fun _ _ => inferInstanceAs (Decidable (_ ∨ _))

/-- The event `claim` looks at next. -/
def Db.claimCandidate (db : Db) (now : Rat) : Option Event :=
  (db.events.select (db.Claimable now) claimOrder).head?

/-- What a dispatcher gets: the event's row, its parsed envelope and its route. -/
structure ClaimedEvent where
  row : Event
  envelope : Value
  thread : String
  endpoint : String
deriving BEq, Repr

/-- `SELECT e.*,b.thread,b.endpoint FROM events e JOIN bindings b …`, the envelope parsed. -/
def Db.claimedEvent (db : Db) (crates : Crates) (e : Event) : Except StoreError ClaimedEvent :=
  match db.bindings.find? fun b => b.name = e.binding with
  | none => .error (.sqlite "Query returned no rows")
  | some b =>
      match crates.fromStr e.envelope with
      | none => .error (.sqlite "stored envelope is not JSON")
      | some envelope => .ok ⟨e, envelope, b.thread, b.endpoint⟩

/-- Settle an event as dead: `WHERE id=?`. -/
def Db.expireEvent (db : Db) (id : String) (now : Rat) : Db :=
  { db with
    events := db.events.update (fun e => e.id = id) fun e =>
      { e with state := .dead, error := some "event expired", updated := now } }

/-- Settle the notification that waits for an event:
`WHERE delivery_id=? AND state='pending'`. -/
def Db.settleNotices (db : Db) (id : String) (state : NoticeState) (error : Option String)
    (now : Rat) : Db :=
  { db with
    requestNotifications := db.requestNotifications.update
      (fun n => n.deliveryId = some id ∧ n.state = .pending) fun n =>
        { n with state := state, error := error, updated := now } }

/-- Spend one attempt: `WHERE id=? AND state='pending'`. -/
def Db.submitPending (db : Db) (id : String) (now : Rat) : Db :=
  { db with
    events := db.events.update (fun e => e.id = id ∧ e.state = .pending) fun e =>
      { e with state := .submitting, attempts := e.attempts + 1, updated := now } }

/-- Claim an event that is not pending; the query above never returns one. -/
def Db.submitOther (db : Db) (id : String) (state : EventState) (now : Rat) : Db :=
  { db with
    events := db.events.update (fun e => e.id = id ∧ e.state = state) fun e =>
      { e with state := .submitting, updated := now } }

/-- The row with an id. -/
def Db.eventById (db : Db) (id : String) : Option Event :=
  db.events.find? fun e => e.id = id

/-- One round of `claim`'s loop per unit of fuel; the `i`-th round reads the clock at
`clock i`. -/
def claimLoop (crates : Crates) (clock : Nat → Rat) : Nat → Nat → StoreM (Option ClaimedEvent)
  | 0, _ => Tx.fail .outOfFuel
  | fuel + 1, i => do
      let now := clock i
      let row ← Tx.query fun db => db.claimCandidate now
      match row with
      | none => pure none
      | some e =>
          if e.state = .pending ∧ maxAgeSeconds < now - e.created then do
            Tx.write fun db => db.expireEvent e.id now
            Tx.write fun db => db.settleNotices e.id .failed (some "event expired") now
            claimLoop crates clock fuel (i + 1)
          else do
            Tx.write fun db =>
              if e.state = .pending then db.submitPending e.id now
              else db.submitOther e.id e.state now
            let row ← Tx.query fun db => db.eventById e.id
            let row ← Tx.expect (.sqlite "Query returned no rows") row
            let result ← Tx.query fun db => db.claimedEvent crates row
            let claimed ← Tx.ofExcept result
            pure (some claimed)

/-- Atomically claim the next event.  Each round of the loop settles an event or ends it, so
one round more than there are events is enough. -/
def claim (crates : Crates) (clock : Nat → Rat) : StoreM (Option ClaimedEvent) :=
  withTx do
    let rounds ← Tx.query fun db => db.events.rows.length + 1
    claimLoop crates clock rounds 0

/-! ## Finishing -/

/-- The states `finish` takes. -/
def finishState? (state : String) : Option EventState :=
  if state = "pending" then some .pending
  else if state = "accepted" then some .accepted
  else if state = "uncertain" then some .uncertain
  else if state = "dead" then some .dead
  else if state = "ignored" then some .ignored
  else none

/-- Exponential back-off, at most a minute. -/
def retryDelay (attempts : Int) : Rat :=
  let exponent := (max 0 (min (attempts - 1) 6)).toNat
  min (retryBackoffBaseSeconds * 2 ^ exponent) retryBackoffMaxSeconds

/-- The state and error `finish` stores: a retry beyond the limit is the end. -/
def storedOutcome (state : EventState) (error : Option String) (attempts : Int) :
    EventState × Option String :=
  if state = .pending ∧ maxAttempts ≤ attempts then
    (.dead, some (error.getD "delivery retry limit reached"))
  else (state, error)

/-- When a stored outcome may be tried again. -/
def storedNextAt (state : EventState) (attempts : Int) (now : Rat) : Rat :=
  if state = .pending then now + retryDelay attempts else 0

/-- `UPDATE events SET state=?,submission_id=?,error=?,attempts=?,next_at=?,updated=?
WHERE id=?`. -/
def Db.finishEvent (db : Db) (id : String) (state : EventState) (submissionId error : Option String)
    (attempts : Int) (nextAt now : Rat) : Db :=
  { db with
    events := db.events.update (fun e => e.id = id) fun e =>
      { e with
        state := state
        submissionId := submissionId
        error := error
        attempts := attempts
        nextAt := nextAt
        updated := now } }

/-- The outbox half of `finish`: an acceptance or a death settles the notification. -/
def Db.mirrorOutcome (db : Db) (id : String) (state : EventState) (error : Option String)
    (now : Rat) : Db :=
  if state = .accepted then db.settleNotices id .accepted none now
  else if state = .dead then
    db.settleNotices id .failed (some (error.getD "notification delivery failed")) now
  else db

/-- Record the outcome of an event that is in flight. -/
def finish (id state : String) (submissionId error : Option String) (now : Rat) : StoreM Unit := do
  validateIdentifier id "delivery id"
  let state ← Tx.expect (.bail "invalid event state") (finishState? state)
  bailIf (submissionId.any (fun value => isIdentifier value = false))
    "submission id must be a nonempty identifier"
  bailIf (error.any fun value => 4096 < value.utf8ByteSize) "event error is too long"
  withTx do
    let row ← Tx.query fun db => db.eventById id
    let e ← Tx.expect (.bail "event not found") row
    if e.state = .accepted then
      bailIf (¬ (state = .accepted ∧ e.submissionId = submissionId))
        "accepted event cannot be finished with different content"
    else do
      bailIf (¬ (e.state = .submitting ∨ e.state = .uncertain)) "event is not in flight"
      let outcome := storedOutcome state error e.attempts
      let nextAt := storedNextAt outcome.1 e.attempts now
      Tx.write fun db =>
        db.finishEvent id outcome.1 submissionId outcome.2 e.attempts nextAt now
      Tx.write fun db => db.mirrorOutcome id outcome.1 outcome.2 now

/-- `UPDATE events SET state='pending',attempts=?,next_at=?,error=?,updated=? WHERE id=?`. -/
def Db.deferEvent (db : Db) (id error : String) (attempts : Int) (now : Rat) : Db :=
  { db with
    events := db.events.update (fun e => e.id = id) fun e =>
      { e with
        state := .pending
        attempts := attempts
        nextAt := now + 5
        error := some error
        updated := now } }

/-- Return an event to pending after the endpoint preflight failed; the attempt is refunded. -/
def deferUnavailable (id error : String) (now : Rat) : StoreM Unit := do
  validateIdentifier id "delivery id"
  bailIf (4096 < error.utf8ByteSize) "event error is too long"
  withTx do
    let row ← Tx.query fun db => db.eventById id
    let e ← Tx.expect (.bail "event not found") row
    bailIf (e.state ≠ .submitting) "event is not in flight"
    Tx.write fun db => db.deferEvent id error (e.attempts - 1) now

/-! ## Recovery -/

/-- `UPDATE events SET state='uncertain',next_at=?,updated=? WHERE state='submitting'`; the
clock is read once for each column. -/
def Db.recoverEvents (db : Db) (nextAt now : Rat) : Db :=
  { db with
    events := db.events.update (fun e => e.state = .submitting) fun e =>
      { e with state := .uncertain, nextAt := nextAt, updated := now } }

/-- Start-up recovery: every hand-over the last run left open becomes uncertain. -/
def recoverSubmitting (nextAt now : Rat) : StoreM Unit :=
  withTx (Tx.write fun db => db.recoverEvents nextAt now)

/-- The rows of `uncertain_events`, joined with their bindings, in `seq` order. -/
def Db.uncertainRows (db : Db) : List Event :=
  db.events.select
    (fun e => e.state = .uncertain ∧ db.bindings.Any fun b => b.name = e.binding)
    fun a b => a.seq ≤ b.seq

/-- Read uncertain hand-overs without claiming them again. -/
def uncertainEvents (crates : Crates) : StoreM (List ClaimedEvent) := do
  let rows ← Tx.query fun db => db.uncertainRows.mapM (db.claimedEvent crates)
  Tx.ofExcept rows

end CodexMonitor
