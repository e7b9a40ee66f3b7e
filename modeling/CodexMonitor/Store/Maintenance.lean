import CodexMonitor.Store.Requests

/-!
# Request maintenance

One run of `request_maintenance`: a read-only look whether there is anything to
do, then one transaction that expires due requests and moves ready notifications
into the event queue, at most `limit` pieces of work in all.
-/

namespace CodexMonitor

open Transaction

/-! ## Expiry -/

/-- An open request whose deadline has passed. -/
def Request.Due (now : Rat) (r : Request) : Prop :=
  (∃ deadline ∈ r.expiresAt, deadline ≤ now) ∧ r.state.isTerminal = false

instance (now : Rat) : DecidablePred (Request.Due now) :=
  fun _ => inferInstanceAs (Decidable (_ ∧ _))

/-- Due requests in `seq` order. -/
def Db.dueRequests (db : Db) (now : Rat) : List Request :=
  db.requests.select (Request.Due now) fun a b => a.seq ≤ b.seq

/-- `while work < limit`: expire the first due request, until none is due, the outbox is full
or the limit is reached.  The fuel is the work left. -/
def expiryLoop (crates : Crates) (now : Rat) (limit : Nat) : Nat → Nat → StoreM Nat
  | 0, work => pure work
  | fuel + 1, work =>
      if limit ≤ work then pure work
      else do
        let due ← Tx.query fun db => (db.dueRequests now).head?
        match due with
        | none => pure work
        | some r => do
            let pending ← Tx.query fun db => db.pendingNotices
            if maxRequestNotifications ≤ pending then pure work
            else do
              recordTransition crates r (requestExpiryId r.requestId r.revision) r.revision .expired
                none now
              expiryLoop crates now limit fuel (work + 1)

/-! ## Transfer -/

/-- No earlier notification of the same request is pending. -/
def Db.NoEarlierNotice (db : Db) (n : RequestNotification) : Prop :=
  ¬ db.requestNotifications.Any fun earlier =>
    earlier.requestId = n.requestId ∧ earlier.revision < n.revision ∧ earlier.state = .pending

/-- The `WHERE` clause of the transfer batch. -/
def Db.Transferable (db : Db) (now : Rat) (n : RequestNotification) : Prop :=
  n.state = .pending ∧ n.deliveryId = none ∧ n.nextAt ≤ now ∧
    (¬ db.bindings.Any fun b =>
      b.name = n.originalBinding ∧ b.enabled = false ∧ b.removed = false) ∧
    db.NoEarlierNotice n

instance (db : Db) (n : RequestNotification) : Decidable (db.NoEarlierNotice n) :=
  inferInstanceAs (Decidable (¬ _))

instance (db : Db) (now : Rat) : DecidablePred (db.Transferable now) :=
  fun _ => inferInstanceAs (Decidable (_ ∧ _))

/-- `ORDER BY n.next_at,n.created`. -/
def noticeOrder (a b : RequestNotification) : Prop :=
  a.nextAt < b.nextAt ∨ (a.nextAt = b.nextAt ∧ a.created ≤ b.created)

instance : DecidableRel noticeOrder :=
  fun _ _ => inferInstanceAs (Decidable (_ ∨ _))

/-- `(limit - work).saturating_mul(4).clamp(1, 100)`. -/
def candidateLimit (limit work : Nat) : Nat :=
  max 1 (min ((limit - work) * 4) maxRequestMaintenance)

/-- The batch the transfer loop walks, read once before the loop. -/
def Db.candidates (db : Db) (now : Rat) (limit work : Nat) : List RequestNotification :=
  (db.requestNotifications.select (db.Transferable now) noticeOrder).take
    (candidateLimit limit work)

/-- A write to one notification that is still pending:
`WHERE notification_id=? AND state='pending'`. -/
def Db.setNotice (db : Db) (notificationId : String)
    (f : RequestNotification → RequestNotification)
    (hf : ∀ n, (f n).key = n.key := by intro n; rfl) : Db :=
  { db with
    requestNotifications := db.requestNotifications.update
      (fun n => n.notificationId = notificationId ∧ n.state = .pending) f hf }

/-- The notification can never be delivered. -/
def Db.failNotice (db : Db) (notificationId error : String) (now : Rat) : Db :=
  db.setNotice notificationId fun n =>
    { n with state := .failed, error := some error, updated := now }

/-- The notification takes over an event that already stands under its id. -/
def Db.linkNotice (db : Db) (notificationId : String) (state : NoticeState) (deliveryId : String)
    (error : Option String) (now : Rat) : Db :=
  db.setNotice notificationId fun n =>
    { n with state := state, deliveryId := some deliveryId, error := error, updated := now }

/-- The notification waits for room in its binding's queue. -/
def Db.postponeNotice (db : Db) (notificationId : String) (now : Rat) : Db :=
  db.setNotice notificationId fun n =>
    { n with nextAt := now + 1, error := some "binding queue capacity reached", updated := now }

/-- The notification's own event was stored. -/
def Db.deliverNotice (db : Db) (notificationId deliveryId : String) (now : Rat) : Db :=
  db.setNotice notificationId fun n =>
    { n with deliveryId := some deliveryId, error := none, updated := now }

/-- What an event that already exists makes of its notification. -/
def linkOutcome : EventState → NoticeState × Option String
  | .accepted => (.accepted, none)
  | .dead => (.failed, some "notification event was rejected")
  | .pending | .submitting | .uncertain | .ignored => (.pending, none)

/-- One candidate; the answer is the work it was. -/
def transferOne (uuid : Uuid) (now : Rat) (n : RequestNotification) : StoreM Nat := do
  let target ← Tx.query fun db => db.bindings.find? fun b => b.name = n.originalBinding
  match target with
  | none => do
      Tx.write fun db => db.failNotice n.notificationId "original binding is unavailable" now
      pure 1
  | some b =>
      if b.removed = true then do
        Tx.write fun db => db.failNotice n.notificationId "original binding was removed" now
        pure 1
      else if b.enabled = false then pure 0
      else do
        let r ← Tx.query fun db => db.requestById n.requestId
        let r ← Tx.expect (.sqlite "Query returned no rows") r
        if n.source ∉ b.sources ∨ r.thread ≠ b.thread then do
          Tx.write fun db =>
            db.failNotice n.notificationId "original binding or source is unavailable" now
          pure 1
        else do
          let existing ← Tx.query fun db => db.eventAt n.originalBinding n.source n.eventId
          match existing with
          | some e => do
              let outcome := linkOutcome e.state
              Tx.write fun db => db.linkNotice n.notificationId outcome.1 e.id outcome.2 now
              pure 1
          | none => do
              let pending ← Tx.query fun db => db.openEvents n.originalBinding
              let recent ← Tx.query fun db => db.recentEvents n.originalBinding now
              if maxPending ≤ pending ∨ rateLimit ≤ recent then do
                Tx.write fun db => db.postponeNotice n.notificationId now
                pure 1
              else do
                insertInto "UNIQUE constraint failed: events" fun db => db.insertEvent?
                  (newEvent db.nextEventSeq uuid n.originalBinding n.source n.eventId n.envelope
                    .pending now n.attempts)
                Tx.write fun db => db.deliverNotice n.notificationId uuid.text now
                pure 1

/-- The loop over the batch; the `i`-th candidate would store its event under `uuids i`. -/
def transferLoop (uuids : Nat → Uuid) (now : Rat) (limit : Nat) :
    List RequestNotification → Nat → Nat → StoreM Nat
  | [], _, work => pure work
  | n :: rest, i, work =>
      if limit ≤ work then pure work
      else do
        let done ← transferOne (uuids i) now n
        transferLoop uuids now limit rest (i + 1) (work + done)

/-! ## A maintenance run -/

/-- The read-only look before the writer lock is taken. -/
def Db.workNeeded (db : Db) (now : Rat) : Prop :=
  db.requests.Any (Request.Due now) ∨
    db.requestNotifications.Any fun n =>
      n.state = .pending ∧ n.deliveryId = none ∧ n.nextAt ≤ now ∧
        ((¬ db.bindings.Any fun b => b.name = n.originalBinding) ∨
          db.bindings.Any fun b =>
            b.name = n.originalBinding ∧ (b.enabled = true ∨ b.removed = true))

instance (db : Db) (now : Rat) : Decidable (db.workNeeded now) :=
  inferInstanceAs (Decidable (_ ∨ _))

/-- The writing half of a run: expire, then transfer with the work that is left. -/
def maintenanceTx (crates : Crates) (limit : Nat) (uuids : Nat → Uuid) (now : Rat) :
    StoreM Nat := do
  let work ← expiryLoop crates now limit limit 0
  if limit ≤ work then pure work
  else do
    let batch ← Tx.query fun db => db.candidates now limit work
    transferLoop uuids now limit batch 0 work

/-- Expire due requests and transfer ready notifications; the answer is the work done. -/
def requestMaintenance (crates : Crates) (limit : Nat) (uuids : Nat → Uuid) (now : Rat) :
    StoreM Nat := do
  bailIf (¬ (1 ≤ limit ∧ limit ≤ maxRequestMaintenance))
    "request maintenance limit must be between 1 and 100"
  let needed ← Tx.query fun db => decide (db.workNeeded now)
  if needed = false then pure 0
  else withTx (maintenanceTx crates limit uuids now)

end CodexMonitor
