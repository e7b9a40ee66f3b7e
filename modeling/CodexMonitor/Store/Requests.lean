import CodexMonitor.Store.Intake

/-!
# Tracked requests and their outbox

A request is created from an event its source delivered, moves through its
states by client updates and by expiry, and puts a notification into the outbox
at each state that concerns the conversation.  `requestMaintenance` expires due
requests and transfers ready notifications into the ordinary event queue.
-/

namespace CodexMonitor

open Transaction

/-! ## Creating a request -/

/-- A request as the operations answer it: the row with its payload parsed. -/
structure RequestValue where
  row : Request
  payload : Value
deriving BEq, Repr

/-- `request_value`: parse the stored payload. -/
def requestValue (crates : Crates) (r : Request) : Except StoreError RequestValue :=
  match crates.fromStr r.payload with
  | none => .error (.sqlite "stored payload is not JSON")
  | some payload => .ok ⟨r, payload⟩

/-- A request and whether the call found it already there. -/
structure RequestAnswer where
  value : RequestValue
  duplicate : Bool
deriving BEq, Repr

/-- The request under a thread, a source and a key. -/
def Db.requestAt (db : Db) (thread source key : String) : Option Request :=
  db.requests.find? fun r => r.thread = thread ∧ r.source = source ∧ r.requestKey = key

def Db.requestById (db : Db) (requestId : String) : Option Request :=
  db.requests.find? fun r => r.requestId = requestId

/-- The row of a new request. -/
def newRequest (seq : Nat) (uuid : Uuid) (thread source key deliveryId binding payload : String)
    (expiresAt : Option Rat) (now : Rat) : Request where
  seq := seq
  requestId := uuid.text
  thread := thread
  source := source
  requestKey := key
  deliveryId := deliveryId
  binding := binding
  payload := payload
  state := .received
  revision := 0
  expiresAt := expiresAt
  created := now
  updated := now

/-- `INSERT INTO requests`. -/
def Db.insertRequest? (db : Db) (r : Request) : Option Db :=
  (db.requests.insert? r).map fun t => { db with requests := t }

def Db.nextRequestSeq (db : Db) : Nat := db.requests.nextSeq Request.seq

/-- An expiry argument that is finite and nonnegative. -/
def validExpiry (expiresAt : Option F64) : Option (Option Rat) :=
  match expiresAt with
  | none => some none
  | some (.finite value) => if 0 ≤ value then some (some value) else none
  | some _ => none

/-- Track a request for the event `deliveryId`. -/
def requestCreate (crates : Crates) (thread source key deliveryId : String) (payload : Value)
    (expiresAt : Option F64) (uuid : Uuid) (now : Rat) : StoreM RequestAnswer := do
  validateIdentifier thread "thread"
  validateIdentifier source "source"
  validateIdentifier key "request key"
  validateIdentifier deliveryId "delivery id"
  let payloadJson := canonicalJson crates payload
  bailIf (maxRequestBytes < payloadJson.utf8ByteSize) "request payload exceeds 16 KiB"
  let expiresAt ← Tx.expect (.bail "expiry must be finite and nonnegative") (validExpiry expiresAt)
  withTx do
    let parent ← Tx.query fun db => db.events.find? fun e => e.id = deliveryId
    let e ← Tx.expect (.bail "event not found") parent
    bailIf (e.source ≠ source) "request source does not match delivery"
    let target ← Tx.query fun db => db.bindings.find? fun b => b.name = e.binding
    let b ← Tx.expect (.sqlite "Query returned no rows") target
    bailIf (b.thread ≠ thread) "request thread does not match delivery"
    let old ← Tx.query fun db => db.requestAt thread source key
    match old with
    | some r => do
        let value ← Tx.ofExcept (requestValue crates r)
        bailIf (r.deliveryId ≠ deliveryId ∨ canonicalJson crates value.payload ≠ payloadJson ∨
          r.expiresAt ≠ expiresAt) "request key already belongs to different immutable content"
        pure ⟨value, true⟩
    | none => do
        let count ← Tx.query fun db => db.requests.count fun _ => True
        bailIf (maxRequests ≤ count) "request capacity reached"
        insertInto "UNIQUE constraint failed: requests" fun db => db.insertRequest?
          (newRequest db.nextRequestSeq uuid thread source key deliveryId e.binding payloadJson
            expiresAt now)
        let row ← Tx.query fun db => db.requestById uuid.text
        let row ← Tx.expect (.sqlite "Query returned no rows") row
        let value ← Tx.ofExcept (requestValue crates row)
        pure ⟨value, false⟩

/-! ## The outbox row of a transition -/

def requestNotificationId (requestId : String) (revision : Int) : String :=
  s!"request-notification-{requestId}-{revision}"

/-- The event id of a request's notification. -/
def requestEventId (requestId : String) (revision : Int) : String :=
  s!"request-{requestId}-{revision}"

/-- The update id the expiry loop writes. -/
def requestExpiryId (requestId : String) (revision : Int) : String :=
  s!"request-expiry-{requestId}-{revision}"

/-- The detail of a transition under its two names. -/
def detailFields : Option String → List (String × Value)
  | none => []
  | some detail => [("summary", .string detail), ("detail", .string detail)]

/-- The envelope of a status notification. -/
def notificationEnvelope (requestId thread source key deliveryId : String) (revision : Int)
    (state : RequestState) (detail : Option String) : Value :=
  .object [
    ("id", .string (requestEventId requestId revision)),
    ("source", .string source),
    ("type", .string "request.status.changed"),
    ("data", .object ([
      ("request_id", .string requestId),
      ("conversation_id", .string thread),
      ("thread", .string thread),
      ("request_key", .string key),
      ("original_delivery_id", .string deliveryId),
      ("delivery_id", .string deliveryId),
      ("state", .string state.text),
      ("revision", .number (.ofI64 revision)),
      ("message", .string s!"Request {key}: {state.text} (revision {revision}).")] ++
      detailFields detail))]

/-- The outbox row of a transition of `r` to `state` at `revision`. -/
def newNotification (crates : Crates) (r : Request) (updateId : String) (revision : Int)
    (state : RequestState) (detail : Option String) (now : Rat) : RequestNotification where
  notificationId := requestNotificationId r.requestId revision
  requestId := r.requestId
  updateId := updateId
  revision := revision
  originalBinding := r.binding
  source := r.source
  eventId := requestEventId r.requestId revision
  envelope := canonicalJson crates
    (notificationEnvelope r.requestId r.thread r.source r.requestKey r.deliveryId revision state
      detail)
  state := .pending
  attempts := 0
  nextAt := 0
  deliveryId := none
  error := none
  created := now
  updated := now

/-- `SELECT count(*) FROM request_notifications WHERE state='pending'`. -/
def Db.pendingNotices (db : Db) : Nat :=
  db.requestNotifications.count fun n => n.state = .pending

/-- `INSERT INTO request_notifications`. -/
def Db.insertNotice? (db : Db) (n : RequestNotification) : Option Db :=
  (db.requestNotifications.insert? n).map fun t => { db with requestNotifications := t }

/-- Put the notification of a transition into the outbox, if its state has one. -/
def insertRequestNotificationTx (crates : Crates) (r : Request) (updateId : String)
    (revision : Int) (state : RequestState) (detail : Option String) (now : Rat) : StoreM Unit :=
  if state.notifies = false then pure ()
  else do
    let pending ← Tx.query fun db => db.pendingNotices
    bailIf (maxRequestNotifications ≤ pending) "request notification capacity reached"
    insertInto "UNIQUE constraint failed: request_notifications" fun db =>
      db.insertNotice? (newNotification crates r updateId revision state detail now)

/-! ## Transitions -/

/-- A terminal state is never left; otherwise only these steps are allowed. -/
def allowedTransition (previous target : RequestState) : Bool :=
  if previous.isTerminal then false
  else
    match target with
    | .acknowledged => previous = .received
    | .inProgress => previous = .received ∨ previous = .acknowledged
    | .completed | .failed | .cancelled | .expired => true
    | .received => false

/-- The states a client update may name. -/
def updateState? (state : String) : Option RequestState :=
  if state = "acknowledged" then some .acknowledged
  else if state = "in_progress" then some .inProgress
  else if state = "completed" then some .completed
  else if state = "failed" then some .failed
  else if state = "cancelled" then some .cancelled
  else if state = "expired" then some .expired
  else none

/-- `INSERT INTO request_updates`. -/
def Db.insertUpdate? (db : Db) (u : RequestUpdate) : Option Db :=
  (db.requestUpdates.insert? u).map fun t => { db with requestUpdates := t }

def Db.nextUpdateSeq (db : Db) : Nat := db.requestUpdates.nextSeq RequestUpdate.seq

/-- `UPDATE requests SET state=?,revision=?,updated=? WHERE request_id=? AND revision=?`. -/
def Db.advanceRequest (db : Db) (requestId : String) (expected revision : Int)
    (state : RequestState) (now : Rat) : Db :=
  { db with
    requests := db.requests.update (fun r => r.requestId = requestId ∧ r.revision = expected)
      fun r => { r with state := state, revision := revision, updated := now } }

/-- The number of rows `advanceRequest` changes. -/
def Db.matchingRequests (db : Db) (requestId : String) (expected : Int) : Nat :=
  db.requests.count fun r => r.requestId = requestId ∧ r.revision = expected

/-- The three writes of a transition: history row, request row, outbox row. -/
def recordTransition (crates : Crates) (r : Request) (updateId : String) (expected : Int)
    (state : RequestState) (detail : Option String) (now : Rat) : StoreM Unit := do
  let revision := expected + 1
  insertInto "UNIQUE constraint failed: request_updates.request_id, request_updates.update_id"
    fun db => db.insertUpdate? ⟨db.nextUpdateSeq, r.requestId, updateId, expected, revision,
      r.state, state, detail, now⟩
  let changed ← Tx.query fun db => db.matchingRequests r.requestId expected
  bailIf (changed ≠ 1) "request revision conflict"
  Tx.write fun db => db.advanceRequest r.requestId expected revision state now
  insertRequestNotificationTx crates r updateId revision state detail now

/-- The history row of an update id. -/
def Db.updateAt (db : Db) (requestId updateId : String) : Option RequestUpdate :=
  db.requestUpdates.find? fun u => u.requestId = requestId ∧ u.updateId = updateId

/-- A request, whether the update was a repetition, and the update's id. -/
structure UpdateAnswer where
  value : RequestValue
  duplicate : Bool
  updateId : String
deriving BEq, Repr

/-- A transition detail, when given, is a nonempty text of at most 4 KiB. -/
def validateDetail : Option String → StoreM Unit
  | none => pure ()
  | some detail => validateText detail "request detail" maxDetailBytes

/-- An update row repeats a call: same state, same detail, and the same expected revision
when the call names one. -/
def RequestUpdate.repeats (u : RequestUpdate) (state : RequestState)
    (expectedRevision : Option Int) (detail : Option String) : Prop :=
  u.state = state ∧ (∀ expected ∈ expectedRevision, u.expectedRevision = expected) ∧
    u.detail = detail

instance (u : RequestUpdate) (state : RequestState) (expectedRevision : Option Int)
    (detail : Option String) : Decidable (u.repeats state expectedRevision detail) :=
  inferInstanceAs (Decidable (_ ∧ _))

/-- Move a request to another state, once for each update id. -/
def requestUpdate (crates : Crates) (thread source key updateId state : String)
    (expectedRevision : Option Int) (detail : Option String) (now : Rat) : StoreM UpdateAnswer := do
  validateIdentifier thread "thread"
  validateIdentifier source "source"
  validateIdentifier key "request key"
  validateIdentifier updateId "update id"
  let state ← Tx.expect (.bail "unknown request state") (updateState? state)
  bailIf (expectedRevision.any fun revision => revision < 0)
    "expected revision must be nonnegative"
  validateDetail detail
  withTx do
    let row ← Tx.query fun db => db.requestAt thread source key
    let r ← Tx.expect (.bail "request not found") row
    let expected := expectedRevision.getD r.revision
    let prior ← Tx.query fun db => db.updateAt r.requestId updateId
    match prior with
    | some u => do
        bailIf (¬ u.repeats state expectedRevision detail)
          "update id already used for different content"
        let row ← Tx.query fun db => db.requestById r.requestId
        let row ← Tx.expect (.sqlite "Query returned no rows") row
        let value ← Tx.ofExcept (requestValue crates row)
        pure ⟨value, true, updateId⟩
    | none => do
        bailIf (expected ≠ r.revision) "request revision conflict"
        bailIf (allowedTransition r.state state = false) "request state transition is not allowed"
        let count ← Tx.query fun db => db.requestUpdates.count fun u => u.requestId = r.requestId
        bailIf (state.isTerminal = false ∧ maxRequestUpdates ≤ count + 1)
          "request update capacity reached; terminal expiry slot is reserved"
        recordTransition crates r updateId expected state detail now
        let row ← Tx.query fun db => db.requestById r.requestId
        let row ← Tx.expect (.sqlite "Query returned no rows") row
        let value ← Tx.ofExcept (requestValue crates row)
        pure ⟨value, false, updateId⟩

end CodexMonitor
