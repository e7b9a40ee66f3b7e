import CodexMonitor.Lib.Text
import CodexMonitor.Store.Replies
import CodexMonitor.Store.Requests

/-!
# The source-authenticated endpoints

The handlers a source reaches with its own credential: event intake, the request
workflow and the reply outbox.  Each authenticates, checks its query and its
body and then makes one or more store calls, every one of them a transaction of
its own; an error of the store is reported under one of a few public texts.
Bodies are records of the JSON fields that they show.
-/

namespace CodexMonitor

open Transaction

/-! ## Errors -/

/-- A status and a public text. -/
structure ApiError where
  status : Nat
  message : String
deriving DecidableEq, Repr

/-- A handler. -/
abbrev HttpM (α : Type) : Type := Tx Db ApiError α

def StoreError.text : StoreError → String
  | .bail message => message
  | .sqlite message => message
  | .outOfFuel => ""

/-- `s.contains(part)`. -/
def mentions (s part : String) : Bool := decide (part.toList <:+: s.toList)

/-- The public category of an error of the store. -/
def storageError (error : StoreError) : ApiError :=
  let s := Text.toLowercase error.text
  if mentions s "paused" || mentions s "disabled" || mentions s "removed" then
    ⟨409, "target lifecycle conflict"⟩
  else if mentions s "conflict" || mentions s "different" || mentions s "duplicate" ||
      mentions s "exists" || mentions s "state transition is not allowed" then
    ⟨409, "identifier conflict"⟩
  else if mentions s "capacity" || mentions s "rate" then
    ⟨429, "capacity or rate limit reached"⟩
  else if mentions s "unknown request state" then
    ⟨400, "invalid or unavailable target/input"⟩
  else if mentions s "not found" || mentions s "unknown" then
    ⟨404, "resource not found"⟩
  else if mentions s "invalid" || mentions s "must" || mentions s "exceed" ||
      mentions s "empty" || mentions s "too long" || mentions s "finite" ||
      mentions s "malformed" || mentions s "paused" || mentions s "removed" ||
      mentions s "disabled" || mentions s "source" then
    ⟨400, "invalid or unavailable target/input"⟩
  else
    ⟨503, "persistence unavailable; retry with the same event id"⟩

/-- A store call of a handler: `.map_err(storage_error)?`. -/
def stored {α : Type} (call : StoreM α) : HttpM α := Tx.mapError storageError call

/-- `ok_or(ApiError(status, message))?`. -/
def require {α : Type} (status : Nat) (message : String) (o : Option α) : HttpM α :=
  Tx.expect ⟨status, message⟩ o

def refuseIf (c : Prop) [Decidable c] (status : Nat) (message : String) : HttpM Unit :=
  Tx.bailIf c ⟨status, message⟩

/-! ## Arguments -/

/-- What the receiver is started with: its source credentials in name order, and how the JSON
library reads a number as a double. -/
structure App where
  crates : Crates
  sources : List (String × String)
  asF64 : Number → F64

/-- The source a credential belongs to. -/
def App.owner (app : App) (bearer : String) : Option String :=
  (app.sources.find? fun entry => entry.2 = bearer).map Prod.fst

def App.source (app : App) (bearer : String) : HttpM String :=
  require 401 "source credentials required" (app.owner bearer)

/-- The query parameters, each at most once and none but the allowed ones. -/
def queryValues (allowed : List String) :
    List (String × String) → List (String × String) → Except ApiError (List (String × String))
  | values, [] => .ok values
  | values, (key, value) :: rest =>
      if key ∉ allowed then .error ⟨400, "unknown query parameter"⟩
      else if key ∈ values.map Prod.fst then .error ⟨400, "query parameter must occur once"⟩
      else queryValues allowed (values ++ [(key, value)]) rest

/-- The value of a query parameter. -/
def queryValue (values : List (String × String)) (key : String) : Option String :=
  (values.find? fun entry => entry.1 = key).map Prod.snd

def requestBody (value : Value) : Except ApiError Value :=
  if value.asObject.isSome then .ok value else .error ⟨400, "request body must be an object"⟩

def ensureBodyFields (body : Value) (allowed : List String) : Except ApiError Unit :=
  if (body.asObject.getD []).any fun field => field.1 ∉ allowed then
    .error ⟨400, "unknown request body field"⟩
  else .ok ()

def requestString (body : Value) (field : String) : Except ApiError String :=
  match body.getStr field with
  | some value => .ok value
  | none => .error ⟨400, "request field must be a string"⟩

/-- The handler's own identifier check; it accepts what the store accepts. -/
def validRequestId (value : String) : Bool := isIdentifier value

/-- `expires_at`: absent, null, or a finite nonnegative number. -/
def optionalExpiry (app : App) (body : Value) : Except ApiError (Option F64) :=
  match body.get "expires_at" with
  | none => .ok none
  | some .null => .ok none
  | some (.number n) =>
      match app.asF64 n with
      | .finite value =>
          if 0 ≤ value then .ok (some (.finite value)) else .error ⟨400, "expiry must be finite"⟩
      | _ => .error ⟨400, "expiry must be finite"⟩
  | some _ => .error ⟨400, "expiry must be finite"⟩

/-- The number of a text of decimal digits. -/
def digitsValue (cs : List Char) : Option Nat :=
  if cs = [] ∨ cs.any (fun c => ¬ c.isDigit) then none
  else some (cs.foldl (fun n c => 10 * n + (c.toNat - 48)) 0)

/-- `str::parse::<usize>`. -/
def parseUsize (value : String) : Option Nat :=
  let digits := match value.toList with
    | '+' :: cs => cs
    | cs => cs
  (digitsValue digits).bind fun n => if n < 2 ^ 64 then some n else none

/-- `str::parse::<i64>`. -/
def parseI64 (value : String) : Option Int :=
  match value.toList with
  | '-' :: cs => (digitsValue cs).bind fun n => if n ≤ 2 ^ 63 then some (-n) else none
  | '+' :: cs => (digitsValue cs).bind fun n => if n < 2 ^ 63 then some n else none
  | cs => (digitsValue cs).bind fun n => if n < 2 ^ 63 then some n else none

/-! ## Reading the store -/

/-- `event_row`: an event and its parsed envelope. -/
structure EventValue where
  row : Event
  envelope : Value

/-- The event of a delivery id. -/
def event (crates : Crates) (id : String) : StoreM EventValue := do
  validateIdentifier id "delivery id"
  let row ← Tx.query fun db => db.events.find? fun e => e.id = id
  let e ← Tx.expect (.bail "event not found") row
  let envelope ← Tx.expect (.sqlite "stored envelope is not JSON") (crates.fromStr e.envelope)
  pure ⟨e, envelope⟩

/-- Every binding, by name. -/
def bindings : StoreM (List Binding) :=
  Tx.query fun db => db.bindings.select (fun _ => True) fun a b => a.name ≤ b.name

/-- The request of an id, if it belongs to the source. -/
def Db.ownRequest (db : Db) (requestId source : String) : Option Request :=
  db.requests.find? fun r => r.requestId = requestId ∧ r.source = source

/-- `SELECT … FROM request_updates WHERE request_id=? ORDER BY revision`. -/
def Db.requestHistory (db : Db) (requestId : String) : List RequestUpdate :=
  db.requestUpdates.select (fun u => u.requestId = requestId) fun a b => a.revision ≤ b.revision

/-- `SELECT … FROM request_notifications WHERE request_id=? ORDER BY revision`. -/
def Db.requestNotices (db : Db) (requestId : String) : List RequestNotification :=
  db.requestNotifications.select (fun n => n.requestId = requestId)
    fun a b => a.revision ≤ b.revision

/-- A request with its history and its notifications. -/
structure RequestDetail where
  value : RequestValue
  history : List RequestUpdate
  notifications : List RequestNotification

def requestGetById (crates : Crates) (requestId source : String) : StoreM RequestDetail := do
  validateIdentifier requestId "request id"
  validateIdentifier source "source"
  let row ← Tx.query fun db => db.ownRequest requestId source
  let r ← Tx.expect (.bail "request not found") row
  let value ← Tx.ofExcept (requestValue crates r)
  let history ← Tx.query fun db => db.requestHistory r.requestId
  let notifications ← Tx.query fun db => db.requestNotices r.requestId
  pure ⟨value, history, notifications⟩

def requestRecordById (crates : Crates) (requestId source : String) : StoreM RequestValue := do
  validateIdentifier requestId "request id"
  validateIdentifier source "source"
  let row ← Tx.query fun db => db.ownRequest requestId source
  let r ← Tx.expect (.bail "request not found") row
  Tx.ofExcept (requestValue crates r)

def maxRequestListLimit : Nat := 100

/-- `WHERE thread=? AND source=? AND seq>? ORDER BY seq LIMIT ?`, one row more than a page. -/
def Db.requestRows (db : Db) (thread source : String) (cursor : Int) (limit : Nat) :
    List Request :=
  (db.requests.select (fun r => r.thread = thread ∧ r.source = source ∧ cursor < r.seq)
    fun a b => a.seq ≤ b.seq).take (limit + 1)

/-- A page of requests and the cursor of the next one. -/
structure RequestPage where
  data : List RequestValue
  next : Option String

/-- One page of a source's requests in a thread. -/
def requestPage (crates : Crates) (thread source : String) (limit : Nat) (after : Option Int) :
    StoreM RequestPage := do
  validateIdentifier thread "thread"
  validateIdentifier source "source"
  bailIf (¬ (1 ≤ limit ∧ limit ≤ maxRequestListLimit)) "request limit must be between 1 and 100"
  let cursor := after.getD 0
  bailIf (cursor < 0) "request cursor must be a nonnegative integer"
  let rows ← Tx.query fun db => db.requestRows thread source cursor limit
  let values ← Tx.ofExcept (rows.mapM (requestValue crates))
  if limit < values.length then
    let page := values.take limit
    pure ⟨page, page.getLast?.map fun value => toString value.row.seq⟩
  else pure ⟨values, none⟩

/-- The unacknowledged replies of a source, in `seq` order. -/
def readReplies (source : String) : StoreM (List Reply) := do
  validateIdentifier source "source"
  Tx.query fun db => db.replies.select (fun r => r.source = source ∧ r.acknowledged = none)
    fun a b => a.seq ≤ b.seq

/-! ## Bodies -/

/-- A history row, as the answer shows it. -/
structure UpdateView where
  updateId : String
  expectedRevision : Int
  revision : Int
  previousState : RequestState
  state : RequestState
  detail : Option String
  created : Rat

def RequestUpdate.view (u : RequestUpdate) : UpdateView :=
  ⟨u.updateId, u.expectedRevision, u.revision, u.previousState, u.state, u.detail, u.created⟩

/-- A notification, as the answer shows it. -/
structure NoticeView where
  notificationId : String
  updateId : String
  revision : Int
  state : NoticeState
  deliveryId : Option String
  error : Option String
  created : Rat
  updated : Rat

def RequestNotification.view (n : RequestNotification) : NoticeView :=
  ⟨n.notificationId, n.updateId, n.revision, n.state, n.deliveryId, n.error, n.created, n.updated⟩

def httpRequestUpdatesLimit : Int := 64

/-- `request_capacity`. -/
structure RequestCapacity where
  updatesUsed : Int
  updatesLimit : Int
  updatesRemaining : Int

def requestCapacity (revision : Int) : RequestCapacity :=
  ⟨revision, httpRequestUpdatesLimit, max 0 (httpRequestUpdatesLimit - revision)⟩

/-- A request, as `request_value` and `request_view` show it; its row number is not among the
fields. -/
structure RequestView where
  requestId : String
  thread : String
  source : String
  requestKey : String
  deliveryId : String
  binding : String
  payload : Value
  state : RequestState
  revision : Int
  expiresAt : Option Rat
  created : Rat
  updated : Rat
  capacity : RequestCapacity

def RequestValue.view (value : RequestValue) : RequestView where
  requestId := value.row.requestId
  thread := value.row.thread
  source := value.row.source
  requestKey := value.row.requestKey
  deliveryId := value.row.deliveryId
  binding := value.row.binding
  payload := value.payload
  state := value.row.state
  revision := value.row.revision
  expiresAt := value.row.expiresAt
  created := value.row.created
  updated := value.row.updated
  capacity := requestCapacity value.row.revision

/-- A reply, as the answer shows it. -/
structure ReplyView where
  replyId : String
  deliveryId : String
  replyKey : String
  source : String
  binding : String
  eventId : String
  message : String
  created : Rat
  acknowledged : Option Rat

def Reply.view (r : Reply) : ReplyView :=
  ⟨r.id, r.deliveryId, r.replyKey, r.source, r.binding, r.eventId, r.message, r.created,
    r.acknowledged⟩

/-- The body of an answer. -/
inductive Body
  | receipt (r : Receipt)
  | created (request : RequestView) (duplicate : Bool)
  | page (data : List RequestView) (next : Option String)
  | detail (request : RequestView) (history : List UpdateView) (notifications : List NoticeView)
  | updated (request : RequestView) (duplicate : Bool) (updateId : String)
  | replies (data : List ReplyView)
  | acknowledged (replyId : String)

/-- A status and a body. -/
structure Answer where
  status : Nat
  body : Body

/-! ## Handlers -/

/-- `POST /v1/events/BINDING`. -/
def ingestHandler (app : App) (bearer binding : String) (envelope : Value) (uuid : Uuid)
    (now : Rat) : HttpM Answer := do
  let name ← app.source bearer
  refuseIf (envelope.getStr "source" ≠ some name) 403 "credential source does not match envelope"
  let receipt ← stored (ingest app.crates binding envelope uuid now)
  pure ⟨202, .receipt receipt⟩

/-- What the body of a creation asks for. -/
structure CreateBody where
  deliveryId : String
  requestKey : String
  payload : Value
  expiresAt : Option F64

/-- The query and the body of a creation, checked before the store is read. -/
def createBody (app : App) (query : List (String × String)) (body : Value) :
    Except ApiError CreateBody := do
  let _ ← queryValues [] [] query
  let body ← requestBody body
  ensureBodyFields body ["delivery_id", "request_key", "payload", "expires_at"]
  let deliveryId ← requestString body "delivery_id"
  let requestKey ← requestString body "request_key"
  let payload := (body.get "payload").getD (.object [])
  if payload.asObject.isNone then
    throw ⟨400, "request payload must be an object"⟩
  let expiresAt ← optionalExpiry app body
  pure ⟨deliveryId, requestKey, payload, expiresAt⟩

/-- `POST /v1/requests`. -/
def requestCreateHandler (app : App) (bearer : String) (query : List (String × String))
    (body : Value) (uuid : Uuid) (now : Rat) : HttpM Answer := do
  let name ← app.source bearer
  let body ← Tx.ofExcept (createBody app query body)
  let e ← stored (event app.crates body.deliveryId)
  refuseIf (e.row.source ≠ name) 404 "delivery not found"
  let all ← stored bindings
  let b ← require 404 "delivery binding not found" (all.find? fun b => b.name = e.row.binding)
  let answer ← stored (requestCreate app.crates b.thread name body.requestKey body.deliveryId
    body.payload body.expiresAt uuid now)
  pure ⟨201, .created answer.value.view answer.duplicate⟩

/-- What the query of a listing asks for. -/
structure ListQuery where
  thread : String
  limit : Nat
  after : Option String

/-- The query of a listing, checked before the store is read. -/
def listQuery (query : List (String × String)) : Except ApiError ListQuery := do
  let values ← queryValues ["thread", "limit", "after"] [] query
  let thread ← match (queryValue values "thread").filter fun thread => thread ≠ "" with
    | some thread => pure thread
    | none => throw ⟨400, "thread query parameter is required"⟩
  let limit ← match queryValue values "limit" with
    | some value => match parseUsize value with
        | some limit => pure limit
        | none => throw ⟨400, "limit query parameter must be an integer"⟩
    | none => pure 100
  if ¬ (1 ≤ limit ∧ limit ≤ 100) then
    throw ⟨400, "limit query parameter must be between 1 and 100"⟩
  let after := queryValue values "after"
  if after.any fun value => ((parseI64 value).filter fun n => 0 ≤ n).isNone then
    throw ⟨400, "request cursor must be a nonnegative integer"⟩
  pure ⟨thread, limit, after⟩

/-- `GET /v1/requests`.  The cursor was parsed once already. -/
def requestListHandler (app : App) (bearer : String) (query : List (String × String)) :
    HttpM Answer := do
  let name ← app.source bearer
  let query ← Tx.ofExcept (listQuery query)
  let cursor ← stored (Tx.expect (.bail "request cursor must be a nonnegative integer")
    (match query.after with
    | none => some none
    | some value => (parseI64 value).map some))
  let page ← stored (requestPage app.crates query.thread name query.limit cursor)
  pure ⟨200, .page (page.data.map RequestValue.view) page.next⟩

/-- An error text that mentions `not found` is an absent request, any other an error. -/
def orAbsent {α : Type} (call : StoreM α) : HttpM (Option α) :=
  ⟨fun db => match call.run db with
    | (.ok a, t) => (.ok (some a), t)
    | (.error e, t) =>
        if mentions (Text.toLowercase e.text) "not found" then (.ok none, t)
        else (.error (storageError e), t)⟩

/-- The checks of a request id and of an empty query. -/
def idQuery (query : List (String × String)) (requestId : String) : Except ApiError Unit := do
  let _ ← queryValues [] [] query
  if validRequestId requestId = false then
    throw ⟨400, "request id must be a nonempty identifier"⟩

/-- `GET /v1/requests/ID`. -/
def requestGetHandler (app : App) (bearer : String) (query : List (String × String))
    (requestId : String) : HttpM Answer := do
  let name ← app.source bearer
  Tx.ofExcept (idQuery query requestId)
  let found ← orAbsent (requestGetById app.crates requestId name)
  let detail ← require 404 "request not found" found
  pure ⟨200, .detail detail.value.view (detail.history.map RequestUpdate.view)
    (detail.notifications.map RequestNotification.view)⟩

/-- What the body of an update asks for. -/
structure UpdateBody where
  updateId : String
  state : String
  expectedRevision : Int
  detail : Option String

/-- The body of an update, checked once the request is found. -/
def updateBody (body : Value) : Except ApiError UpdateBody := do
  let body ← requestBody body
  ensureBodyFields body ["update_id", "state", "expected_revision", "detail"]
  let updateId ← requestString body "update_id"
  let state ← requestString body "state"
  let expectedRevision ← match ((body.get "expected_revision").bind Value.asI64).filter
      fun value => 0 ≤ value with
    | some value => pure value
    | none => throw ⟨400, "expected revision must be a nonnegative integer"⟩
  let detail ← match body.get "detail" with
    | none => pure none
    | some .null => pure none
    | some (.string value) => pure (some value)
    | some _ => throw ⟨400, "request detail must be a string"⟩
  pure ⟨updateId, state, expectedRevision, detail⟩

/-- `POST /v1/requests/ID/updates`: the request is found by its id, then updated by its thread
and its key. -/
def requestUpdateHandler (app : App) (bearer : String) (query : List (String × String))
    (requestId : String) (body : Value) (now : Rat) : HttpM Answer := do
  let name ← app.source bearer
  Tx.ofExcept (idQuery query requestId)
  let found ← orAbsent (requestRecordById app.crates requestId name)
  let request ← require 404 "request not found" found
  let body ← Tx.ofExcept (updateBody body)
  let answer ← stored (requestUpdate app.crates request.row.thread name request.row.requestKey
    body.updateId body.state (some body.expectedRevision) body.detail now)
  pure ⟨200, .updated answer.value.view answer.duplicate answer.updateId⟩

/-- `GET /v1/replies`. -/
def repliesHandler (app : App) (bearer : String) : HttpM Answer := do
  let name ← app.source bearer
  let replies ← stored (readReplies name)
  pure ⟨200, .replies (replies.map Reply.view)⟩

/-- `POST /v1/replies/ID/ack`. -/
def ackHandler (app : App) (bearer : String) (contentLength : Option String) (replyId : String)
    (now : Rat) : HttpM Answer := do
  let name ← app.source bearer
  refuseIf (contentLength ≠ some "0") 400 "acknowledgement takes an empty body"
  stored (replyAck name replyId now)
  pure ⟨200, .acknowledged replyId⟩

/-! ## Calls -/

/-- A call of a source-authenticated endpoint, with the clock and the identifier it is served
with. -/
inductive SourceCall
  | ingest (binding : String) (envelope : Value) (uuid : Uuid) (now : Rat)
  | requestCreate (query : List (String × String)) (body : Value) (uuid : Uuid) (now : Rat)
  | requestList (query : List (String × String))
  | requestGet (query : List (String × String)) (requestId : String)
  | requestUpdate (query : List (String × String)) (requestId : String) (body : Value) (now : Rat)
  | replies
  | ack (contentLength : Option String) (replyId : String) (now : Rat)

/-- Serve a call. -/
def App.serve (app : App) (bearer : String) : SourceCall → HttpM Answer
  | .ingest binding envelope uuid now => ingestHandler app bearer binding envelope uuid now
  | .requestCreate query body uuid now => requestCreateHandler app bearer query body uuid now
  | .requestList query => requestListHandler app bearer query
  | .requestGet query requestId => requestGetHandler app bearer query requestId
  | .requestUpdate query requestId body now =>
      requestUpdateHandler app bearer query requestId body now
  | .replies => repliesHandler app bearer
  | .ack contentLength replyId now => ackHandler app bearer contentLength replyId now

end CodexMonitor
