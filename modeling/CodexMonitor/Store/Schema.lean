import CodexMonitor.Json
import CodexMonitor.Lib.Table
import CodexMonitor.Lib.Transaction
import Mathlib.Algebra.Order.Ring.Rat

/-!
# The tables of the runtime store

Every table of the SQLite schema that a modelled operation reads or writes, with
all its columns, and the constraints SQLite enforces on them: primary keys,
`UNIQUE` columns and the growing `seq` of an `AUTOINCREMENT` key.  Clock readings
and deadlines are rationals; a double is one exactly, and the sums the code
forms with them are taken without rounding.
-/

namespace CodexMonitor

open Transaction

/-! ## Limits -/

def maxIdentifierBytes : Nat := 200
def maxEndpointBytes : Nat := 4 * 1024
def maxEnvelopeBytes : Nat := 32 * 1024
def maxReplyBytes : Nat := 16 * 1024
def maxRequestBytes : Nat := 16 * 1024
def maxDetailBytes : Nat := 4 * 1024
def maxPending : Nat := 1000
def rateLimit : Nat := 120
def traceLimit : Nat := 16
def maxAgeSeconds : Rat := 3600
def maxAttempts : Int := 5
def retryBackoffBaseSeconds : Rat := 2
def retryBackoffMaxSeconds : Rat := 60
def maxWatches : Nat := 128
def maxWatchesPerThread : Nat := 32
def maxReplies : Nat := 1000
def maxRequests : Nat := 10000
def maxRequestUpdates : Nat := 64
def maxRequestNotifications : Nat := 10000
def maxRequestMaintenance : Nat := 100

/-! ## Column types -/

/-- `pending`, `submitting` and `uncertain` are open; the rest are settled. -/
inductive EventState
  | pending | submitting | uncertain | accepted | dead | ignored
deriving DecidableEq, Repr

namespace EventState

def text : EventState → String
  | pending => "pending"
  | submitting => "submitting"
  | uncertain => "uncertain"
  | accepted => "accepted"
  | dead => "dead"
  | ignored => "ignored"

/-- `state IN ('pending','submitting','uncertain')`. -/
def isOpen : EventState → Bool
  | pending | submitting | uncertain => true
  | accepted | dead | ignored => false

/-- Handed to a dispatcher and not settled yet. -/
def inFlight : EventState → Bool
  | submitting | uncertain => true
  | pending | accepted | dead | ignored => false

end EventState

inductive RequestState
  | received | acknowledged | inProgress | completed | failed | cancelled | expired
deriving DecidableEq, Repr

namespace RequestState

def text : RequestState → String
  | received => "received"
  | acknowledged => "acknowledged"
  | inProgress => "in_progress"
  | completed => "completed"
  | failed => "failed"
  | cancelled => "cancelled"
  | expired => "expired"

/-- `state IN ('completed','failed','cancelled','expired')`. -/
def isTerminal : RequestState → Bool
  | completed | failed | cancelled | expired => true
  | received | acknowledged | inProgress => false

/-- The states that put a notification into the outbox. -/
def notifies : RequestState → Bool
  | inProgress | completed | failed | cancelled | expired => true
  | received | acknowledged => false

end RequestState

inductive NoticeState
  | pending | accepted | failed
deriving DecidableEq, Repr

/-- What an operator can do to a route or to a managed watch. -/
inductive LifecycleAction
  | pause | resume | remove
deriving DecidableEq, Repr

namespace LifecycleAction

def ofString? (s : String) : Option LifecycleAction :=
  if s = "pause" then some pause
  else if s = "resume" then some resume
  else if s = "remove" then some remove
  else none

end LifecycleAction

/-- A 64-bit float argument; the checks tell the values that are no number apart. -/
inductive F64
  | finite (value : Rat)
  | infinite (negative : Bool)
  | nan
deriving DecidableEq, Repr

/-- A version-4 UUID in its hyphenated text form. -/
def isUuidText (s : String) : Bool :=
  s.toList.length = 36 ∧ s.toList.zipIdx.all fun (c, i) =>
    if i ∈ [8, 13, 18, 23] then c = '-' else c.isDigit ∨ ('a' ≤ c ∧ c ≤ 'f')

/-- A generated identifier. -/
structure Uuid where
  text : String
  isUuid : isUuidText text = true

/-! ## Rows -/

structure Binding where
  name : String
  thread : String
  endpoint : String
  sources : List String
  enabled : Bool
  removed : Bool
deriving DecidableEq, Repr

structure Event where
  seq : Nat
  id : String
  binding : String
  source : String
  eventId : String
  envelope : String
  clientId : String
  state : EventState
  created : Rat
  updated : Rat
  attempts : Int
  nextAt : Rat
  submissionId : Option String
  error : Option String
deriving DecidableEq, Repr

structure Watch where
  id : String
  thread : String
  name : String
  path : String
  interval : Rat
  endpoint : String
  debounce : Rat
  condition : Option String
  binding : String
  enabled : Bool
  removed : Bool
  epoch : Int
  checkpoint : Option String
  created : Rat
  updated : Rat
deriving DecidableEq, Repr

structure Reply where
  seq : Nat
  id : String
  deliveryId : String
  replyKey : String
  source : String
  binding : String
  eventId : String
  message : String
  created : Rat
  acknowledged : Option Rat
deriving DecidableEq, Repr

structure Request where
  seq : Nat
  requestId : String
  thread : String
  source : String
  requestKey : String
  deliveryId : String
  binding : String
  payload : String
  state : RequestState
  revision : Int
  expiresAt : Option Rat
  created : Rat
  updated : Rat
deriving DecidableEq, Repr

structure RequestNotification where
  notificationId : String
  requestId : String
  updateId : String
  revision : Int
  originalBinding : String
  source : String
  eventId : String
  envelope : String
  state : NoticeState
  attempts : Int
  nextAt : Rat
  deliveryId : Option String
  error : Option String
  created : Rat
  updated : Rat
deriving DecidableEq, Repr

structure RequestUpdate where
  seq : Nat
  requestId : String
  updateId : String
  expectedRevision : Int
  revision : Int
  previousState : RequestState
  state : RequestState
  detail : Option String
  created : Rat
deriving DecidableEq, Repr

/-! ## Keys and constraints -/

instance : Schema Binding where
  Key := String × String × String × List String
  key b := (b.name, b.thread, b.endpoint, b.sources)
  Fits a b := a.1 ≠ b.1
  decFits _ _ := inferInstanceAs (Decidable (¬ _))

/-- The columns of an event that no operation ever changes. -/
structure EventKey where
  seq : Nat
  id : String
  clientId : String
  binding : String
  source : String
  eventId : String
  envelope : String
  created : Rat
deriving DecidableEq

def Event.key (e : Event) : EventKey :=
  ⟨e.seq, e.id, e.clientId, e.binding, e.source, e.eventId, e.envelope, e.created⟩

/-- `seq` grows; `id`, `client_id` and `(binding,source,event_id)` are unique. -/
def EventKey.Fits (a b : EventKey) : Prop :=
  a.seq < b.seq ∧ a.id ≠ b.id ∧ a.clientId ≠ b.clientId ∧
    ¬ (a.binding = b.binding ∧ a.source = b.source ∧ a.eventId = b.eventId)

instance : DecidableRel EventKey.Fits :=
  fun _ _ => inferInstanceAs (Decidable (_ ∧ _))

instance : Schema Event where
  Key := EventKey
  key := Event.key
  Fits := EventKey.Fits
  decFits := inferInstance

/-- `id` and `binding` are unique. -/
instance : Schema Watch where
  Key := String × String × String × String
  key w := (w.id, w.binding, w.thread, w.name)
  Fits a b := a.1 ≠ b.1 ∧ a.2.1 ≠ b.2.1
  decFits _ _ := inferInstanceAs (Decidable (_ ∧ _))

/-- The columns of a reply that no operation ever changes. -/
structure ReplyKey where
  seq : Nat
  id : String
  deliveryId : String
  replyKey : String
  source : String
  binding : String
  eventId : String
  message : String
  created : Rat
deriving DecidableEq

def Reply.key (r : Reply) : ReplyKey :=
  ⟨r.seq, r.id, r.deliveryId, r.replyKey, r.source, r.binding, r.eventId, r.message, r.created⟩

def ReplyKey.Fits (a b : ReplyKey) : Prop :=
  a.seq < b.seq ∧ a.id ≠ b.id ∧ ¬ (a.deliveryId = b.deliveryId ∧ a.replyKey = b.replyKey)

instance : DecidableRel ReplyKey.Fits :=
  fun _ _ => inferInstanceAs (Decidable (_ ∧ _))

instance : Schema Reply where
  Key := ReplyKey
  key := Reply.key
  Fits := ReplyKey.Fits
  decFits := inferInstance

/-- The columns of a request that no operation ever changes. -/
structure RequestIdentity where
  seq : Nat
  requestId : String
  thread : String
  source : String
  requestKey : String
  deliveryId : String
  binding : String
  payload : String
  expiresAt : Option Rat
  created : Rat
deriving DecidableEq

def Request.identity (r : Request) : RequestIdentity :=
  ⟨r.seq, r.requestId, r.thread, r.source, r.requestKey, r.deliveryId, r.binding, r.payload,
    r.expiresAt, r.created⟩

def RequestIdentity.Fits (a b : RequestIdentity) : Prop :=
  a.seq < b.seq ∧ a.requestId ≠ b.requestId ∧
    ¬ (a.thread = b.thread ∧ a.source = b.source ∧ a.requestKey = b.requestKey)

instance : DecidableRel RequestIdentity.Fits :=
  fun _ _ => inferInstanceAs (Decidable (_ ∧ _))

instance : Schema Request where
  Key := RequestIdentity
  key := Request.identity
  Fits := RequestIdentity.Fits
  decFits := inferInstance

/-- The columns of a notification that no operation ever changes. -/
structure NoticeKey where
  notificationId : String
  requestId : String
  updateId : String
  revision : Int
  originalBinding : String
  source : String
  eventId : String
  envelope : String
deriving DecidableEq

def RequestNotification.key (n : RequestNotification) : NoticeKey :=
  ⟨n.notificationId, n.requestId, n.updateId, n.revision, n.originalBinding, n.source, n.eventId,
    n.envelope⟩

def NoticeKey.Fits (a b : NoticeKey) : Prop :=
  a.notificationId ≠ b.notificationId ∧ ¬ (a.requestId = b.requestId ∧ a.revision = b.revision)

instance : DecidableRel NoticeKey.Fits :=
  fun _ _ => inferInstanceAs (Decidable (_ ∧ _))

instance : Schema RequestNotification where
  Key := NoticeKey
  key := RequestNotification.key
  Fits := NoticeKey.Fits
  decFits := inferInstance

/-- Updates are append-only: `seq` grows and `(request_id,update_id)` is unique. -/
def RequestUpdate.Fits (a b : RequestUpdate) : Prop :=
  a.seq < b.seq ∧ ¬ (a.requestId = b.requestId ∧ a.updateId = b.updateId)

instance : DecidableRel RequestUpdate.Fits :=
  fun _ _ => inferInstanceAs (Decidable (_ ∧ _))

instance : Schema RequestUpdate where
  Key := RequestUpdate
  key u := u
  Fits := RequestUpdate.Fits
  decFits := inferInstance

/-! ## Rows are determined by their unique columns -/

section unique

variable {events : Table Event} {e f : Event}

theorem Event.eq_of_seq (he : e ∈ events) (hf : f ∈ events) (h : e.seq = f.seq) : e = f :=
  Table.eq_of_not_fits he hf (fun hfit => absurd h (Nat.ne_of_lt hfit.1))
    (fun hfit => absurd h.symm (Nat.ne_of_lt hfit.1))

theorem Event.eq_of_id (he : e ∈ events) (hf : f ∈ events) (h : e.id = f.id) : e = f :=
  Table.eq_of_not_fits he hf (fun hfit => hfit.2.1 h) (fun hfit => hfit.2.1 h.symm)

theorem Event.eq_of_clientId (he : e ∈ events) (hf : f ∈ events) (h : e.clientId = f.clientId) :
    e = f :=
  Table.eq_of_not_fits he hf (fun hfit => hfit.2.2.1 h) (fun hfit => hfit.2.2.1 h.symm)

/-- At most one event stands under a binding, a source and an event id. -/
theorem Event.eq_of_slot (he : e ∈ events) (hf : f ∈ events) (hbinding : e.binding = f.binding)
    (hsource : e.source = f.source) (heventId : e.eventId = f.eventId) : e = f :=
  Table.eq_of_not_fits he hf (fun hfit => hfit.2.2.2 ⟨hbinding, hsource, heventId⟩)
    (fun hfit => hfit.2.2.2 ⟨hbinding.symm, hsource.symm, heventId.symm⟩)

theorem Binding.eq_of_name {bindings : Table Binding} {b c : Binding} (hb : b ∈ bindings)
    (hc : c ∈ bindings) (h : b.name = c.name) : b = c :=
  Table.eq_of_not_fits hb hc (fun hfit => hfit h) (fun hfit => hfit h.symm)

section watches

variable {watches : Table Watch} {w v : Watch}

theorem Watch.eq_of_id (hw : w ∈ watches) (hv : v ∈ watches) (h : w.id = v.id) : w = v :=
  Table.eq_of_not_fits hw hv (fun hfit => hfit.1 h) (fun hfit => hfit.1 h.symm)

/-- A binding belongs to at most one watch. -/
theorem Watch.eq_of_binding (hw : w ∈ watches) (hv : v ∈ watches) (h : w.binding = v.binding) :
    w = v :=
  Table.eq_of_not_fits hw hv (fun hfit => hfit.2 h) (fun hfit => hfit.2 h.symm)

end watches

theorem Request.eq_of_id {requests : Table Request} {r q : Request} (hr : r ∈ requests)
    (hq : q ∈ requests) (h : r.requestId = q.requestId) : r = q :=
  Table.eq_of_not_fits hr hq (fun hfit => hfit.2.1 h) (fun hfit => hfit.2.1 h.symm)

/-- A thread and a source have at most one request of a key. -/
theorem Request.eq_of_requestKey {requests : Table Request} {r q : Request} (hr : r ∈ requests)
    (hq : q ∈ requests) (hthread : r.thread = q.thread) (hsource : r.source = q.source)
    (hkey : r.requestKey = q.requestKey) : r = q :=
  Table.eq_of_not_fits hr hq (fun hfit => hfit.2.2 ⟨hthread, hsource, hkey⟩)
    (fun hfit => hfit.2.2 ⟨hthread.symm, hsource.symm, hkey.symm⟩)

section notices

variable {notices : Table RequestNotification} {m n : RequestNotification}

theorem RequestNotification.eq_of_id (hm : m ∈ notices) (hn : n ∈ notices)
    (h : m.notificationId = n.notificationId) : m = n :=
  Table.eq_of_not_fits hm hn (fun hfit => hfit.1 h) (fun hfit => hfit.1 h.symm)

/-- A request has at most one notification of a revision. -/
theorem RequestNotification.eq_of_revision (hm : m ∈ notices) (hn : n ∈ notices)
    (hrequest : m.requestId = n.requestId) (hrevision : m.revision = n.revision) : m = n :=
  Table.eq_of_not_fits hm hn (fun hfit => hfit.2 ⟨hrequest, hrevision⟩)
    (fun hfit => hfit.2 ⟨hrequest.symm, hrevision.symm⟩)

end notices

/-- A request has at most one update of an id. -/
theorem RequestUpdate.eq_of_id {updates : Table RequestUpdate} {u v : RequestUpdate}
    (hu : u ∈ updates) (hv : v ∈ updates) (hrequest : u.requestId = v.requestId)
    (hid : u.updateId = v.updateId) : u = v :=
  Table.eq_of_not_fits hu hv (fun hfit => hfit.2 ⟨hrequest, hid⟩)
    (fun hfit => hfit.2 ⟨hrequest.symm, hid.symm⟩)

end unique

/-! ## The database -/

structure Db where
  bindings : Table Binding
  events : Table Event
  managedWatches : Table Watch
  replies : Table Reply
  requests : Table Request
  requestNotifications : Table RequestNotification
  requestUpdates : Table RequestUpdate

/-- A database right after its schema was created. -/
def Db.empty : Db where
  bindings := .empty
  events := .empty
  managedWatches := .empty
  replies := .empty
  requests := .empty
  requestNotifications := .empty
  requestUpdates := .empty

/-- How an operation fails: a rule of the store rejected it, SQLite did, or the
model ran out of the steps it allows a loop. -/
inductive StoreError
  | bail (message : String)
  | sqlite (message : String)
  | outOfFuel
deriving DecidableEq, Repr

/-- A store operation. -/
abbrev StoreM (α : Type) : Type := Tx Db StoreError α

/-- `with_tx` and `with_immediate_tx`: commit on `Ok`, roll back on `Err`. -/
abbrev withTx {α : Type} (body : StoreM α) : StoreM α := Tx.atomically body

/-- Reject with a message. -/
def bailIf (c : Prop) [Decidable c] (message : String) : StoreM Unit :=
  Tx.bailIf c (.bail message)

@[simp] theorem bailIf_run_ok {c : Prop} [Decidable c] {message : String} {s t : Db} {u : Unit} :
    (bailIf c message).run s = (.ok u, t) ↔ ¬ c ∧ s = t :=
  Tx.bailIf_ok

theorem bailIf_refuses {c : Prop} [Decidable c] (hc : c) (message : String) (s : Db) :
    (bailIf c message).run s = (.error (.bail message), s) := by
  unfold bailIf Tx.bailIf
  rw [if_pos hc]
  rfl

/-- `INSERT` into one table, with the constraint error of a refused row. -/
def insertInto (error : String) (insert : Db → Option Db) : StoreM Unit :=
  Tx.attempt (.sqlite error) insert

/-! ## Argument checks -/

/-- A byte of `NAME_CHARS`; every one of them is ASCII. -/
def isNameChar (c : Char) : Bool :=
  c.isAlphanum ∨ c ∈ ['_', '.', ':', '@', '/', '-']

/-- Nonempty, at most 200 bytes, of name characters, starting with a letter or a digit. -/
def isIdentifier (value : String) : Bool :=
  match value.toList with
  | [] => false
  | c :: cs => value.utf8ByteSize ≤ maxIdentifierBytes ∧ c.isAlphanum ∧ (c :: cs).all isNameChar

def validateIdentifier (value label : String) : StoreM Unit :=
  bailIf (isIdentifier value = false) s!"{label} must be a nonempty identifier"

@[simp] theorem validateIdentifier_ok {value label : String} {s t : Db} {u : Unit} :
    (validateIdentifier value label).run s = (.ok u, t) ↔ isIdentifier value = true ∧ s = t := by
  simp [validateIdentifier]

/-- Unicode white space. -/
def isWhitespace (c : Char) : Bool :=
  let n := c.toNat
  (0x09 ≤ n ∧ n ≤ 0x0d) ∨ n ∈ [0x20, 0x85, 0xa0, 0x1680] ∨ (0x2000 ≤ n ∧ n ≤ 0x200a) ∨
    n ∈ [0x2028, 0x2029, 0x202f, 0x205f, 0x3000]

/-- The control characters of Unicode. -/
def isControl (c : Char) : Bool :=
  c.toNat < 0x20 ∨ (0x7f ≤ c.toNat ∧ c.toNat < 0xa0)

def validateText (value label : String) (maxBytes : Nat) : StoreM Unit :=
  bailIf (value.toList.all isWhitespace ∨ maxBytes < value.utf8ByteSize ∨
      value.toList.any isControl)
    s!"{label} is empty, too long, or contains control characters"

@[simp] theorem validateText_ok {value label : String} {maxBytes : Nat} {s t : Db} {u : Unit} :
    (validateText value label maxBytes).run s = (.ok u, t) ↔
      ¬ (value.toList.all isWhitespace ∨ maxBytes < value.utf8ByteSize ∨
        value.toList.any isControl) ∧ s = t := by
  simp [validateText]

/-- What follows `lead` in `value`, when `value` starts with it. -/
def stripLead (lead value : String) : Option (List Char) :=
  if lead.toList.isPrefixOf value.toList then some (value.toList.drop lead.toList.length) else none

/-- An SSH alias: at most 100 characters, a letter or digit first. -/
def isSshAlias : List Char → Bool
  | [] => false
  | c :: cs => cs.length < 100 ∧ c.isAlphanum ∧ cs.all fun d => d.isAlphanum ∨ d ∈ ['_', '.', '-']

def validateEndpoint (crates : Crates) (endpoint : String) : StoreM Unit := do
  bailIf (endpoint = "" ∨ maxEndpointBytes < endpoint.utf8ByteSize ∨
    endpoint.toList.any isWhitespace ∨ Char.ofNat 0 ∈ endpoint.toList) "endpoint is malformed"
  if endpoint ∈ ["shared-local", "local", "unix://"] then
    pure ()
  else if let some path := stripLead "unix://" endpoint then
    bailIf (path.head? ≠ some '/') "Unix endpoint must use an absolute socket path"
  else if let some rest := stripLead "ssh://" endpoint then
    bailIf (isSshAlias rest = false) "SSH endpoint alias is malformed"
  else if (stripLead "ws://" endpoint).isSome ∨ (stripLead "wss://" endpoint).isSome then do
    let url ← Tx.expect (.bail "endpoint URL is malformed") (crates.parseUrl endpoint)
    bailIf (url.scheme ∉ ["ws", "wss"] ∨ url.host = none ∨ url.username ≠ "" ∨
      url.password ≠ none ∨ url.fragment ≠ none) "endpoint URL is malformed or contains credentials"
    bailIf (url.scheme = "ws" ∧ url.host ∉ [some "127.0.0.1", some "localhost", some "::1"])
      "ws endpoint must use a loopback host"
  else
    Tx.fail (.bail ("endpoint must be shared-local, local, unix:///absolute/path, ssh://ALIAS, " ++
      "ws://loopback, or wss://"))

theorem readOnly_bail (c : Prop) [Decidable c] (message : String) :
    Tx.ReadOnly (bailIf c message) :=
  Tx.readOnly_bailIf c _

/-- The endpoint check only reads its argument. -/
theorem validateEndpoint_readOnly (crates : Crates) (endpoint : String) :
    Tx.ReadOnly (validateEndpoint crates endpoint) := by
  unfold validateEndpoint
  refine Tx.ReadOnly.bind (readOnly_bail _ _) fun _ => Tx.ReadOnly.ite (Tx.readOnly_pure _) ?_
  split
  · exact readOnly_bail _ _
  split
  · exact readOnly_bail _ _
  refine Tx.ReadOnly.ite ?_ (Tx.readOnly_fail _)
  exact Tx.ReadOnly.bind (Tx.readOnly_expect _ _) fun _ =>
    Tx.ReadOnly.bind (readOnly_bail _ _) fun _ => readOnly_bail _ _

end CodexMonitor
