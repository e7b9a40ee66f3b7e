import CodexMonitor.Dashboard.Rows
import CodexMonitor.Session.Connection

/-!
# What is said of an owner

A health value says whether an owner that runs elsewhere can take work for one
conversation.  It is built from what the owner answers to a few requests that read;
the functions here are those that look at the answers.
-/

namespace CodexMonitor.OwnerHealth

open Dashboard (field isTrue isText strOr itemsOf textSet f64Of)
open Session (SessionError)

/-- Third-party code that endpoints and messages are shown with. -/
structure Tools where
  crates : Crates
  /-- the port of a URL -/
  port : String → Option Nat
  /-- the path of a URL -/
  path : String → String
  /-- a message without the server's token and what looks like a secret -/
  redact : String → String

/-! ## Values -/

structure Account where
  status : String
  present : Option Bool
deriving DecidableEq, Repr

/-- Whether the owner waits for its user: not told, idle, or by the flags of its turn. -/
inductive Attention
  | unverified
  | idle
  | flagged (approval input : Bool)
deriving DecidableEq, Repr

def Attention.status : Attention → String
  | .unverified => "unverified"
  | .idle => "none"
  | .flagged approval input => if approval || input then "required" else "none"

/-- What is known of a turn that failed. -/
inductive ExecutionError
  | unsupported
  | unavailable
  | observed (authentication : Bool) (message : String)
deriving DecidableEq, Repr

structure Health where
  endpoint : String
  thread : String
  status : String
  state : String
  ready : Bool
  transportReachable : Bool
  threadLoaded : Option Bool
  account : Account
  attention : Attention
  reason : String
  loadedThreads : Option (List String)
  threadRead : Option String
  executionError : Option ExecutionError
  currentAuth : Option String
deriving DecidableEq, Repr

def Account.value (a : Account) : Value :=
  .object [("status", .string a.status), ("present", (a.present.map .bool).getD .null),
    ("credential_validation", .string "unverified"), ("refresh_token", .bool false)]

def Attention.value (a : Attention) : Value :=
  match a with
  | .flagged approval input =>
      .object [("status", .string a.status), ("approval_required", .bool approval),
        ("user_input_required", .bool input), ("source", .string "thread/read.activeFlags"),
        ("automatic_response", .bool false)]
  | _ => .object [("status", .string a.status)]

def ExecutionError.value : ExecutionError → Value
  | .unsupported => .object [("status", .string "unsupported")]
  | .unavailable => .object [("status", .string "unavailable")]
  | .observed authentication message =>
      .object [("status", .string "observed"),
        ("kind", .string (if authentication then "authentication" else "execution")),
        ("message", .string message)]

/-- A field that is there when there is a value for it. -/
def optionalField (key : String) (v : Option Value) : List (String × Value) :=
  (v.map fun v => (key, v)).toList

/-- The JSON that the dashboard gets. -/
def Health.value (h : Health) : Value :=
  .object ([("endpoint", .string h.endpoint), ("thread", .string h.thread),
    ("status", .string h.status), ("state", .string h.state), ("ready", .bool h.ready),
    ("transport_reachable", .bool h.transportReachable),
    ("thread_loaded", (h.threadLoaded.map .bool).getD .null), ("account", h.account.value),
    ("credential_validation", .string "unverified"), ("model_execution", .string "unverified"),
    ("attention", h.attention.value), ("reason", .string h.reason)] ++
    optionalField "loaded_threads" (h.loadedThreads.map fun ids => .array (ids.map .string)) ++
    optionalField "thread_read" (h.threadRead.map fun status =>
      .object [("status", .string status)]) ++
    optionalField "execution_error" (h.executionError.map ExecutionError.value) ++
    optionalField "current_auth" (h.currentAuth.map fun status =>
      .object [("status", .string status), ("source", .string "account/rateLimits/read")]))

@[simp] theorem Health.field_status (h : Health) : field h.value "status" = .string h.status := rfl

@[simp] theorem Health.field_ready (h : Health) : field h.value "ready" = .bool h.ready := rfl

/-! ## Endpoints -/

/-- An endpoint that a probe may connect to: it names a server that runs already. -/
def supportedEndpoint (crates : Crates) (endpoint : String) : Bool :=
  if endpoint = "shared-local" ∨ endpoint = "local" ∨ (stripLead "ssh://" endpoint).isSome then
    false
  else if endpoint = "unix:///" ∨
      ((stripLead "unix:///" endpoint).isSome ∧ endpoint.utf8ByteSize ≤ 9) then false
  else
    ((stripLead "ws://" endpoint).isSome ∨ (stripLead "wss://" endpoint).isSome ∨
      (stripLead "unix://" endpoint).isSome) ∧
      (Session.validateEndpoint crates endpoint).isOk

/-- The first 240 characters. -/
def shortened (text : String) : String := String.ofList (text.toList.take 240)

def displayEndpoint (tools : Tools) (endpoint : String) : String :=
  match tools.crates.parseUrl endpoint with
  | none => shortened endpoint
  | some url =>
      if url.username = "" ∧ url.password = none then shortened endpoint
      else
        url.scheme ++ "://" ++ url.host.getD "owner" ++
          ((tools.port endpoint).map fun port => ":" ++ toString port).getD "" ++
          tools.path endpoint

/-! ## Building values -/

def base (tools : Tools) (endpoint thread reason : String) : Health where
  endpoint := displayEndpoint tools endpoint
  thread := thread
  status := "unverified"
  state := "unverified"
  ready := false
  transportReachable := false
  threadLoaded := none
  account := ⟨"unverified", none⟩
  attention := .unverified
  reason := reason
  loadedThreads := none
  threadRead := none
  executionError := none
  currentAuth := none

def withThread (base : Health) (thread : String) : Health := { base with thread }

def terminal (base : Health) (thread status reason : String) : Health :=
  { base with thread, status, state := status, ready := false, reason }

def unloaded (base : Health) (thread : String) (loaded : List String) : Health :=
  { terminal base thread "unloaded" "conversation is not loaded by this owner" with
    loadedThreads := some loaded
    threadLoaded := some false }

def threadFailure (base : Health) (thread : String) (loaded : List String)
    (status reason : String) : Health :=
  { terminal base thread status reason with
    loadedThreads := some loaded
    threadLoaded := some true }

/-! ## Reading answers -/

inductive Failure
  | auth
  | unsupported
  | unavailable
deriving DecidableEq, Repr

def authWords : List String :=
  ["auth", "credential", "forbidden", "invalid token", "logged out", "login", "unauthorized"]

def classifyError (error : SessionError) : Failure :=
  let text := error.message.toList.flatMap Text.lowercase
  if authWords.any (Session.containsText text) then .auth
  else if Session.containsText text "method not found" ||
      Session.containsText text "unsupported" || Session.containsText text "unknown variant" ||
      (Session.containsText text "rejected: " && Session.containsText text "method") then
    .unsupported
  else .unavailable

def accountAuthRequired : Account := ⟨"auth-required", some false⟩

def truthy : Value → Bool
  | .null => false
  | .bool b => b
  | .number n => n.asF64 ≠ 0
  | .string s => s ≠ ""
  | .array items => !items.isEmpty
  | .object fields => !fields.isEmpty

def isNull : Value → Bool
  | .null => true
  | _ => false

def accountObservation (value : Value) : Account :=
  match value.asObject with
  | none => ⟨"unknown", none⟩
  | some _ =>
      let account := value.get "account"
      let requiresAuth := (field value "requiresOpenaiAuth").asBool
      if account.all isNull ∧ requiresAuth = some true then accountAuthRequired
      else if account.all isNull ∧ requiresAuth ≠ some false then ⟨"unknown", none⟩
      else if account.any truthy then ⟨"present", some true⟩
      else ⟨"absent", some false⟩

/-- A short text, trimmed and with blanks for control characters. -/
def shortStatus (text : String) : Option String :=
  let trimmed := Text.trim isWhitespace text.toList
  if trimmed ≠ [] ∧ (String.ofList trimmed).utf8ByteSize ≤ 64 then
    some (String.ofList (trimmed.map fun c => if isControl c then ' ' else c))
  else none

mutual

def statusValue : Value → Option String
  | .string text => shortStatus text
  | .object fields =>
      ["type", "status", "state", "thread"].findSome? fun key =>
        ((statusFields fields).find? fun entry => entry.1 = key).bind Prod.snd
  | _ => none

/-- The status of each field of an object. -/
def statusFields : List (String × Value) → List (String × Option String)
  | [] => []
  | (key, v) :: rest => (key, statusValue v) :: statusFields rest

end

/-- The attention that the owner's current flags ask for. -/
def attentionOf (value : Value) : Attention :=
  match ((value.get "thread").getD value).get "status" with
  | none => .unverified
  | some status =>
      match (status.get "activeFlags").bind Value.asArray with
      | none => if statusValue status = some "idle" then .idle else .unverified
      | some flags =>
          if statusValue status = some "active" then
            .flagged (flags.any (isText · "waitingOnApproval"))
              (flags.any (isText · "waitingOnUserInput"))
          else if statusValue status = some "idle" then .idle
          else .unverified

/-- The state, and the reason for it, of an owner that waits for its user. -/
def waitingState (approval input : Bool) : String × String :=
  (if approval then "waiting-for-approval" else "waiting-for-user-input",
    match approval, input with
    | true, true =>
        "Approval and user response required. Open in Codex to review and respond."
    | true, false => "Approval required. Open in Codex to review the requested action."
    | _, _ => "User response required. Open in Codex to answer the pending question.")

/-- Write down the attention; true when nothing else is to be said. -/
def applyAttention (result : Health) (value : Value) : Bool × Health :=
  let result := { result with attention := attentionOf value }
  match attentionOf value with
  | .flagged approval input =>
      if approval || input then
        (true, { result with
          status := (waitingState approval input).1
          state := (waitingState approval input).1
          ready := false
          reason := (waitingState approval input).2 })
      else (false, result)
  | _ => (false, result)

def authenticationWords : List String :=
  ["token", "logged out", "sign in", "unauthorized", "authentication"]

/-- The error of the last turn. -/
def latestError (tools : Tools) (page : Value) : ExecutionError :=
  let turn := ((itemsOf (field page "data")).head?).getD .null
  if ¬ isText (field turn "status") "failed" then .unavailable
  else
    match (field (field turn "error") "message").asStr with
    | none => .unavailable
    | some message =>
        let shown := (message.toList.filter fun c => !isControl c || c = '\n').take 2000
        .observed (authenticationWords.any
            (Session.containsText (message.toList.flatMap Text.lowercase)))
          (tools.redact (String.ofList shown))

end CodexMonitor.OwnerHealth
