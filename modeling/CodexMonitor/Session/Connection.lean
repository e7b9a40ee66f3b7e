import CodexMonitor.Lib.Text
import CodexMonitor.Session.Transport
import CodexMonitor.Store.Schema

/-!
# Connections and calls

A call takes the endpoint's pooled connection or dials a new one, and makes one
request on it.  Up to the moment the frame's write begins a call fails with
`unavailable` or `permanent` only; after it, an explicit RPC error apart, it ends
with the result of its answer or with `uncertain`.  `Answered` says when a call
returns a result, `call_started` what a call whose write has begun can return.
-/

namespace CodexMonitor

namespace Session

/-! ## Endpoints -/

/-- The alias of an `ssh://` endpoint. -/
def isSshTarget (target : List Char) : Bool :=
  target ≠ [] ∧ (String.ofList target).utf8ByteSize ≤ 100 ∧
    (target.zipIdx.all fun (c, i) =>
      c.isAlphanum ∨ c = '_' ∨ c = '.' ∨ (c = '-' ∧ 0 < i)) ∧
    target.head?.any Char.isAlphanum

/-- Validate an endpoint without opening a connection. -/
def validateEndpoint (crates : Crates) (endpoint : String) : Except SessionError Unit :=
  if endpoint = "" ∨ maxEndpointBytes < endpoint.utf8ByteSize ∨
      Char.ofNat 0 ∈ endpoint.toList then
    .error (.permanent "endpoint must be a valid local or App Server transport")
  else if endpoint ∈ ["shared-local", "local", "unix://"] then .ok ()
  else if let some path := stripLead "unix://" endpoint then
    if path.head? ≠ some '/' then
      .error (.permanent "Unix endpoint must use an absolute socket path")
    else .ok ()
  else if (stripLead "ws://" endpoint).isSome ∨ (stripLead "wss://" endpoint).isSome then
    if endpoint.toList.any isWhitespace then .error (.permanent "endpoint URL is malformed")
    else
      match crates.parseUrl endpoint with
      | none => .error (.permanent "endpoint URL is malformed")
      | some url =>
          match url.host with
          | none => .error (.permanent "endpoint URL is malformed")
          | some host =>
              if url.username ≠ "" ∨ url.password ≠ none ∨ url.fragment ≠ none then
                .error (.permanent ("App Server credentials belong in " ++
                  "CODEX_MONITOR_SERVER_TOKEN, not the endpoint URL"))
              else if url.scheme = "ws" ∧
                  host.toList.map Char.toLower ∉
                    ["127.0.0.1".toList, "localhost".toList, "::1".toList] then
                .error (.permanent
                  "ws endpoint must use a loopback host; use wss:// for remote hosts")
              else .ok ()
  else if (stripLead "ssh://" endpoint).any isSshTarget then .ok ()
  else
    .error (.permanent ("endpoint must be shared-local, local, ssh://ALIAS, " ++
      "unix:///absolute/path, ws://loopback, or wss://"))

inductive EndpointKind
  | sharedLocal | explicit
deriving DecidableEq, Repr

def EndpointKind.of (endpoint : String) : EndpointKind :=
  if endpoint = "shared-local" then .sharedLocal else .explicit

/-! ## Dialling -/

/-- What the operating system and the network do while a transport is opened: the errors they
raise, the pipes a child got, and what `server_token` finds (its failures are permanent). -/
structure Opening where
  spawnError : Option String
  stdinPiped : Bool
  stdoutPiped : Bool
  connectError : Option String
  requestError : Option String
  token : Except String (Option String)
  headerValid : Bool
  handshakeError : Option String

/-- A child process that speaks over its standard streams. -/
def openChild (what stream : String) (opening : Opening) : Except SessionError Unit :=
  match opening.spawnError with
  | some error => .error (.unavailable (what ++ ": " ++ error))
  | none =>
      if opening.stdinPiped = false then
        .error (.unavailable (stream ++ " stdin was not piped"))
      else if opening.stdoutPiped = false then
        .error (.unavailable (stream ++ " stdout was not piped"))
      else .ok ()

def openTransport (endpoint : String) (opening : Opening) : Except SessionError Unit :=
  if endpoint = "shared-local" ∨ endpoint = "local" then
    openChild "cannot start the Codex App Server" "Codex App Server" opening
  else if (stripLead "unix://" endpoint).isSome then
    match opening.connectError, opening.requestError, opening.handshakeError with
    | some error, _, _ =>
        .error (.unavailable s!"cannot connect to Unix App Server endpoint: {error}")
    | none, some error, _ =>
        .error (.permanent s!"invalid Unix WebSocket request: {error}")
    | none, none, some error =>
        .error (.unavailable s!"Unix App Server WebSocket handshake failed: {error}")
    | none, none, none => .ok ()
  else if (stripLead "ws://" endpoint).isSome ∨ (stripLead "wss://" endpoint).isSome then
    match opening.requestError, opening.token with
    | some error, _ =>
        .error (.permanent s!"invalid App Server WebSocket endpoint: {error}")
    | none, .error error => .error (.permanent error)
    | none, .ok token =>
        if token.isSome ∧ opening.headerValid = false then
          .error (.permanent
            "App Server bearer token contains invalid header characters")
        else
          match opening.handshakeError with
          | some error =>
              .error (.unavailable s!"App Server WebSocket handshake failed: {error}")
          | none => .ok ()
  else if (stripLead "ssh://" endpoint).isSome then
    openChild "cannot start the SSH App Server proxy" "SSH App Server proxy" opening
  else .error (.permanent "unsupported App Server endpoint")

/-- What happens while a connection is made. -/
structure Dial where
  inTime : Bool
  opening : Opening
  initRequest : Exchange
  initNotice : Write

def initializeParams : Value :=
  .object
    [("capabilities", .object [("experimentalApi", .bool true)]),
      ("clientInfo", .object
        [("name", .string "codex_monitor"), ("title", .string "Codex Monitor"),
          ("version", .string "0.1.0")])]

/-- A failure while a connection is made: only `permanent` keeps its kind. -/
def dialError (text : String) : SessionError → SessionError
  | .permanent message => .permanent message
  | error => .unavailable (text ++ ": " ++ error.message)

/-- `RpcConnection::connect`. -/
def connect (crates : Crates) (endpoint : String) (dial : Dial) : Except SessionError Unit := do
  validateEndpoint crates endpoint
  if dial.inTime = false then
    .error (.unavailable "App Server connection timed out")
  else do
    openTransport endpoint dial.opening
    match requestRaw crates "initialize" initializeParams dial.initRequest with
    | .ok _ =>
        (send crates (.object [("method", .string "initialized"), ("params", .object [])])
          (some dial.initNotice)).mapError
            (dialError "App Server initialization notification failed")
    | .error (.rpc failure) =>
        .error (.unavailable ("App Server initialization failed: " ++ failure.message))
    | .error (.transport error) =>
        .error (dialError "App Server is unreachable or initialization failed" error)

/-- What the pool has for an endpoint: a usable connection, or room for one, or neither. -/
inductive Pooled
  | usable | full | vacant
deriving DecidableEq, Repr

/-- `SessionPool::connection`. -/
def connection (crates : Crates) (endpoint : String) (pooled : Pooled) (dial : Dial) :
    Except SessionError Unit := do
  validateEndpoint crates endpoint
  match pooled with
  | .usable => .ok ()
  | .full => .error (.unavailable "App Server connection pool capacity reached")
  | .vacant => connect crates endpoint dial

/-! ## RPC errors -/

/-- `part`, a text in lower-case ASCII, occurs in a text in lower case. -/
def containsText (text : List Char) (part : String) : Bool :=
  text.tails.any fun rest => part.toList.isPrefixOf rest

def permanentTarget : List String :=
  ["thread not found:", "no rollout found for thread id", " is archived",
    "does not support queued submissions", "direct app-server input is not allowed",
    "user message queue is unavailable"]

def classifyRpc (method : String) (error : RpcFailure) : SessionError :=
  let message := error.message.toList.flatMap Text.lowercase
  if error.code ∈ [some (-32700), some (-32600), some (-32601), some (-32602)] ∨
      permanentTarget.any (containsText message) then
    .permanent (method ++ " rejected: " ++ error.message)
  else if method = "thread/queue/add" then
    if error.code = some (-32001) then
      .retryable ("queue submission temporarily failed: " ++ error.message)
    else
      .uncertain ("queue submission failed after handoff; acceptance unknown: " ++ error.message)
  else .retryable (method ++ " temporarily failed: " ++ error.message)

/-! ## Calls -/

/-- The methods that own a thread. -/
def ownerMethods : List String :=
  ["thread/start", "thread/resume", "turn/start", "turn/interrupt"]

def ownerError : SessionError :=
  .permanent "shared-local transport never owns, starts, resumes, or interrupts a thread"

/-- `RpcConnection::request`. -/
def request (crates : Crates) (kind : EndpointKind) (method : String) (params : Value)
    (x : Exchange) : Except SessionError Value :=
  if kind = .sharedLocal ∧ method ∈ ownerMethods then .error ownerError
  else
    match requestRaw crates method params x with
    | .ok value => .ok value
    | .error (.rpc failure) => .error (classifyRpc method failure)
    | .error (.transport error) => .error error

/-- What happens to one call. -/
structure Attempt where
  pooled : Pooled
  dial : Dial
  exchange : Exchange

/-- `SessionPool::call`. -/
def call (crates : Crates) (endpoint method : String) (params : Value) (attempt : Attempt) :
    Except SessionError Value :=
  if method = "" ∨ Char.ofNat 0 ∈ method.toList then
    .error (.permanent "RPC method must be nonempty")
  else if endpoint = "shared-local" ∧ method ∈ ownerMethods then .error ownerError
  else if maxRequestBytes < encodedBytes crates params then
    .error (.permanent "App Server request exceeds the bounded RPC size")
  else do
    connection crates endpoint attempt.pooled attempt.dial
    request crates (.of endpoint) method params attempt.exchange

/-! ## What a call can return -/

/-- A call whose frame's write has begun. -/
structure Started (crates : Crates) (endpoint method : String) (params : Value)
    (attempt : Attempt) : Prop where
  named : ¬ (method = "" ∨ Char.ofNat 0 ∈ method.toList)
  allowed : ¬ (endpoint = "shared-local" ∧ method ∈ ownerMethods)
  bounded : ¬ maxRequestBytes < encodedBytes crates params
  connected : connection crates endpoint attempt.pooled attempt.dial = .ok ()
  attached : attempt.exchange.attached = true
  framed : ¬ maxRequestBytes <
    encodedBytes crates (requestFrame attempt.exchange.requestId method params)

instance isOk_decidable {ε : Type} [DecidableEq ε] (x : Except ε Unit) : Decidable (x = .ok ()) :=
  match x with
  | .ok () => isTrue rfl
  | .error _ => isFalse fun h => by cases h

section calls

variable {crates : Crates} {endpoint method : String} {params : Value} {attempt : Attempt}

theorem started_iff : Started crates endpoint method params attempt ↔
    ¬ (method = "" ∨ Char.ofNat 0 ∈ method.toList) ∧
      ¬ (endpoint = "shared-local" ∧ method ∈ ownerMethods) ∧
      ¬ maxRequestBytes < encodedBytes crates params ∧
      connection crates endpoint attempt.pooled attempt.dial = .ok () ∧
      attempt.exchange.attached = true ∧
      ¬ maxRequestBytes <
        encodedBytes crates (requestFrame attempt.exchange.requestId method params) :=
  ⟨fun h => ⟨h.named, h.allowed, h.bounded, h.connected, h.attached, h.framed⟩,
    fun ⟨hnamed, hallowed, hbounded, hconnected, hattached, hframed⟩ =>
      ⟨hnamed, hallowed, hbounded, hconnected, hattached, hframed⟩⟩

instance : Decidable (Started crates endpoint method params attempt) :=
  decidable_of_iff _ started_iff.symm

/-- A call that has begun is one request on the connection. -/
theorem Started.call_eq (h : Started crates endpoint method params attempt) :
    call crates endpoint method params attempt =
      match (send crates (requestFrame attempt.exchange.requestId method params)
          attempt.exchange.write) with
      | .error error => .error error
      | .ok () =>
          match awaitResponse crates attempt.exchange.requestId attempt.exchange.incoming with
          | .ok value => .ok value
          | .error (.rpc failure) => .error (classifyRpc method failure)
          | .error (.transport error) => .error error := by
  have hkind : ¬ (EndpointKind.of endpoint = .sharedLocal ∧ method ∈ ownerMethods) := by
    rintro ⟨hkind, hmethod⟩
    refine h.allowed ⟨?_, hmethod⟩
    unfold EndpointKind.of at hkind
    split at hkind
    · assumption
    · cases hkind
  unfold call
  rw [if_neg h.named, if_neg h.allowed, if_neg h.bounded, h.connected]
  show request crates _ _ _ _ = _
  unfold request requestRaw
  rw [if_neg hkind, if_neg (by simp [h.attached])]
  cases send crates (requestFrame attempt.exchange.requestId method params)
    attempt.exchange.write with
  | error error => rfl
  | ok u => rfl

/-- Before its write begins a call returns nothing. -/
theorem not_started (h : ¬ Started crates endpoint method params attempt) (value : Value) :
    call crates endpoint method params attempt ≠ .ok value := by
  intro hcall
  refine h ?_
  unfold call at hcall
  split at hcall
  · cases hcall
  rename_i hnamed
  split at hcall
  · cases hcall
  rename_i hallowed
  split at hcall
  · cases hcall
  rename_i hbounded
  obtain ⟨_, hconnected, hrequest⟩ := bind_ok.mp hcall
  unfold request at hrequest
  split at hrequest
  · cases hrequest
  split at hrequest
  · rename_i hraw
    unfold requestRaw at hraw
    split at hraw
    · cases hraw
    rename_i hattached
    split at hraw
    · cases hraw
    rename_i hsend
    refine ⟨hnamed, hallowed, hbounded, hconnected, by simpa using hattached, fun hlong => ?_⟩
    unfold send at hsend
    rw [if_pos hlong] at hsend
    cases hsend
  · cases hrequest
  · cases hrequest

/-- The server answers a call with a result: the call has begun, its frame was written, and the
first answer to its id is no error and has the result. -/
structure Answered (crates : Crates) (endpoint method : String) (params : Value)
    (attempt : Attempt) (result : Value) : Prop where
  started : Started crates endpoint method params attempt
  written : attempt.exchange.write = some .done
  answer : ∃ response,
    Answers crates attempt.exchange.requestId response attempt.exchange.incoming ∧
      RpcFailure.fromValue response = none ∧ response.get "result" = some result

/-- A frame of bounded size is sent when its write ends well, and else acceptance is unknown. -/
theorem send_cases {message : Value} (h : ¬ maxRequestBytes < encodedBytes crates message)
    (write : Option Write) :
    (write = some .done ∧ send crates message write = .ok ()) ∨
      (write ≠ some .done ∧ ∃ text, send crates message write = .error (.uncertain text)) := by
  unfold send
  rw [if_neg h]
  rcases write with _ | _ | error | error
  · exact Or.inr ⟨by simp, _, rfl⟩
  · exact Or.inl ⟨rfl, rfl⟩
  · exact Or.inr ⟨by simp, _, rfl⟩
  · exact Or.inr ⟨by simp, _, rfl⟩

/-- A call returns what the server answers it with. -/
theorem call_ok {result : Value} : call crates endpoint method params attempt = .ok result ↔
    Answered crates endpoint method params attempt result := by
  constructor
  · intro h
    have hstarted : Started crates endpoint method params attempt :=
      Decidable.byContradiction fun hnot => not_started hnot result h
    rw [hstarted.call_eq] at h
    rcases send_cases hstarted.framed attempt.exchange.write with ⟨hwrite, hsend⟩ |
      ⟨_, text, hsend⟩
    · rw [hsend] at h
      refine ⟨hstarted, hwrite, awaitResponse_ok.mp ?_⟩
      cases hawait : awaitResponse crates attempt.exchange.requestId attempt.exchange.incoming with
      | ok value =>
          rw [hawait] at h
          exact congrArg Except.ok (Except.ok.inj h)
      | error error =>
          rw [hawait] at h
          cases error <;> cases h
    · rw [hsend] at h
      cases h
  · rintro ⟨hstarted, hwrite, hanswer⟩
    rw [hstarted.call_eq]
    rcases send_cases hstarted.framed attempt.exchange.write with ⟨_, hsend⟩ | ⟨hnot, _⟩
    · rw [hsend, awaitResponse_ok.mpr hanswer]
    · exact absurd hwrite hnot

/-- The server answers the exchange's request with an explicit error. -/
def Exchange.Refused (crates : Crates) (x : Exchange) : Prop :=
  match awaitResponse crates x.requestId x.incoming with
  | .error (.rpc _) => x.write = some .done
  | _ => False

instance (crates : Crates) (x : Exchange) : Decidable (x.Refused crates) := by
  unfold Exchange.Refused
  split <;> infer_instance

/-- A call that has begun and is not refused returns a result or leaves acceptance unknown. -/
theorem call_started (h : Started crates endpoint method params attempt)
    (hrefused : ¬ attempt.exchange.Refused crates) :
    (∃ value, call crates endpoint method params attempt = .ok value) ∨
      ∃ text, call crates endpoint method params attempt = .error (.uncertain text) := by
  rw [h.call_eq]
  rcases send_cases h.framed attempt.exchange.write with ⟨hwrite, hsend⟩ | ⟨_, text, hsend⟩
  · rw [hsend]
    rcases awaitResponse_cases crates attempt.exchange.requestId attempt.exchange.incoming with
      ⟨_, result, _, _, _, hok⟩ | ⟨_, failure, _, _, herror⟩ | ⟨_, text, herror⟩
    · rw [hok]
      exact Or.inl ⟨result, rfl⟩
    · refine absurd ?_ hrefused
      unfold Exchange.Refused
      rw [herror]
      exact hwrite
    · rw [herror]
      exact Or.inr ⟨text, rfl⟩
  · rw [hsend]
    exact Or.inr ⟨text, rfl⟩

end calls

end Session

end CodexMonitor
