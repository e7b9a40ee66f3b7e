import CodexMonitor.Json

/-!
# One request on a connection

A request is a frame written to the transport and the first message that comes
back under its id.  What the operating system, the network and the peer do is an
input: how the write ends, and what comes in until the deadline passes.
`Answers` says which of the incoming messages the request is answered by, and
`awaitResponse_ok`, `awaitResponse_rpc` that the reading loop agrees.
-/

namespace CodexMonitor

namespace Session

def maxMessageBytes : Nat := 16 * 1024 * 1024
def maxRequestBytes : Nat := 8 * 1024 * 1024

/-! ## Errors -/

/-- `uncertain` always means reconcile first. -/
inductive SessionError
  /-- the endpoint or owner was unavailable before a request was handed off -/
  | unavailable (message : String)
  /-- the operation is known not to have been accepted and may be retried -/
  | retryable (message : String)
  /-- the request may have been accepted; replaying it would be unsafe -/
  | uncertain (message : String)
  /-- the target or operation was rejected until an operator changes it -/
  | permanent (message : String)
deriving DecidableEq, Repr

/-- `Display`. -/
def SessionError.message : SessionError → String
  | unavailable message | retryable message | uncertain message | permanent message => message

def errorKind : SessionError → String
  | .unavailable _ => "unavailable"
  | .retryable _ => "retryable"
  | .uncertain _ => "uncertain"
  | .permanent _ => "permanent"

/-- The error object of a JSON-RPC response. -/
structure RpcFailure where
  code : Option Int
  message : String
deriving DecidableEq, Repr

def RpcFailure.fromValue (value : Value) : Option RpcFailure :=
  ((value.get "error").bind Value.asObject).map fun fields =>
    ⟨((Value.object fields).get "code").bind Value.asI64,
      ((Value.object fields).getStr "message").getD "RPC error"⟩

inductive RequestError
  | transport (error : SessionError)
  | rpc (failure : RpcFailure)
deriving DecidableEq, Repr

/-- Go on with the value of a step that succeeded. -/
theorem bind_ok {ε α β : Type} {x : Except ε α} {f : α → Except ε β} {b : β} :
    (x >>= f) = .ok b ↔ ∃ a, x = .ok a ∧ f a = .ok b := by
  cases x with
  | error e => simp [bind, Except.bind]
  | ok a => simp [bind, Except.bind]

/-- `ok_or_else`. -/
def okOr {ε α : Type} (error : ε) : Option α → Except ε α
  | some a => .ok a
  | none => .error error

@[simp] theorem okOr_ok {ε α : Type} {error : ε} {o : Option α} {a : α} :
    okOr error o = .ok a ↔ o = some a := by
  cases o <;> simp [okOr]

/-! ## Frames -/

/-- How the write of a frame ends. -/
inductive Write
  | done
  | failed (error : String)
  | flushFailed (error : String)
deriving DecidableEq, Repr

/-- What the transport yields next.  `error` is what the parser says of a text it refuses. -/
inductive Incoming
  /-- a line of a child's output -/
  | line (raw error : String)
  /-- a WebSocket message, text or UTF-8 bytes -/
  | text (raw error : String)
  | notUtf8
  /-- a ping, a pong or another control frame -/
  | control
  | closed
  | readFailed (error : String)
  | disconnected (error : String)
deriving DecidableEq, Repr

/-- What happens to one request: whether the connection still has its transport, the id the
request gets, how its write ends (`none` is the deadline) and what comes in before the
deadline. -/
structure Exchange where
  attached : Bool
  requestId : Nat
  write : Option Write
  incoming : List Incoming
deriving DecidableEq, Repr

/-- The bytes of a message; maps are ordered, so their text is the canonical one. -/
def encodedBytes (crates : Crates) (message : Value) : Nat :=
  (canonicalJson crates message).utf8ByteSize

/-- `Transport::send` under the caller's deadline. -/
def send (crates : Crates) (message : Value) (write : Option Write) : Except SessionError Unit :=
  if maxRequestBytes < encodedBytes crates message then
    .error (.permanent "App Server request exceeds the bounded RPC size")
  else
    match write with
    | none => .error (.uncertain "App Server write timed out; acceptance unknown")
    | some .done => .ok ()
    | some (.failed error) =>
        .error (.uncertain s!"App Server write failed; acceptance unknown: {error}")
    | some (.flushFailed error) =>
        .error (.uncertain s!"App Server flush failed; acceptance unknown: {error}")

/-- The message of a text. -/
def parse (crates : Crates) (raw error : String) : Except SessionError (Option Value) :=
  match crates.fromStr raw with
  | some message => .ok (some message)
  | none =>
      .error (.uncertain s!"App Server returned malformed data after handoff: {error}")

/-- `Transport::receive`; `none` is the end of the stream. -/
def receive (crates : Crates) : Incoming → Except SessionError (Option Value)
  | .line raw error =>
      if raw.utf8ByteSize = 0 then .ok none
      else if maxMessageBytes < raw.utf8ByteSize then
        .error (.uncertain "App Server response exceeded the bounded RPC size")
      else parse crates raw error
  | .text raw error => parse crates raw error
  | .notUtf8 => .error (.uncertain "App Server returned non-UTF-8 data after handoff")
  | .control => .ok (some (.object [("_notification", .bool true)]))
  | .closed => .ok none
  | .readFailed error =>
      .error (.uncertain s!"App Server read failed after handoff: {error}")
  | .disconnected error =>
      .error (.uncertain s!"App Server disconnected after handoff: {error}")

/-- A message that does not answer the request: a peer's own call, a control frame, or the
answer to another request. -/
def IsOther (requestId : Nat) (message : Value) : Prop :=
  (message.get "method").isSome = true ∨
    (message.get "_notification").bind Value.asBool = some true ∨
    (message.get "id").bind Value.asU64 ≠ some requestId

instance (requestId : Nat) : DecidablePred (IsOther requestId) :=
  fun _ => inferInstanceAs (Decidable (_ ∨ _))

/-- The reading loop of `request_raw`; the list ends when the deadline passes. -/
def awaitResponse (crates : Crates) (requestId : Nat) : List Incoming → Except RequestError Value
  | [] => .error (.transport (.uncertain "App Server response timed out; acceptance unknown"))
  | incoming :: rest =>
      match receive crates incoming with
      | .error error => .error (.transport error)
      | .ok none =>
          .error (.transport
            (.uncertain "App Server disconnected after handoff; acceptance unknown"))
      | .ok (some message) =>
          if IsOther requestId message then awaitResponse crates requestId rest
          else
            match RpcFailure.fromValue message with
            | some failure => .error (.rpc failure)
            | none =>
                match message.get "result" with
                | some result => .ok result
                | none =>
                    .error (.transport
                      (.uncertain "App Server returned a malformed response after handoff"))

/-- The frame of a request. -/
def requestFrame (requestId : Nat) (method : String) (params : Value) : Value :=
  .object [("id", .number (.ofI64 requestId)), ("method", .string method), ("params", params)]

def requestRaw (crates : Crates) (method : String) (params : Value) (x : Exchange) :
    Except RequestError Value :=
  if x.attached = false then
    .error (.transport
      (.unavailable "App Server connection unavailable before submission"))
  else
    match send crates (requestFrame x.requestId method params) x.write with
    | .error error => .error (.transport error)
    | .ok () => awaitResponse crates x.requestId x.incoming

/-! ## Which message answers a request -/

/-- `response` is the first of the incoming messages that answers the request. -/
inductive Answers (crates : Crates) (requestId : Nat) (response : Value) : List Incoming → Prop
  | here {incoming : Incoming} {rest : List Incoming}
      (hread : receive crates incoming = .ok (some response))
      (hid : ¬ IsOther requestId response) : Answers crates requestId response (incoming :: rest)
  | later {incoming : Incoming} {rest : List Incoming} {message : Value}
      (hread : receive crates incoming = .ok (some message)) (hother : IsOther requestId message)
      (hrest : Answers crates requestId response rest) :
      Answers crates requestId response (incoming :: rest)

section answers

variable {crates : Crates} {requestId : Nat} {incoming : List Incoming}

/-- A request has one answer. -/
theorem Answers.unique {r q : Value} (hr : Answers crates requestId r incoming)
    (hq : Answers crates requestId q incoming) : r = q := by
  induction hr with
  | here hread hid =>
      cases hq with
      | here hread' _ =>
          rw [hread] at hread'
          cases hread'
          rfl
      | later hread' hother _ =>
          rw [hread] at hread'
          cases hread'
          exact absurd hother hid
  | later hread hother _ ih =>
      cases hq with
      | here hread' hid =>
          rw [hread] at hread'
          cases hread'
          exact absurd hother hid
      | later _ _ hrest => exact ih hrest

/-- Whatever reading meets besides a message leaves acceptance unknown. -/
theorem receive_error {incoming : Incoming} {error : SessionError}
    (h : receive crates incoming = .error error) : ∃ message, error = .uncertain message := by
  have hparse : ∀ raw text, parse crates raw text = .error error →
      ∃ message, error = .uncertain message := by
    intro raw text h
    unfold parse at h
    split at h
    · cases h
    · cases h
      exact ⟨_, rfl⟩
  cases incoming with
  | line raw text =>
      simp only [receive] at h
      split at h
      · cases h
      split at h
      · cases h
        exact ⟨_, rfl⟩
      · exact hparse raw text h
  | text raw text => exact hparse raw text h
  | notUtf8 | readFailed | disconnected =>
      cases h
      exact ⟨_, rfl⟩
  | control | closed => cases h

/-- How the loop ends: with the answer's result or error, or with acceptance unknown. -/
theorem awaitResponse_cases (crates : Crates) (requestId : Nat) (incoming : List Incoming) :
    (∃ response result, Answers crates requestId response incoming ∧
        RpcFailure.fromValue response = none ∧ response.get "result" = some result ∧
        awaitResponse crates requestId incoming = .ok result) ∨
      (∃ response failure, Answers crates requestId response incoming ∧
        RpcFailure.fromValue response = some failure ∧
        awaitResponse crates requestId incoming = .error (.rpc failure)) ∨
      ((∀ response, Answers crates requestId response incoming →
          RpcFailure.fromValue response = none ∧ response.get "result" = none) ∧
        ∃ message, awaitResponse crates requestId incoming =
          .error (.transport (.uncertain message))) := by
  induction incoming with
  | nil =>
      refine Or.inr (Or.inr ⟨fun response h => ?_, _, rfl⟩)
      cases h
  | cons first rest ih =>
      have hstuck : (∀ message, receive crates first ≠ .ok (some message)) →
          ∀ response, Answers crates requestId response (first :: rest) →
            RpcFailure.fromValue response = none ∧ response.get "result" = none := by
        intro hnone response h
        cases h with
        | here hread _ => exact absurd hread (hnone _)
        | later hread _ _ => exact absurd hread (hnone _)
      simp only [awaitResponse]
      split
      · rename_i error hread
        obtain ⟨message, rfl⟩ := receive_error hread
        refine Or.inr (Or.inr ⟨hstuck ?_, message, rfl⟩)
        simp [hread]
      · rename_i hread
        refine Or.inr (Or.inr ⟨hstuck ?_, _, rfl⟩)
        simp [hread]
      · rename_i message hread
        split
        · rename_i hother
          have hskip : ∀ response, Answers crates requestId response (first :: rest) →
              Answers crates requestId response rest := by
            intro response h
            cases h with
            | here hread' hid =>
                rw [hread] at hread'
                cases hread'
                exact absurd hother hid
            | later _ _ hrest => exact hrest
          rcases ih with ⟨response, result, ha, h⟩ | ⟨response, failure, ha, h⟩ | ⟨hnone, h⟩
          · exact Or.inl ⟨response, result, .later hread hother ha, h⟩
          · exact Or.inr (Or.inl ⟨response, failure, .later hread hother ha, h⟩)
          · exact Or.inr (Or.inr ⟨fun response ha => hnone response (hskip response ha), h⟩)
        · rename_i hid
          have hanswer : Answers crates requestId message (first :: rest) := .here hread hid
          split
          · rename_i failure hfailure
            exact Or.inr (Or.inl ⟨message, failure, hanswer, hfailure, rfl⟩)
          rename_i hfailure
          split
          · rename_i result hresult
            exact Or.inl ⟨message, result, hanswer, hfailure, hresult, rfl⟩
          · rename_i hresult
            refine Or.inr (Or.inr ⟨fun response ha => ?_, _, rfl⟩)
            obtain rfl := ha.unique hanswer
            exact ⟨hfailure, hresult⟩

/-- The loop returns the result of the answer, if the answer is no error. -/
theorem awaitResponse_ok {result : Value} :
    awaitResponse crates requestId incoming = .ok result ↔
      ∃ response, Answers crates requestId response incoming ∧
        RpcFailure.fromValue response = none ∧ response.get "result" = some result := by
  constructor
  · intro h
    rcases awaitResponse_cases crates requestId incoming with
      ⟨response, result', ha, hfailure, hresult, hok⟩ | ⟨_, _, _, _, herror⟩ | ⟨_, _, herror⟩
    · rw [h] at hok
      cases hok
      exact ⟨response, ha, hfailure, hresult⟩
    · rw [h] at herror
      cases herror
    · rw [h] at herror
      cases herror
  · rintro ⟨response, ha, hfailure, hresult⟩
    rcases awaitResponse_cases crates requestId incoming with
      ⟨response', result', ha', _, hresult', hok⟩ | ⟨response', _, ha', hfailure', _⟩ |
      ⟨hnone, _⟩
    · obtain rfl := ha.unique ha'
      rw [hresult] at hresult'
      cases hresult'
      exact hok
    · obtain rfl := ha.unique ha'
      rw [hfailure] at hfailure'
      cases hfailure'
    · rw [(hnone response ha).2] at hresult
      cases hresult

/-- The loop reports an RPC error exactly when the answer is one. -/
theorem awaitResponse_rpc {failure : RpcFailure} :
    awaitResponse crates requestId incoming = .error (.rpc failure) ↔
      ∃ response, Answers crates requestId response incoming ∧
        RpcFailure.fromValue response = some failure := by
  constructor
  · intro h
    rcases awaitResponse_cases crates requestId incoming with ⟨_, _, _, _, _, hok⟩ |
      ⟨response, failure', ha, hfailure, herror⟩ | ⟨_, _, herror⟩
    · rw [h] at hok
      cases hok
    · rw [h] at herror
      cases herror
      exact ⟨response, ha, hfailure⟩
    · rw [h] at herror
      cases herror
  · rintro ⟨response, ha, hfailure⟩
    rcases awaitResponse_cases crates requestId incoming with
      ⟨response', _, ha', hnone, _⟩ | ⟨response', failure', ha', hfailure', herror⟩ | ⟨hnone, _⟩
    · obtain rfl := ha.unique ha'
      rw [hfailure] at hnone
      cases hnone
    · obtain rfl := ha.unique ha'
      rw [hfailure] at hfailure'
      cases hfailure'
      exact herror
    · rw [(hnone response ha).1] at hfailure
      cases hfailure

end answers

end Session

end CodexMonitor
