import CodexMonitor.Lib.Dict
import CodexMonitor.Lib.Tasks
import CodexMonitor.OwnerHealth.Health

/-!
# Probing an owner

A probe asks the owner whether its account is signed in, which conversations it has
loaded, and how one of them is.  It is a program: what the owner, the clock and the
cache answer is decided while it runs.
-/

namespace CodexMonitor.OwnerHealth

open Dashboard (field isTrue isText strOr itemsOf textSet)
open Session (SessionError)
open Tasks

/-- A span of time, in nanoseconds. -/
abbrev Nanos := Nat

def probeTimeout : Nanos := 450 * 10 ^ 6
def probeBudget : Nanos := 3 * 10 ^ 9
def cacheTtl : Nanos := 2 * 10 ^ 9
def cacheSize : Nat := 64
def maxPages : Nat := 8
def maxThreadIds : Nat := 4096

structure EndpointCache where
  expiresAt : Nanos
  base : Health
  loaded : Option (List String)
  threads : Dict String Health

/-- What a task asks: the time, the cache, or a method of an owner, which must answer in time. -/
inductive Question
  | now
  | lookup (endpoint : String)
  | insert (endpoint : String) (entry : EndpointCache)
  | call (endpoint method : String) (params : Value) (remaining : Nanos)

/-- An owner that does not answer in time answers nothing. -/
def Answer : Question → Type
  | .now => Nanos
  | .lookup _ => Option EndpointCache
  | .insert _ _ => Unit
  | .call _ _ _ _ => Option (Except SessionError Value)

abbrev Probe := Prog Question Answer

/-- A question with its answer. -/
abbrev Asked := Tasks.Event Answer

def now : Probe Nanos := .ask .now .done

def lookup (endpoint : String) : Probe (Option EndpointCache) := .ask (.lookup endpoint) .done

def insert (endpoint : String) (entry : EndpointCache) : Probe Unit :=
  .ask (.insert endpoint entry) .done

/-! ## One request -/

/-- What an answer comes to. -/
def outcome : Option (Except SessionError Value) → Except Failure Value
  | some (.ok value) => .ok value
  | some (.error error) => .error (classifyError error)
  | none => .error .unavailable

def call (endpoint method : String) (params : Value) (deadline : Nanos) :
    Probe (Except Failure Value) := do
  let time ← now
  let remaining := min (deadline - time) probeTimeout
  if remaining = 0 then pure (.error .unavailable)
  else .ask (.call endpoint method params remaining) fun answer => pure (outcome answer)

/-! ## The loaded conversations -/

/-- The id that a row of the list gives. -/
def rowId (row : Value) : Option String := row.asStr.or (row.getStr "id")

def cursorParams : Option String → Value
  | none => .object []
  | some cursor => .object [("cursor", .string cursor)]

/-- What a page leaves to be done. -/
inductive Page
  | failed
  | last (rows : List String)
  | more (rows seen : List String) (cursor : String)

/-- Read a page, after the ids and the cursors of the earlier ones. -/
def readPage (rows seen : List String) (value : Value) : Page :=
  match (value.get "data").bind Value.asArray with
  | none => .failed
  | some data =>
      let rows := textSet (rows ++ data.filterMap rowId)
      if maxThreadIds < rows.length then .failed
      else if (value.get "nextCursor").all isNull then .last rows
      else
        match (value.get "nextCursor").bind Value.asStr with
        | none => .failed
        | some next => if next ∈ seen then .failed else .more rows (next :: seen) next

/-- The pages from a cursor on; the source makes eight requests at most. -/
def pagesFrom (endpoint : String) (deadline : Nanos) :
    Nat → List String → List String → Option String → Probe (Except Failure (List String))
  | 0, _, _, _ => pure (.error .unavailable)
  | pages + 1, rows, seen, cursor => do
      match ← call endpoint "thread/loaded/list" (cursorParams cursor) deadline with
      | .error failure => pure (.error failure)
      | .ok value =>
          match readPage rows seen value with
          | .failed => pure (.error .unavailable)
          | .last rows => pure (.ok rows)
          | .more rows seen next => pagesFrom endpoint deadline pages rows seen (some next)

def loadedPages (endpoint : String) (deadline : Nanos) : Probe (Except Failure (List String)) :=
  pagesFrom endpoint deadline maxPages [] [] none

/-! ## The owner -/

/-- What a probe of an owner finds: what there is to say, and the loaded conversations. -/
abbrev Found := Health × Option (List String)

/-- The loaded conversations, when the account may be used. -/
def probeLoaded (endpoint : String) (deadline : Nanos) (base : Health) (account : Account) :
    Probe Found := do
  let base := { base with account }
  if account.status = "auth-required" then
    pure (terminal base "" "auth-required" "authentication required", none)
  else do
    match ← loadedPages endpoint deadline with
    | .ok loaded => pure ({ base with transportReachable := true }, some loaded)
    | .error .auth => pure (terminal base "" "auth-required" "authentication required", none)
    | .error _ => pure ({ base with reason := "loaded conversations could not be read" }, none)

def accountParams : Value := .object [("refreshToken", .bool false)]

def probeEndpoint (tools : Tools) (endpoint : String) (deadline : Nanos) : Probe Found := do
  let base := base tools endpoint "" "owner unavailable"
  match ← call endpoint "account/read" accountParams deadline with
  | .ok value =>
      probeLoaded endpoint deadline { base with transportReachable := true }
        (accountObservation value)
  | .error .auth =>
      pure (terminal { base with transportReachable := true, account := accountAuthRequired } ""
        "auth-required" "authentication required", none)
  | .error .unsupported =>
      probeLoaded endpoint deadline { base with transportReachable := true } ⟨"unsupported", none⟩
  | .error .unavailable => pure (terminal base "" "unavailable" "owner unavailable", none)

/-! ## A conversation -/

def readParams (thread : String) : Value :=
  .object [("threadId", .string thread), ("includeTurns", .bool false)]

def turnsParams (thread : String) : Value :=
  .object [("threadId", .string thread), ("limit", .number (.posInt 1)),
    ("sortDirection", .string "desc"), ("itemsView", .string "notLoaded")]

/-- Rate limits are there. -/
def hasLimits (limits : Value) : Bool :=
  (field limits "rateLimits").asObject.isSome || (field limits "rateLimitsByLimitId").asObject.isSome

/-- After the check of the account that the last turn's login error calls for. -/
def withCurrentAuth (result : Health) (limits : Except Failure Value) : Health :=
  match limits with
  | .ok limits =>
      if hasLimits limits then
        { result with
          currentAuth := some "verified"
          status := "previous-execution-error"
          state := "previous-execution-error"
          reason := "Current server login access is verified. The previous turn failed; no input " ++
            "has been replayed." }
      else unverified
  | .error .auth =>
      { result with
        currentAuth := some "auth-required"
        status := "auth-required"
        state := "auth-required"
        reason := "Current server account access failed. Sign in using the owner service's Codex " ++
          "home, then confirm Reconnect to reload that login." }
  | .error _ => unverified
where
  unverified : Health :=
    { result with
      currentAuth := some "unverified"
      reason := "The previous turn reported a login error. Current account access could not be " ++
        "verified." }

/-- What the list of turns tells of the error. -/
def errorOf (tools : Tools) : Except Failure Value → ExecutionError
  | .ok page => latestError tools page
  | .error .unsupported => .unsupported
  | .error _ => .unavailable

def withError (result : Health) (error : ExecutionError) : Health :=
  { result with
    status := "execution-error"
    state := "execution-error"
    ready := false
    reason := "Conversation reports an execution error"
    executionError := some error }

/-- A conversation that reports a system error. -/
def probeError (tools : Tools) (endpoint thread : String) (result : Health) (deadline : Nanos) :
    Probe Health := do
  let page ← call endpoint "thread/turns/list" (turnsParams thread) deadline
  let result := withError result (errorOf tools page)
  match errorOf tools page with
  | .observed true _ => do
      -- a failed turn survives a reconnection, so the account is checked by itself
      let limits ← call endpoint "account/rateLimits/read" (.object []) deadline
      pure (withCurrentAuth result limits)
  | _ => pure result

/-- A conversation that reports no error. -/
def attended (result : Health) (value : Value) : Health :=
  if (applyAttention result value).1 then (applyAttention result value).2
  else if (attentionOf value).status ≠ "none" then
    { (applyAttention result value).2 with
      reason := "Owner reachable, but pending approvals and user input cannot be verified. Open " ++
        "in Codex to inspect." }
  else
    { (applyAttention result value).2 with
      status := "ready-to-receive"
      state := "ready-to-receive"
      ready := true
      reason := "owner transport reachable and conversation loaded" }

def probeThread (tools : Tools) (endpoint thread : String) (base : Health) (loaded : List String)
    (deadline : Nanos) : Probe Health := do
  match ← call endpoint "thread/read" (readParams thread) deadline with
  | .ok value =>
      let result := { withThread base thread with
        loadedThreads := some loaded
        threadLoaded := some true
        threadRead := some ((statusValue value).getD "observed") }
      if statusValue value = some "systemError" then
        probeError tools endpoint thread result deadline
      else pure (attended result value)
  | .error .unsupported =>
      pure { withThread base thread with
        loadedThreads := some loaded
        threadLoaded := some true
        threadRead := some "unsupported"
        reason := "Owner reachable, but thread status is unsupported. Open in Codex to inspect " ++
          "pending decisions." }
  | .error .auth =>
      pure (threadFailure base thread loaded "auth-required" "authentication required")
  | .error .unavailable =>
      pure (threadFailure base thread loaded "unavailable" "thread status unavailable")

/-- What is said of a conversation, once its owner has been probed. -/
def probeConversation (tools : Tools) (endpoint thread : String) (found : Found)
    (deadline : Nanos) : Probe Health :=
  match found.2 with
  | none => pure (withThread found.1 thread)
  | some loaded =>
      if thread ∉ loaded then pure (unloaded found.1 thread loaded)
      else probeThread tools endpoint thread found.1 loaded deadline

end CodexMonitor.OwnerHealth
