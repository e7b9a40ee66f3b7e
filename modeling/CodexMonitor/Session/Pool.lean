import CodexMonitor.Canonical
import CodexMonitor.Session.Connection

/-!
# Delivering to a conversation, and looking for what was delivered

`deliver` checks its target and then queues one submission; `inspect` reads the
queue and the history page by page for a client id.  The submission that a
delivery returns is the one the server's answer names (`deliver_ok`), and the
evidence that an inspection returns stands on a page of the server's (`inspect_found`).
-/

namespace CodexMonitor

namespace Session

def maxReconcilePages : Nat := 100

/-! ## The target -/

/-- A thread id with something to read in it. -/
def isThreadId (thread : String) : Bool :=
  ¬ thread.toList.all isWhitespace ∧ Char.ofNat 0 ∉ thread.toList

/-- A probe that fails is an unavailable target unless the server rejects it for good. -/
def probeError (text : String) : SessionError → SessionError
  | .permanent message => .permanent message
  | error => .unavailable (text ++ ": " ++ error.message)

/-- Query a target without changing its ownership. -/
def checkTarget (crates : Crates) (endpoint thread : String) (probe : Attempt) :
    Except SessionError Value :=
  if isThreadId thread = false then .error (.permanent "thread ID must be nonempty")
  else if endpoint = "shared-local" then
    (call crates endpoint "thread/queue/list"
      (.object [("limit", .number (.ofI64 1)), ("threadId", .string thread)]) probe).mapError
        (probeError "cannot verify the shared local queue")
  else do
    let value ← (call crates endpoint "thread/loaded/list" (.object []) probe).mapError
      (probeError "cannot verify that the interactive thread is loaded")
    let loaded ← okOr (.unavailable "loaded-thread validation returned invalid data")
      ((value.get "data").bind Value.asArray)
    if loaded.any fun value => value.asStr = some thread then .ok value
    else
      .error (.unavailable
        "open this exact thread in the client attached to the same App Server")

/-! ## Delivery -/

def addParams (thread clientId text : String) : Value :=
  .object
    [("clientUserMessageId", .string clientId),
      ("input", .array [.object [("text", .string text), ("type", .string "text")]]),
      ("threadId", .string thread)]

/-- The submission that the answer to an add names. -/
def submissionId? (value : Value) : Option String :=
  (value.get "queuedSubmission").bind fun submission => submission.getStr "id"

/-- Queue one submission and return the server's id of it. -/
def deliver (crates : Crates) (endpoint thread clientId text : String) (probe add : Attempt) :
    Except SessionError String := do
  let _ ← checkTarget crates endpoint thread probe
  let value ← call crates endpoint "thread/queue/add" (addParams thread clientId text) add
  okOr (.uncertain "queue submission response was malformed; acceptance unknown")
    (submissionId? value)

/-- The add of a delivery is handed to the transport: the target is there and the write of the
add's frame has begun. -/
def HandsOver (crates : Crates) (endpoint thread clientId text : String) (probe add : Attempt) :
    Prop :=
  (checkTarget crates endpoint thread probe).isOk = true ∧
    Started crates endpoint "thread/queue/add" (addParams thread clientId text) add

instance (crates : Crates) (endpoint thread clientId text : String) (probe add : Attempt) :
    Decidable (HandsOver crates endpoint thread clientId text probe add) :=
  inferInstanceAs (Decidable (_ ∧ _))

/-- The server answers a delivery with the name of a submission. -/
def NamesSubmission (crates : Crates) (endpoint thread clientId text : String)
    (probe add : Attempt) (id : String) : Prop :=
  (checkTarget crates endpoint thread probe).isOk = true ∧
    ∃ result,
      Answered crates endpoint "thread/queue/add" (addParams thread clientId text) add result ∧
        submissionId? result = some id

theorem isOk_iff {ε α : Type} {x : Except ε α} : x.isOk = true ↔ ∃ a, x = .ok a := by
  cases x <;> simp [Except.isOk, Except.toBool]

/-! The bytes of the frame of an add. -/

theorem addParams_bytes (crates : Crates) (thread clientId text : String) :
    encodedBytes crates (addParams thread clientId text) =
      70 + (stringText clientId).utf8ByteSize + (stringText text).utf8ByteSize +
        (stringText thread).utf8ByteSize := by
  have hkeys : (stringText "clientUserMessageId").utf8ByteSize = 21 ∧
      (stringText "input").utf8ByteSize = 7 ∧ (stringText "threadId").utf8ByteSize = 10 ∧
      (stringText "text").utf8ByteSize = 6 ∧ (stringText "type").utf8ByteSize = 6 := by decide
  obtain ⟨hclient, hinput, hthread, htext, htype⟩ := hkeys
  have hbracket : "[".utf8ByteSize = 1 ∧ "]".utf8ByteSize = 1 := by decide
  have hitem : (canonicalJson crates (.object [("text", .string text),
      ("type", .string "text")])).utf8ByteSize = 23 + (stringText text).utf8ByteSize := by
    rw [object_bytes crates (by simp)]
    simp only [List.map_cons, List.map_nil, List.sum_cons, List.sum_nil, fieldBytes, canonicalJson,
      htext, htype]
    omega
  have hitems : (canonicalJson crates (.array [.object [("text", .string text),
      ("type", .string "text")]])).utf8ByteSize = 25 + (stringText text).utf8ByteSize := by
    rw [canonicalJson, canonicalItems, canonicalItems, String.intercalate_singleton, append_bytes,
      hitem, hbracket.1, hbracket.2]
    omega
  rw [encodedBytes, addParams, object_bytes crates (by simp)]
  simp only [List.map_cons, List.map_nil, List.sum_cons, List.sum_nil, fieldBytes, hclient, hinput,
    hthread, hitems]
  simp only [canonicalJson]
  omega

theorem requestFrame_bytes (crates : Crates) (requestId : Nat) (method : String) (params : Value) :
    encodedBytes crates (requestFrame requestId method params) =
      27 + ((Number.ofI64 requestId).text crates).utf8ByteSize + (stringText method).utf8ByteSize +
        encodedBytes crates params := by
  have hkeys : (stringText "id").utf8ByteSize = 4 ∧ (stringText "method").utf8ByteSize = 8 ∧
      (stringText "params").utf8ByteSize = 8 := by decide
  obtain ⟨hid, hmethod, hparams⟩ := hkeys
  rw [encodedBytes, requestFrame, object_bytes crates (by simp)]
  simp only [List.map_cons, List.map_nil, List.sum_cons, List.sum_nil, fieldBytes, hid, hmethod,
    hparams, encodedBytes]
  simp only [canonicalJson]
  omega

section deliver

variable {crates : Crates} {endpoint thread clientId text : String} {probe add : Attempt}

/-- Of its text, the start of an add depends on the size only. -/
theorem Started.with_text
    (h : Started crates endpoint "thread/queue/add" (addParams thread clientId text) add)
    {other : String}
    (hsmall : encodedBytes crates (requestFrame add.exchange.requestId "thread/queue/add"
      (addParams thread clientId other)) ≤ maxRequestBytes) :
    Started crates endpoint "thread/queue/add" (addParams thread clientId other) add := by
  refine ⟨h.named, h.allowed, ?_, h.connected, h.attached, Nat.not_lt.mpr hsmall⟩
  rw [requestFrame_bytes] at hsmall
  omega

/-- A delivery returns the submission that the server's answer names. -/
theorem deliver_ok {id : String} :
    deliver crates endpoint thread clientId text probe add = .ok id ↔
      NamesSubmission crates endpoint thread clientId text probe add id := by
  unfold deliver NamesSubmission
  simp only [bind_ok, isOk_iff, call_ok, okOr_ok]
  constructor
  · rintro ⟨value, hprobe, result, hanswer, hid⟩
    exact ⟨⟨value, hprobe⟩, result, hanswer, hid⟩
  · rintro ⟨⟨value, hprobe⟩, result, hanswer, hid⟩
    exact ⟨value, hprobe, result, hanswer, hid⟩

/-- A delivery that handed its add over, and was not refused, returns a submission or leaves
acceptance unknown. -/
theorem deliver_handed (h : HandsOver crates endpoint thread clientId text probe add)
    (hrefused : ¬ add.exchange.Refused crates) :
    (∃ id, deliver crates endpoint thread clientId text probe add = .ok id) ∨
      ∃ message,
        deliver crates endpoint thread clientId text probe add = .error (.uncertain message) := by
  obtain ⟨hprobe, hstarted⟩ := h
  obtain ⟨target, htarget⟩ := isOk_iff.mp hprobe
  unfold deliver
  rw [htarget]
  rcases call_started hstarted hrefused with ⟨value, hcall⟩ | ⟨message, hcall⟩
  · rw [hcall]
    cases hid : submissionId? value with
    | none => exact Or.inr ⟨_, congrArg (okOr _) hid⟩
    | some id => exact Or.inl ⟨id, congrArg (okOr _) hid⟩
  · rw [hcall]
    exact Or.inr ⟨message, rfl⟩

end deliver

/-! ## Inspection -/

/-- A message of a turn that carries the client id. -/
def itemId? (clientId : String) (item : Value) : Option String :=
  if item.getStr "type" = some "userMessage" ∧ item.getStr "clientId" = some clientId then
    some ((item.getStr "id").getD clientId)
  else none

/-- What a row of a page says of the client id. -/
def rowId? (clientId : String) (row : Value) : Option String :=
  let own := if row.getStr "clientUserMessageId" = some clientId then row.getStr "id" else none
  own.orElse fun _ =>
    (((row.get "items").bind Value.asArray).getD []).findSome? (itemId? clientId)

def pageParams (method thread : String) (cursor : Option String) : Value :=
  .object
    ((cursor.toList.map fun cursor => ("cursor", Value.string cursor)) ++
      (if method = "thread/turns/list" then [("itemsView", Value.string "full")] else []) ++
      [("limit", .number (.ofI64 100)), ("threadId", .string thread)])

/-- The cursor of the page after this one. -/
def nextCursor? (result : Value) : Option String :=
  (result.getStr "nextCursor").filter fun cursor => cursor ≠ ""

/-- What follows the pages of one method. -/
def scanEnd (cursor : Option String) (seen : List String) : Except SessionError (Option String) :=
  if cursor.isSome = true ∧ maxReconcilePages ≤ seen.length then
    .error (.uncertain "delivery reconciliation scan limit reached; acceptance unknown")
  else .ok none

/-- The pages of one method, at most `fuel` of them; the call for page `i` is `pages i`. -/
def scanPages (crates : Crates) (endpoint thread clientId method : String) (pages : Nat → Attempt) :
    Nat → Nat → Option String → List String → Except SessionError (Option String)
  | 0, _, cursor, seen => scanEnd cursor seen
  | fuel + 1, i, cursor, seen => do
      let result ← call crates endpoint method (pageParams method thread cursor) (pages i)
      let rows ← okOr
        (.uncertain "delivery reconciliation returned invalid data; acceptance unknown")
        ((result.get "data").bind Value.asArray)
      match rows.findSome? (rowId? clientId), nextCursor? result with
      | some id, _ => .ok (some id)
      | none, none => scanEnd cursor seen
      | none, some next =>
          if next ∈ seen then
            .error (.retryable "delivery reconciliation returned a repeated pagination cursor")
          else
            scanPages crates endpoint thread clientId method pages fuel (i + 1)
              (some next) (next :: seen)

def evidence (state id : String) : Value :=
  .object [("state", .string state), ("submission_id", .string id)]

def noEvidence : Value :=
  .object
    [("reason", .string
      "client message ID was not found in the current queue or bounded history scan"),
      ("state", .string "unknown")]

/-- Inspect the queue and the history without changing the target. -/
def inspect (crates : Crates) (endpoint thread clientId : String) (probe : Attempt)
    (queue turns : Nat → Attempt) : Except SessionError Value := do
  let _ ← checkTarget crates endpoint thread probe
  let queued ← scanPages crates endpoint thread clientId "thread/queue/list" queue
    maxReconcilePages 0 none []
  match queued with
  | some id => .ok (evidence "queued" id)
  | none => do
      let consumed ← scanPages crates endpoint thread clientId "thread/turns/list" turns
        maxReconcilePages 0 none []
      match consumed with
      | some id => .ok (evidence "consumed" id)
      | none => .ok noEvidence

/-! ## What the pages say -/

/-- The server answers the request for a page with rows and a cursor. -/
def Shows (crates : Crates) (endpoint thread method : String) (cursor : Option String)
    (page : Attempt) (rows : List Value) (next : Option String) : Prop :=
  ∃ result, Answered crates endpoint method (pageParams method thread cursor) page result ∧
    (result.get "data").bind Value.asArray = some rows ∧ nextCursor? result = next

/-- Of the pages from the `i`-th on, one names `id`, and those before it name nothing and are
chained by fresh cursors. -/
inductive PagesName (crates : Crates) (endpoint thread clientId method : String)
    (pages : Nat → Attempt) (id : String) : Nat → Nat → Option String → List String → Prop
  | here {fuel i : Nat} {cursor next : Option String} {seen : List String} {rows : List Value}
      (hpage : Shows crates endpoint thread method cursor (pages i) rows next)
      (hrow : rows.findSome? (rowId? clientId) = some id) :
      PagesName crates endpoint thread clientId method pages id (fuel + 1) i cursor seen
  | later {fuel i : Nat} {cursor : Option String} {next : String} {seen : List String}
      {rows : List Value}
      (hpage : Shows crates endpoint thread method cursor (pages i) rows (some next))
      (hrow : rows.findSome? (rowId? clientId) = none) (hfresh : next ∉ seen)
      (hrest : PagesName crates endpoint thread clientId method pages id fuel (i + 1)
        (some next) (next :: seen)) :
      PagesName crates endpoint thread clientId method pages id (fuel + 1) i cursor seen

/-- The pages from the `i`-th on name nothing and end within the limit. -/
inductive PagesEnd (crates : Crates) (endpoint thread clientId method : String)
    (pages : Nat → Attempt) : Nat → Nat → Option String → List String → Prop
  | last {fuel i : Nat} {cursor : Option String} {seen : List String} {rows : List Value}
      (hpage : Shows crates endpoint thread method cursor (pages i) rows none)
      (hrow : rows.findSome? (rowId? clientId) = none) :
      PagesEnd crates endpoint thread clientId method pages (fuel + 1) i cursor seen
  | later {fuel i : Nat} {cursor : Option String} {next : String} {seen : List String}
      {rows : List Value}
      (hpage : Shows crates endpoint thread method cursor (pages i) rows (some next))
      (hrow : rows.findSome? (rowId? clientId) = none) (hfresh : next ∉ seen)
      (hrest : PagesEnd crates endpoint thread clientId method pages fuel (i + 1)
        (some next) (next :: seen)) :
      PagesEnd crates endpoint thread clientId method pages (fuel + 1) i cursor seen

section scan

variable {crates : Crates} {endpoint thread clientId method : String} {pages : Nat → Attempt}

theorem scanEnd_ne_some {cursor : Option String} {seen : List String} {id : String} :
    scanEnd cursor seen ≠ .ok (some id) := by
  unfold scanEnd
  split <;> simp

/-- One page: the request is answered with rows, which name an id, or end the scan, or lead to a
page with a fresh cursor. -/
theorem scanPages_succ {fuel i : Nat} {cursor : Option String} {seen : List String}
    {found : Option String} :
    scanPages crates endpoint thread clientId method pages (fuel + 1) i cursor seen = .ok found ↔
      ∃ rows next, Shows crates endpoint thread method cursor (pages i) rows next ∧
        ((∃ id, rows.findSome? (rowId? clientId) = some id ∧ found = some id) ∨
          rows.findSome? (rowId? clientId) = none ∧
            ((next = none ∧ scanEnd cursor seen = .ok found) ∨
              ∃ cursor', next = some cursor' ∧ cursor' ∉ seen ∧
                scanPages crates endpoint thread clientId method pages fuel (i + 1)
                  (some cursor') (cursor' :: seen) = .ok found)) := by
  simp only [scanPages, bind_ok, call_ok, okOr_ok, Shows]
  constructor
  · rintro ⟨result, hanswer, rows, hrows, h⟩
    refine ⟨rows, nextCursor? result, ⟨result, hanswer, hrows, rfl⟩, ?_⟩
    cases hrow : rows.findSome? (rowId? clientId) with
    | some id =>
        rw [hrow] at h
        exact Or.inl ⟨id, rfl, (Except.ok.inj h).symm⟩
    | none =>
        cases hnext : nextCursor? result with
        | none =>
            rw [hrow, hnext] at h
            exact Or.inr ⟨rfl, Or.inl ⟨rfl, h⟩⟩
        | some cursor' =>
            rw [hrow, hnext] at h
            by_cases hold : cursor' ∈ seen
            · simp [hold] at h
            · exact Or.inr ⟨rfl, Or.inr ⟨cursor', rfl, hold, (if_neg hold).symm.trans h⟩⟩
  · rintro ⟨rows, _, ⟨result, hanswer, hrows, rfl⟩, h⟩
    refine ⟨result, hanswer, rows, hrows, ?_⟩
    rcases h with ⟨id, hrow, rfl⟩ | ⟨hrow, ⟨hnext, h⟩ | ⟨cursor', hnext, hfresh, h⟩⟩
    · rw [hrow]
    · rw [hrow, hnext]
      exact h
    · rw [hrow, hnext]
      exact (if_neg hfresh).trans h

/-- A scan finds what a page names. -/
theorem scanPages_some {fuel i : Nat} {cursor : Option String} {seen : List String} {id : String} :
    scanPages crates endpoint thread clientId method pages fuel i cursor seen = .ok (some id) ↔
      PagesName crates endpoint thread clientId method pages id fuel i cursor seen := by
  constructor
  · intro h
    induction fuel generalizing i cursor seen with
    | zero => exact absurd h scanEnd_ne_some
    | succ fuel ih =>
        obtain ⟨rows, next, hpage, ⟨id', hrow, hid⟩ | ⟨hrow, ⟨_, hend⟩ |
          ⟨cursor', rfl, hfresh, hrest⟩⟩⟩ := scanPages_succ.mp h
        · cases hid
          exact .here hpage hrow
        · exact absurd hend scanEnd_ne_some
        · exact .later hpage hrow hfresh (ih hrest)
  · intro h
    induction h with
    | here hpage hrow => exact scanPages_succ.mpr ⟨_, _, hpage, Or.inl ⟨_, hrow, rfl⟩⟩
    | later hpage hrow hfresh _ ih =>
        exact scanPages_succ.mpr ⟨_, _, hpage, Or.inr ⟨hrow, Or.inr ⟨_, rfl, hfresh, ih⟩⟩⟩

/-- A scan that finds nothing has read the pages to their end: the limit ends it with an error. -/
theorem scanPages_none {fuel i : Nat} {cursor : Option String} {seen : List String}
    (hseen : fuel + seen.length = maxReconcilePages) (hcursor : seen ≠ [] → cursor.isSome = true) :
    scanPages crates endpoint thread clientId method pages fuel i cursor seen = .ok none ↔
      PagesEnd crates endpoint thread clientId method pages fuel i cursor seen := by
  constructor
  · intro h
    induction fuel generalizing i cursor seen with
    | zero =>
        have hne : seen ≠ [] := by
          rintro rfl
          cases hseen
        rw [scanPages, scanEnd, if_pos ⟨hcursor hne, by omega⟩] at h
        cases h
    | succ fuel ih =>
        obtain ⟨rows, next, hpage, ⟨id', _, hid⟩ | ⟨hrow, ⟨rfl, _⟩ |
          ⟨cursor', rfl, hfresh, hrest⟩⟩⟩ := scanPages_succ.mp h
        · cases hid
        · exact .last hpage hrow
        · refine .later hpage hrow hfresh (ih ?_ (fun _ => rfl) hrest)
          rw [List.length_cons]
          omega
  · intro h
    induction h with
    | last hpage hrow =>
        refine scanPages_succ.mpr ⟨_, _, hpage, Or.inr ⟨hrow, Or.inl ⟨rfl, ?_⟩⟩⟩
        rw [scanEnd, if_neg (fun hlimit => by omega)]
    | later hpage hrow hfresh _ ih =>
        refine scanPages_succ.mpr ⟨_, _, hpage, Or.inr ⟨hrow, Or.inr ⟨_, rfl, hfresh, ih ?_ ?_⟩⟩⟩
        · rw [List.length_cons]
          omega
        · exact fun _ => rfl

end scan

/-- The server's pages name a submission of the client id: in the queue, or, when that has
nothing, in the history. -/
def NamesEvidence (crates : Crates) (endpoint thread clientId : String) (probe : Attempt)
    (queue turns : Nat → Attempt) (id : String) : Prop :=
  (checkTarget crates endpoint thread probe).isOk = true ∧
    (PagesName crates endpoint thread clientId "thread/queue/list" queue id
        maxReconcilePages 0 none [] ∨
      PagesEnd crates endpoint thread clientId "thread/queue/list" queue
          maxReconcilePages 0 none [] ∧
        PagesName crates endpoint thread clientId "thread/turns/list" turns id
          maxReconcilePages 0 none [])

theorem NamesEvidence.unique {crates : Crates} {endpoint thread clientId : String}
    {probe : Attempt} {queue turns : Nat → Attempt} {a b : String}
    (ha : NamesEvidence crates endpoint thread clientId probe queue turns a)
    (hb : NamesEvidence crates endpoint thread clientId probe queue turns b) : a = b := by
  have hscan : ∀ {method : String} {pages : Nat → Attempt} {x y : String},
      PagesName crates endpoint thread clientId method pages x maxReconcilePages 0 none [] →
      PagesName crates endpoint thread clientId method pages y maxReconcilePages 0 none [] →
      x = y := by
    intro method pages x y hx hy
    have hsame := (scanPages_some.mpr hx).symm.trans (scanPages_some.mpr hy)
    exact Option.some.inj (Except.ok.inj hsame)
  have hnone : ∀ {x : String},
      PagesName crates endpoint thread clientId "thread/queue/list" queue x
        maxReconcilePages 0 none [] →
      ¬ PagesEnd crates endpoint thread clientId "thread/queue/list" queue
        maxReconcilePages 0 none [] := by
    intro x hx hend
    have hsame := (scanPages_some.mpr hx).symm.trans
      ((scanPages_none rfl (fun h => absurd rfl h)).mpr hend)
    cases hsame
  obtain ⟨_, ha | ⟨haend, ha⟩⟩ := ha <;> obtain ⟨_, hb | ⟨hbend, hb⟩⟩ := hb
  · exact hscan ha hb
  · exact absurd hbend (hnone ha)
  · exact absurd haend (hnone hb)
  · exact hscan ha hb

section inspect

variable {crates : Crates} {endpoint thread clientId : String} {probe : Attempt}
  {queue turns : Nat → Attempt}

/-- What an inspection can return. -/
theorem inspect_cases (crates : Crates) (endpoint thread clientId : String) (probe : Attempt)
    (queue turns : Nat → Attempt) :
    (∃ id state, (state = "queued" ∨ state = "consumed") ∧
        inspect crates endpoint thread clientId probe queue turns = .ok (evidence state id) ∧
        NamesEvidence crates endpoint thread clientId probe queue turns id) ∨
      (inspect crates endpoint thread clientId probe queue turns = .ok noEvidence ∨
          ∃ error, inspect crates endpoint thread clientId probe queue turns = .error error) ∧
        ∀ id, ¬ NamesEvidence crates endpoint thread clientId probe queue turns id := by
  have hempty : maxReconcilePages + ([] : List String).length = maxReconcilePages := rfl
  have hcursor : ([] : List String) ≠ [] → (none : Option String).isSome = true :=
    fun h => absurd rfl h
  unfold inspect
  cases hprobe : checkTarget crates endpoint thread probe with
  | error error =>
      refine Or.inr ⟨Or.inr ⟨error, rfl⟩, ?_⟩
      rintro id ⟨hok, _⟩
      rw [hprobe] at hok
      cases hok
  | ok target =>
      have hok : (checkTarget crates endpoint thread probe).isOk = true := by rw [hprobe]; rfl
      cases hqueue : scanPages crates endpoint thread clientId "thread/queue/list" queue
          maxReconcilePages 0 none [] with
      | error error =>
          refine Or.inr ⟨Or.inr ⟨error, rfl⟩, ?_⟩
          rintro id ⟨_, hname | ⟨hend, _⟩⟩
          · rw [scanPages_some.mpr hname] at hqueue
            cases hqueue
          · rw [(scanPages_none hempty hcursor).mpr hend] at hqueue
            cases hqueue
      | ok found =>
          cases found with
          | some id =>
              exact Or.inl ⟨id, "queued", Or.inl rfl, rfl,
                hok, Or.inl (scanPages_some.mp hqueue)⟩
          | none =>
              have hend := (scanPages_none hempty hcursor).mp hqueue
              cases hturns : scanPages crates endpoint thread clientId "thread/turns/list" turns
                  maxReconcilePages 0 none [] with
              | error error =>
                  refine Or.inr ⟨Or.inr ⟨error, rfl⟩, ?_⟩
                  rintro id ⟨_, hname | ⟨_, hname⟩⟩
                  · rw [scanPages_some.mpr hname] at hqueue
                    cases hqueue
                  · rw [scanPages_some.mpr hname] at hturns
                    cases hturns
              | ok found =>
                  cases found with
                  | some id =>
                      exact Or.inl ⟨id, "consumed", Or.inr rfl,
                        rfl, hok,
                        Or.inr ⟨hend, scanPages_some.mp hturns⟩⟩
                  | none =>
                      refine Or.inr ⟨Or.inl rfl, ?_⟩
                      rintro id ⟨_, hname | ⟨_, hname⟩⟩
                      · rw [scanPages_some.mpr hname] at hqueue
                        cases hqueue
                      · rw [scanPages_some.mpr hname] at hturns
                        cases hturns

end inspect

end Session

end CodexMonitor
