import CodexMonitor.Store.Schema

/-!
# Event intake

`ingest` checks an envelope, authorises its source on the route, recognises a
retry of the same event and otherwise stores a new one within the queue, rate
and trace limits.  `commitSample` is the managed watch's intake: it runs the
same body inside the transaction that moves the watch's checkpoint.
-/

namespace CodexMonitor

open Transaction

/-! ## Envelopes -/

def envelopeFields : List String := ["id", "source", "type", "data", "trace_id", "hops"]

def requiredFields : List String := ["id", "source", "type", "data"]

/-- An envelope's `trace_id`, when it has one, is an identifier. -/
def validateTraceId : Option Value → StoreM Unit
  | none => pure ()
  | some value => do
      let traceId ← Tx.expect (.bail "trace_id must be an identifier") value.asStr
      validateIdentifier traceId "trace_id"

/-- An envelope's `hops`, zero by default. -/
def hopsOf : Option Value → Option Int
  | none => some 0
  | some value => value.asI64

/-- Check an envelope; the result is its source, its id and its canonical text. -/
def validateEnvelope (crates : Crates) (envelope : Value) : StoreM (String × String × String) := do
  let fields ← Tx.expect (.bail "event must be an object") envelope.asObject
  let unknown := (fields.map Prod.fst).find? fun key => key ∉ envelopeFields
  bailIf (unknown ≠ none) ("unknown event field " ++ unknown.getD "")
  let missing := requiredFields.find? fun key => (envelope.get key).isNone
  bailIf (missing ≠ none) ("event requires " ++ missing.getD "")
  let id ← Tx.expect (.bail "event id must be an identifier") (envelope.getStr "id")
  let source ← Tx.expect (.bail "event source must be an identifier") (envelope.getStr "source")
  let eventType ← Tx.expect (.bail "event type must be an identifier") (envelope.getStr "type")
  validateIdentifier id "event id"
  validateIdentifier source "event source"
  validateIdentifier eventType "event type"
  validateTraceId (envelope.get "trace_id")
  let hops ← Tx.expect (.bail "hops must be an integer between 0 and 8")
    (hopsOf (envelope.get "hops"))
  bailIf (¬ (0 ≤ hops ∧ hops ≤ 8)) "hops must be an integer between 0 and 8"
  let encoded := canonicalJson crates envelope
  bailIf (maxEnvelopeBytes < encoded.utf8ByteSize) "event exceeds 32 KiB"
  pure (source, id, encoded)

theorem validateTraceId_readOnly (traceId : Option Value) :
    Tx.ReadOnly (validateTraceId traceId) := by
  cases traceId with
  | none => exact Tx.readOnly_pure _
  | some value => exact Tx.ReadOnly.bind (Tx.readOnly_expect _ _) fun _ => readOnly_bail _ _

/-- A validated envelope names its source and its id and is encoded canonically. -/
theorem validateEnvelope_ok {crates : Crates} {envelope : Value} {s t : Db}
    {source id encoded : String}
    (h : (validateEnvelope crates envelope).run s = (.ok (source, id, encoded), t)) :
    t = s ∧ envelope.getStr "source" = some source ∧ envelope.getStr "id" = some id ∧
      encoded = canonicalJson crates envelope ∧
      isIdentifier id = true ∧ isIdentifier source = true := by
  simp only [validateEnvelope, Tx.bind_ok, Tx.expect_ok, bailIf_run_ok, validateIdentifier_ok,
    Tx.pure_ok] at h
  obtain ⟨_, _, ⟨_, rfl⟩, _, _, ⟨_, rfl⟩, _, _, ⟨_, rfl⟩, _, _, ⟨hid, rfl⟩, _, _, ⟨hsource, rfl⟩,
    _, _, ⟨_, rfl⟩, _, _, ⟨hidOk, rfl⟩, _, _, ⟨hsourceOk, rfl⟩, _, _, ⟨_, rfl⟩, _, u, htrace,
    _, _, ⟨_, rfl⟩, _, _, ⟨_, rfl⟩, _, _, ⟨_, rfl⟩, heq, rfl⟩ := h
  obtain rfl := (validateTraceId_readOnly _).ok htrace
  simp only [Prod.mk.injEq] at heq
  obtain ⟨rfl, rfl, rfl⟩ := heq
  exact ⟨rfl, hsource, hid, rfl, hidOk, hsourceOk⟩

/-! ## Intake -/

/-- What intake and the outbox answer: the stored event and whether it was there before. -/
structure Receipt where
  deliveryId : String
  state : EventState
  duplicate : Bool
deriving DecidableEq, Repr

/-- The row of a new event, as both of its `INSERT` statements write it. -/
def newEvent (seq : Nat) (uuid : Uuid) (binding source eventId envelope : String)
    (state : EventState) (now : Rat) (attempts : Int) : Event where
  seq := seq
  id := uuid.text
  binding := binding
  source := source
  eventId := eventId
  envelope := envelope
  clientId := "codex-monitor:" ++ uuid.text
  state := state
  created := now
  updated := now
  attempts := attempts
  nextAt := 0
  submissionId := none
  error := none

/-- `INSERT INTO events`. -/
def Db.insertEvent? (db : Db) (e : Event) : Option Db :=
  (db.events.insert? e).map fun t => { db with events := t }

/-- The row number the next event gets. -/
def Db.nextEventSeq (db : Db) : Nat := db.events.nextSeq Event.seq

/-- `binding=? AND state IN ('pending','submitting','uncertain')`, counted. -/
def Db.openEvents (db : Db) (binding : String) : Nat :=
  db.events.count fun e => e.binding = binding ∧ e.state.isOpen = true

/-- `binding=? AND created>now-60`, counted. -/
def Db.recentEvents (db : Db) (binding : String) (now : Rat) : Nat :=
  db.events.count fun e => e.binding = binding ∧ now - 60 < e.created

/-- `json_extract(envelope,'$.trace_id')` in every row: an error as soon as the database cannot read
one of the envelopes. -/
def Db.traceIds (db : Db) (crates : Crates) : Option (List (Option String)) :=
  db.events.rows.mapM fun e => crates.extractTraceId e.envelope

/-- The events of a trace, if the database can read every envelope; without a trace nothing is
queried. -/
def Db.traceEvents (db : Db) (crates : Crates) (traceId : Option String) : Option Nat :=
  match traceId with
  | none => some 0
  | some id => (db.traceIds crates).map (List.count (some id))

/-- An acknowledgement is stored and never delivered. -/
def initialState (envelope : Value) : EventState :=
  if envelope.getStr "type" = some "agent.ack" then .ignored else .pending

/-- The event stored under a binding, a source and an event id. -/
def Db.eventAt (db : Db) (binding source eventId : String) : Option Event :=
  db.events.find? fun e => e.binding = binding ∧ e.source = source ∧ e.eventId = eventId

/-- The body of `ingest` once the source is known to be allowed and the event to be new. -/
def storeEvent (crates : Crates) (b : Binding) (envelope : Value)
    (source eventId encoded : String) (uuid : Uuid) (now : Rat) : StoreM Receipt := do
  bailIf (b.enabled = false ∨ b.removed = true) "binding is disabled"
  let pending ← Tx.query fun db => db.openEvents b.name
  bailIf (maxPending ≤ pending) "pending queue capacity reached"
  let recent ← Tx.query fun db => db.recentEvents b.name now
  bailIf (rateLimit ≤ recent) "binding event rate limit reached"
  let counted ← Tx.query fun db => db.traceEvents crates (envelope.getStr "trace_id")
  let trace ← Tx.expect (.sqlite "malformed JSON") counted
  bailIf (traceLimit ≤ trace) "trace conversation budget reached"
  let state := initialState envelope
  insertInto "UNIQUE constraint failed: events" fun db => db.insertEvent?
    (newEvent db.nextEventSeq uuid b.name source eventId encoded state now 0)
  pure ⟨uuid.text, state, false⟩

/-- Intake inside a transaction. -/
def ingestTx (crates : Crates) (binding : String) (envelope : Value) (uuid : Uuid) (now : Rat) :
    StoreM Receipt := do
  let (source, eventId, encoded) ← validateEnvelope crates envelope
  let row ← Tx.query fun db => db.bindings.find? fun b => b.name = binding
  let b ← Tx.expect (.bail "unknown binding") row
  bailIf (source ∉ b.sources) "source is not allowed for this binding"
  let existing ← Tx.query fun db => db.eventAt binding source eventId
  match existing with
  | some e => do
      bailIf (e.envelope ≠ encoded) "event ID already used for different content"
      pure ⟨e.id, e.state, true⟩
  | none => storeEvent crates b envelope source eventId encoded uuid now

/-- Store an event of an authorised source, once. -/
def ingest (crates : Crates) (binding : String) (envelope : Value) (uuid : Uuid) (now : Rat) :
    StoreM Receipt := do
  validateIdentifier binding "binding"
  withTx (ingestTx crates binding envelope uuid now)

/-! ## Managed samples -/

/-- `UPDATE managed_watches SET checkpoint=?,updated=? WHERE id=? AND epoch=?`. -/
def Db.setCheckpoint (db : Db) (id : String) (epoch : Int) (checkpoint : String) (now : Rat) : Db :=
  { db with
    managedWatches := db.managedWatches.update (fun w => w.id = id ∧ w.epoch = epoch) fun w =>
      { w with checkpoint := some checkpoint, updated := now } }

/-- The event of a sample, when it has one. -/
def ingestSample (crates : Crates) (binding : String) (event : Option Value) (uuid : Uuid)
    (now : Rat) : StoreM (Option Receipt) :=
  match event with
  | none => pure none
  | some value => do
      let receipt ← ingestTx crates binding value uuid now
      pure (some receipt)

/-- Move a watch's checkpoint and store the sample's event in one transaction.  The clock is
read twice: `now` by the intake, `stamp` for the checkpoint. -/
def commitSample (crates : Crates) (id : String) (epoch : Int) (checkpoint : Value)
    (event : Option Value) (uuid : Uuid) (now stamp : Rat) : StoreM (Option Receipt) := do
  validateIdentifier id "watch id"
  bailIf (epoch < 0) "watch epoch must be nonnegative"
  let checkpointJson := canonicalJson crates checkpoint
  bailIf (maxEnvelopeBytes < checkpointJson.utf8ByteSize) "checkpoint exceeds 32 KiB"
  withTx do
    let row ← Tx.query fun db => db.managedWatches.find? fun w => w.id = id
    let w ← Tx.expect (.bail "unknown managed watch") row
    bailIf (w.epoch ≠ epoch) "stale managed watch epoch"
    bailIf (w.enabled = false ∨ w.removed = true) "managed watch is disabled"
    let receipt ← ingestSample crates w.binding event uuid now
    Tx.write fun db => db.setCheckpoint id epoch checkpointJson stamp
    pure receipt

end CodexMonitor
