import CodexMonitor.Lib.Wal
import CodexMonitor.Store.Delivery
import CodexMonitor.Store.Intake

/-!
# The receiver's transactions, statement by statement

`with_tx` opens a deferred transaction, so what another process commits between two of its
statements matters.  Here `claim`, `finish`, `defer_unavailable`, `ingest` and `commit_sample`
are the statements they send; each of them means the store's own operation.
-/

namespace CodexMonitor

open Transaction Wal

/-- A transaction of the store as the statements it sends. -/
abbrev Statements (α : Type) : Type := Wal.Body Db StoreError α

/-- A check that looks at no table and sends no statement. -/
def check {α : Type} (x : StoreM α) : Statements α := Body.ofExcept (x.run Db.empty).1

/-- Reject with a message. -/
def rejectIf (c : Prop) [Decidable c] (message : String) : Statements Unit :=
  Body.bailIf c (.bail message)

/-! ## The transactions -/

/-- `SELECT e.*,b.thread,b.endpoint FROM events e JOIN bindings b … WHERE e.id=?`. -/
def Db.claimedRow (db : Db) (crates : Crates) (id : String) : Except StoreError ClaimedEvent :=
  match db.eventById id with
  | none => .error (.sqlite "Query returned no rows")
  | some row => db.claimedEvent crates row

/-- The last part of `claim`: hand the candidate out. -/
def handOut (crates : Crates) (e : Event) (now : Rat) : Statements (Option ClaimedEvent) := do
  Body.update fun db =>
    if e.state = .pending then db.submitPending e.id now else db.submitOther e.id e.state now
  let result ← Body.query fun db => db.claimedRow crates e.id
  let claimed ← Body.ofExcept result
  pure (some claimed)

/-- One round of `claim`'s loop, after its `SELECT`; `fuel` more rounds may follow. -/
def claimRound (crates : Crates) (clock : Nat → Rat) :
    Nat → Nat → Option Event → Statements (Option ClaimedEvent)
  | _, _, none => pure none
  | fuel, i, some e =>
      if e.state = .pending ∧ maxAgeSeconds < clock i - e.created then do
        Body.update fun db => db.expireEvent e.id (clock i)
        Body.update fun db => db.settleNotices e.id .failed (some "event expired") (clock i)
        match fuel with
        | 0 => Body.fail .outOfFuel
        | fuel + 1 => do
            let row ← Body.query fun db => db.claimCandidate (clock (i + 1))
            claimRound crates clock fuel (i + 1) row
      else handOut crates e (clock i)

/-- The transaction of `claim`. -/
def claimStatements (crates : Crates) (clock : Nat → Rat) : Statements (Option ClaimedEvent) := do
  let (rounds, row) ← Body.query fun db =>
    (db.events.rows.length, db.claimCandidate (clock 0))
  claimRound crates clock rounds 0 row

/-- `finish`. -/
def finishStatements (id state : String) (submissionId error : Option String) (now : Rat) :
    Statements Unit := do
  check (validateIdentifier id "delivery id")
  let state ← Body.expect (.bail "invalid event state") (finishState? state)
  rejectIf (submissionId.any (fun value => isIdentifier value = false))
    "submission id must be a nonempty identifier"
  rejectIf (error.any fun value => 4096 < value.utf8ByteSize) "event error is too long"
  let row ← Body.query fun db => db.eventById id
  let e ← Body.expect (.bail "event not found") row
  if e.state = .accepted then
    rejectIf (¬ (state = .accepted ∧ e.submissionId = submissionId))
      "accepted event cannot be finished with different content"
  else do
    rejectIf (¬ (e.state = .submitting ∨ e.state = .uncertain)) "event is not in flight"
    let outcome := storedOutcome state error e.attempts
    let nextAt := storedNextAt outcome.1 e.attempts now
    Body.update fun db =>
      db.finishEvent id outcome.1 submissionId outcome.2 e.attempts nextAt now
    if outcome.1 = .accepted ∨ outcome.1 = .dead then
      Body.update fun db => db.mirrorOutcome id outcome.1 outcome.2 now
    else pure ()

/-- `defer_unavailable`. -/
def deferStatements (id error : String) (now : Rat) : Statements Unit := do
  check (validateIdentifier id "delivery id")
  rejectIf (4096 < error.utf8ByteSize) "event error is too long"
  let row ← Body.query fun db => db.eventById id
  let e ← Body.expect (.bail "event not found") row
  rejectIf (e.state ≠ .submitting) "event is not in flight"
  Body.update fun db => db.deferEvent id error (e.attempts - 1) now

/-- The budget of the envelope's trace, when it names one. -/
def traceStatements (crates : Crates) : Option String → Statements Unit
  | none => pure ()
  | some traceId => do
      let counted ← Body.query fun db => db.traceEvents crates (some traceId)
      let trace ← Body.expect (.sqlite "malformed JSON") counted
      rejectIf (traceLimit ≤ trace) "trace conversation budget reached"

/-- The part of `ingest_tx` that stores a new event. -/
def storeStatements (crates : Crates) (b : Binding) (envelope : Value)
    (source eventId encoded : String) (uuid : Uuid) (now : Rat) : Statements Receipt := do
  rejectIf (b.enabled = false ∨ b.removed = true) "binding is disabled"
  let pending ← Body.query fun db => db.openEvents b.name
  rejectIf (maxPending ≤ pending) "pending queue capacity reached"
  let recent ← Body.query fun db => db.recentEvents b.name now
  rejectIf (rateLimit ≤ recent) "binding event rate limit reached"
  traceStatements crates (envelope.getStr "trace_id")
  let state := initialState envelope
  Body.attempt (.sqlite "UNIQUE constraint failed: events") fun db => db.insertEvent?
    (newEvent db.nextEventSeq uuid b.name source eventId encoded state now 0)
  pure ⟨uuid.text, state, false⟩

/-- `ingest_tx`. -/
def intakeStatements (crates : Crates) (binding : String) (envelope : Value) (uuid : Uuid)
    (now : Rat) : Statements Receipt := do
  let (source, eventId, encoded) ← check (validateEnvelope crates envelope)
  let row ← Body.query fun db => db.bindings.find? fun b => b.name = binding
  let b ← Body.expect (.bail "unknown binding") row
  rejectIf (source ∉ b.sources) "source is not allowed for this binding"
  let existing ← Body.query fun db => db.eventAt binding source eventId
  match existing with
  | some e => do
      rejectIf (e.envelope ≠ encoded) "event ID already used for different content"
      pure ⟨e.id, e.state, true⟩
  | none => storeStatements crates b envelope source eventId encoded uuid now

/-- `ingest`. -/
def ingestStatements (crates : Crates) (binding : String) (envelope : Value) (uuid : Uuid)
    (now : Rat) : Statements Receipt := do
  check (validateIdentifier binding "binding")
  intakeStatements crates binding envelope uuid now

/-- The event of a sample, when it has one. -/
def sampleStatements (crates : Crates) (binding : String) (event : Option Value) (uuid : Uuid)
    (now : Rat) : Statements (Option Receipt) :=
  match event with
  | none => pure none
  | some value => do
      let receipt ← intakeStatements crates binding value uuid now
      pure (some receipt)

/-- `commit_sample`. -/
def commitStatements (crates : Crates) (id : String) (epoch : Int) (checkpoint : Value)
    (event : Option Value) (uuid : Uuid) (now stamp : Rat) : Statements (Option Receipt) := do
  check (validateIdentifier id "watch id")
  rejectIf (epoch < 0) "watch epoch must be nonnegative"
  let checkpointJson := canonicalJson crates checkpoint
  rejectIf (maxEnvelopeBytes < checkpointJson.utf8ByteSize) "checkpoint exceeds 32 KiB"
  let row ← Body.query fun db => db.managedWatches.find? fun w => w.id = id
  let w ← Body.expect (.bail "unknown managed watch") row
  rejectIf (w.epoch ≠ epoch) "stale managed watch epoch"
  rejectIf (w.enabled = false ∨ w.removed = true) "managed watch is disabled"
  let receipt ← sampleStatements crates w.binding event uuid now
  Body.update fun db => db.setCheckpoint id epoch checkpointJson stamp
  pure receipt

/-! ## Checks -/

/-- A run of `x` ends the same way on every database, and changes none. -/
def Stateless {α : Type} (x : StoreM α) : Prop := ∃ r, ∀ db, x.run db = (r, db)

section stateless

variable {α β : Type}

theorem Stateless.bind {x : StoreM α} {f : α → StoreM β} (hx : Stateless x)
    (hf : ∀ a, Stateless (f a)) : Stateless (x >>= f) := by
  obtain ⟨r, hr⟩ := hx
  cases r with
  | error e => exact ⟨.error e, fun db => Tx.run_bind_of_error (hr db) f⟩
  | ok a =>
      obtain ⟨q, hq⟩ := hf a
      exact ⟨q, fun db => (Tx.run_bind_of_ok (hr db) f).trans (hq db)⟩

theorem stateless_pure (a : α) : Stateless (pure a) := ⟨.ok a, fun _ => rfl⟩

theorem stateless_expect (e : StoreError) (o : Option α) : Stateless (Tx.expect e o) := by
  cases o with
  | none => exact ⟨.error e, fun _ => rfl⟩
  | some a => exact ⟨.ok a, fun _ => rfl⟩

theorem stateless_bailIf (c : Prop) [Decidable c] (message : String) :
    Stateless (bailIf c message) := by
  unfold bailIf Tx.bailIf
  by_cases hc : c
  · rw [if_pos hc]
    exact ⟨.error (.bail message), fun _ => rfl⟩
  · rw [if_neg hc]
    exact ⟨.ok (), fun _ => rfl⟩

theorem stateless_validateTraceId (traceId : Option Value) :
    Stateless (validateTraceId traceId) := by
  cases traceId with
  | none => exact stateless_pure ()
  | some value => exact (stateless_expect _ _).bind fun _ => stateless_bailIf _ _

theorem stateless_validateEnvelope (crates : Crates) (envelope : Value) :
    Stateless (validateEnvelope crates envelope) := by
  refine (stateless_expect _ _).bind fun fields => ?_
  refine (stateless_bailIf _ _).bind fun _ => ?_
  refine (stateless_bailIf _ _).bind fun _ => ?_
  refine (stateless_expect _ _).bind fun id => ?_
  refine (stateless_expect _ _).bind fun source => ?_
  refine (stateless_expect _ _).bind fun eventType => ?_
  refine (stateless_bailIf _ _).bind fun _ => ?_
  refine (stateless_bailIf _ _).bind fun _ => ?_
  refine (stateless_bailIf _ _).bind fun _ => ?_
  refine (stateless_validateTraceId _).bind fun _ => ?_
  refine (stateless_expect _ _).bind fun hops => ?_
  refine (stateless_bailIf _ _).bind fun _ => ?_
  refine (stateless_bailIf _ _).bind fun _ => ?_
  exact stateless_pure _

theorem meaning_check {x : StoreM α} (h : Stateless x) : (check x).meaning = x := by
  obtain ⟨r, hr⟩ := h
  rw [check, hr, Body.meaning_ofExcept]
  show _ = Tx.mk x.run
  rw [funext hr]
  cases r <;> rfl

@[simp] theorem meaning_rejectIf (c : Prop) [Decidable c] (message : String) :
    (rejectIf c message).meaning = bailIf c message :=
  Body.meaning_bailIf c _

/-- A check in front of a transaction may as well stand inside it. -/
theorem Stateless.atomically_bind {x : StoreM α} (h : Stateless x) (f : α → StoreM β) :
    withTx (x >>= f) = x >>= fun a => withTx (f a) := by
  obtain ⟨r, hr⟩ := h
  show Tx.mk _ = Tx.mk _
  refine congrArg Tx.mk (funext fun db => ?_)
  cases r with
  | error e =>
      show (withTx (x >>= f)).run db = (x >>= fun a => withTx (f a)).run db
      rw [Tx.run_bind_of_error (hr db)]
      simp only [withTx, Tx.atomically, Tx.run_bind_of_error (hr db)]
  | ok a =>
      show (withTx (x >>= f)).run db = (x >>= fun a => withTx (f a)).run db
      rw [Tx.run_bind_of_ok (hr db)]
      simp only [withTx, Tx.atomically, Tx.run_bind_of_ok (hr db)]

end stateless

/-! ## What the transactions mean -/

section meaning

variable (crates : Crates)

theorem handOut_meaning (e : Event) (now : Rat) : (handOut crates e now).meaning = (do
    Tx.write fun db =>
      if e.state = .pending then db.submitPending e.id now else db.submitOther e.id e.state now
    let row ← Tx.query fun db => db.eventById e.id
    let row ← Tx.expect (.sqlite "Query returned no rows") row
    let result ← Tx.query fun db => db.claimedEvent crates row
    let claimed ← Tx.ofExcept result
    pure (some claimed) : StoreM (Option ClaimedEvent)) := by
  simp only [handOut, Body.meaning_bind, Body.meaning_update, Body.meaning_query,
    Body.meaning_ofExcept, Body.meaning_pure]
  refine congrArg _ (funext fun _ => ?_)
  show Tx.mk _ = Tx.mk _
  refine congrArg Tx.mk (funext fun db => ?_)
  show (Tx.ofExcept (db.claimedRow crates e.id) >>= fun claimed => pure (some claimed) :
      StoreM (Option ClaimedEvent)).run db =
    (Tx.expect (.sqlite "Query returned no rows") (db.eventById e.id) >>= fun row =>
      Tx.query (fun db => db.claimedEvent crates row) >>= fun result =>
        Tx.ofExcept result >>= fun claimed => pure (some claimed) :
      StoreM (Option ClaimedEvent)).run db
  unfold Db.claimedRow
  cases db.eventById e.id <;> rfl

/-- The loop goes on from a `SELECT` as a round does from its row. -/
theorem claimRound_meaning (clock : Nat → Rat) (fuel i : Nat) :
    claimLoop crates clock (fuel + 1) i = (do
      let row ← Tx.query fun db => db.claimCandidate (clock i)
      (claimRound crates clock fuel i row).meaning) := by
  induction fuel generalizing i with
  | zero =>
      rw [claimLoop]
      refine congrArg _ (funext fun row => ?_)
      cases row with
      | none => rfl
      | some e =>
          simp only [claimRound, Body.meaning_ite, Body.meaning_bind, Body.meaning_update,
            handOut_meaning]
          rfl
  | succ fuel ih =>
      rw [claimLoop]
      refine congrArg _ (funext fun row => ?_)
      cases row with
      | none => rfl
      | some e =>
          simp only [claimRound, Body.meaning_ite, Body.meaning_bind, Body.meaning_update,
            Body.meaning_query, handOut_meaning, ih]

theorem claimStatements_meaning (clock : Nat → Rat) :
    withTx (claimStatements crates clock).meaning = claim crates clock := by
  refine congrArg withTx ?_
  show Tx.mk _ = Tx.mk _
  refine congrArg Tx.mk (funext fun db => ?_)
  show ((claimRound crates clock db.events.rows.length 0 (db.claimCandidate (clock 0))).meaning).run
    db = (claimLoop crates clock (db.events.rows.length + 1) 0).run db
  rw [claimRound_meaning]
  rfl

/-- An outcome that is neither an acceptance nor a death is not mirrored, so the statement that
mirrors it may as well be sent. -/
theorem write_mirrorOutcome (id : String) (state : EventState) (error : Option String)
    (now : Rat) :
    (if state = .accepted ∨ state = .dead then
        Tx.write fun db : Db => db.mirrorOutcome id state error now
      else pure () : StoreM Unit) =
      Tx.write fun db => db.mirrorOutcome id state error now := by
  by_cases h : state = .accepted ∨ state = .dead
  · rw [if_pos h]
  · rw [if_neg h]
    rw [not_or] at h
    show Tx.mk _ = Tx.mk _
    refine congrArg Tx.mk (funext fun db => ?_)
    show _ = (Except.ok (), db.mirrorOutcome id state error now)
    simp only [Db.mirrorOutcome, if_neg h.1, if_neg h.2]

theorem finishStatements_meaning (id state : String) (submissionId error : Option String)
    (now : Rat) :
    withTx (finishStatements id state submissionId error now).meaning =
      finish id state submissionId error now := by
  simp only [finishStatements, Body.meaning_bind, meaning_check (stateless_bailIf _ _),
    validateIdentifier, Body.meaning_expect, meaning_rejectIf, Body.meaning_query,
    Body.meaning_ite, Body.meaning_update, Body.meaning_pure, write_mirrorOutcome,
    (stateless_bailIf _ _).atomically_bind, (stateless_expect _ _).atomically_bind]
  rfl

theorem deferStatements_meaning (id error : String) (now : Rat) :
    withTx (deferStatements id error now).meaning = deferUnavailable id error now := by
  simp only [deferStatements, Body.meaning_bind, meaning_check (stateless_bailIf _ _),
    validateIdentifier, Body.meaning_expect, meaning_rejectIf, Body.meaning_query,
    Body.meaning_update, (stateless_bailIf _ _).atomically_bind]
  rfl

/-- The budget of a trace that is not named is never reached. -/
theorem traceStatements_meaning {β : Type} (traceId : Option String) (k : Unit → StoreM β) :
    (traceStatements crates traceId).meaning >>= k = (do
      let counted ← Tx.query fun db => db.traceEvents crates traceId
      let trace ← Tx.expect (.sqlite "malformed JSON") counted
      bailIf (traceLimit ≤ trace) "trace conversation budget reached"
      k ()) := by
  cases traceId with
  | none => rfl
  | some traceId =>
      simp only [traceStatements, Body.meaning_bind, Body.meaning_query, Body.meaning_expect,
        meaning_rejectIf]
      have hcounted : ∀ counted : Option Nat,
          (Tx.expect (.sqlite "malformed JSON") counted >>= fun trace =>
            bailIf (traceLimit ≤ trace) "trace conversation budget reached") >>= k =
          Tx.expect (.sqlite "malformed JSON") counted >>= fun trace =>
            bailIf (traceLimit ≤ trace) "trace conversation budget reached" >>= k := by
        intro counted
        cases counted with
        | none => rfl
        | some trace => rfl
      exact congrArg (Tx.query (fun db => db.traceEvents crates (some traceId)) >>= ·)
        (funext hcounted)

theorem storeStatements_meaning (b : Binding) (envelope : Value) (source eventId encoded : String)
    (uuid : Uuid) (now : Rat) :
    (storeStatements crates b envelope source eventId encoded uuid now).meaning =
      storeEvent crates b envelope source eventId encoded uuid now := by
  simp only [storeStatements, traceStatements_meaning, Body.meaning_bind, meaning_rejectIf,
    Body.meaning_query, Body.meaning_attempt, Body.meaning_pure]
  rfl

theorem intakeStatements_meaning (binding : String) (envelope : Value) (uuid : Uuid) (now : Rat) :
    (intakeStatements crates binding envelope uuid now).meaning =
      ingestTx crates binding envelope uuid now := by
  simp only [intakeStatements, Body.meaning_bind,
    meaning_check (stateless_validateEnvelope crates envelope), Body.meaning_expect,
    meaning_rejectIf, Body.meaning_query, ingestTx]
  refine congrArg _ (funext fun row => ?_)
  refine congrArg _ (funext fun found => ?_)
  refine congrArg _ (funext fun b => ?_)
  refine congrArg _ (funext fun _ => ?_)
  refine congrArg _ (funext fun existing => ?_)
  cases existing with
  | none => exact storeStatements_meaning crates b _ _ _ _ uuid now
  | some e => simp only [Body.meaning_bind, meaning_rejectIf, Body.meaning_pure]

theorem ingestStatements_meaning (binding : String) (envelope : Value) (uuid : Uuid) (now : Rat) :
    withTx (ingestStatements crates binding envelope uuid now).meaning =
      ingest crates binding envelope uuid now := by
  simp only [ingestStatements, Body.meaning_bind, meaning_check (stateless_bailIf _ _),
    validateIdentifier, intakeStatements_meaning, (stateless_bailIf _ _).atomically_bind]
  rfl

theorem sampleStatements_meaning (binding : String) (event : Option Value) (uuid : Uuid)
    (now : Rat) :
    (sampleStatements crates binding event uuid now).meaning =
      ingestSample crates binding event uuid now := by
  cases event with
  | none => rfl
  | some value =>
      simp only [sampleStatements, Body.meaning_bind, intakeStatements_meaning, Body.meaning_pure]
      rfl

theorem commitStatements_meaning (id : String) (epoch : Int) (checkpoint : Value)
    (event : Option Value) (uuid : Uuid) (now stamp : Rat) :
    withTx (commitStatements crates id epoch checkpoint event uuid now stamp).meaning =
      commitSample crates id epoch checkpoint event uuid now stamp := by
  simp only [commitStatements, Body.meaning_bind, meaning_check (stateless_bailIf _ _),
    validateIdentifier, meaning_rejectIf, Body.meaning_query, Body.meaning_expect,
    sampleStatements_meaning, Body.meaning_update, Body.meaning_pure,
    (stateless_bailIf _ _).atomically_bind]
  rfl

end meaning

/-! ## Which of them write -/

section writes

variable {α β : Type} {db : Db}

@[simp] theorem writes_check_bind (x : StoreM α) (f : α → Statements β) :
    (check x >>= f).writes db = true ↔ ∃ a, (x.run Db.empty).1 = .ok a ∧ (f a).writes db = true := by
  rw [check]
  cases (x.run Db.empty).1 with
  | error e => simp [Body.writes, Body.ofExcept, Bind.bind, Body.bind]
  | ok a => simp [Body.ofExcept, Bind.bind, Body.bind]

@[simp] theorem writes_identifier_bind (value label : String) (f : Unit → Statements β) :
    (check (validateIdentifier value label) >>= f).writes db = true ↔
      isIdentifier value = true ∧ (f ()).writes db = true := by
  rw [writes_check_bind]
  by_cases h : isIdentifier value = true
  · have hrun : ((validateIdentifier value label).run Db.empty).1 = .ok () := by
      simp [validateIdentifier, bailIf, Tx.bailIf, h, Tx.run_pure]
    constructor
    · intro hw
      obtain ⟨_, _, hw⟩ := hw
      exact ⟨h, hw⟩
    · intro hw
      exact ⟨(), hrun, hw.2⟩
  · simp [validateIdentifier, bailIf, Tx.bailIf, h, Tx.fail]

@[simp] theorem writes_rejectIf_bind (c : Prop) [Decidable c] (message : String)
    (f : Unit → Statements β) :
    (rejectIf c message >>= f).writes db = true ↔ ¬ c ∧ (f ()).writes db = true := by
  unfold rejectIf Body.bailIf
  by_cases hc : c <;> simp [hc, Body.writes, Bind.bind, Body.bind]

@[simp] theorem writes_query_bind (f : Db → α) (g : α → Statements β) :
    (Body.query f >>= g).writes db = true ↔ (g (f db)).writes db = true := Iff.rfl

@[simp] theorem writes_expect_bind (e : StoreError) (o : Option α) (f : α → Statements β) :
    (Body.expect e o >>= f).writes db = true ↔ ∃ a, o = some a ∧ (f a).writes db = true := by
  cases o <;> simp [Body.expect, Body.writes, Bind.bind, Body.bind]

@[simp] theorem writes_update_bind (f : Db → Db) (g : Unit → Statements β) :
    (Body.update f >>= g).writes db = true := rfl

@[simp] theorem writes_update (f : Db → Db) : (Body.update f : Statements Unit).writes db = true :=
  rfl

@[simp] theorem writes_rejectIf (c : Prop) [Decidable c] (message : String) :
    (rejectIf c message).writes db = false := by
  unfold rejectIf Body.bailIf
  by_cases hc : c <;> simp [hc, Body.writes]

/-- `claim` gets to a write exactly when there is an event to claim. -/
theorem claimStatements_writes (crates : Crates) (clock : Nat → Rat) :
    (claimStatements crates clock).writes db = (db.claimCandidate (clock 0)).isSome := by
  show (claimRound crates clock db.events.rows.length 0 (db.claimCandidate (clock 0))).writes db = _
  cases db.claimCandidate (clock 0) with
  | none => simp [claimRound, Body.writes, pure]
  | some e =>
      unfold claimRound
      split
      · rfl
      · rfl

/-- `finish` gets to a write exactly when its arguments are valid and the event is in flight. -/
theorem finishStatements_writes (id state : String) (submissionId error : Option String)
    (now : Rat) :
    (finishStatements id state submissionId error now).writes db = true ↔
      isIdentifier id = true ∧ (finishState? state).isSome = true ∧
        (∀ value ∈ submissionId, isIdentifier value = true) ∧
        (∀ value ∈ error, value.utf8ByteSize ≤ 4096) ∧
        ∃ e, db.eventById id = some e ∧ (e.state = .submitting ∨ e.state = .uncertain) := by
  have hbranch : ∀ (outcome : EventState) (e : Event),
      Body.writes (if e.state = .accepted then
          rejectIf (¬ (outcome = .accepted ∧ e.submissionId = submissionId))
            "accepted event cannot be finished with different content"
        else do
          rejectIf (¬ (e.state = .submitting ∨ e.state = .uncertain)) "event is not in flight"
          let outcome := storedOutcome outcome error e.attempts
          let nextAt := storedNextAt outcome.1 e.attempts now
          Body.update fun db =>
            db.finishEvent id outcome.1 submissionId outcome.2 e.attempts nextAt now
          if outcome.1 = .accepted ∨ outcome.1 = .dead then
            Body.update fun db => db.mirrorOutcome id outcome.1 outcome.2 now
          else pure ()) db = true ↔ (e.state = .submitting ∨ e.state = .uncertain) := by
    intro outcome e
    by_cases haccepted : e.state = .accepted
    · simp [haccepted]
    · rw [if_neg haccepted, writes_rejectIf_bind, not_not]
      exact and_iff_left rfl
  simp only [finishStatements, writes_identifier_bind, writes_rejectIf_bind, writes_query_bind,
    writes_expect_bind, hbranch]
  have hsubmission : ¬ submissionId.any (fun value => isIdentifier value = false) = true ↔
      ∀ value ∈ submissionId, isIdentifier value = true := by
    cases submissionId <;> simp
  have herror : ¬ error.any (fun value => 4096 < value.utf8ByteSize) = true ↔
      ∀ value ∈ error, value.utf8ByteSize ≤ 4096 := by
    cases error <;> simp
  rw [hsubmission, herror]
  constructor
  · intro h
    obtain ⟨hid, outcome, houtcome, hrest⟩ := h
    exact ⟨hid, by simp [houtcome], hrest⟩
  · intro h
    obtain ⟨hid, houtcome, hrest⟩ := h
    obtain ⟨outcome, houtcome⟩ := Option.isSome_iff_exists.mp houtcome
    exact ⟨hid, outcome, houtcome, hrest⟩

/-- `defer_unavailable` gets to a write exactly when its arguments are valid and the event is
submitting. -/
theorem deferStatements_writes (id error : String) (now : Rat) :
    (deferStatements id error now).writes db = true ↔
      isIdentifier id = true ∧ error.utf8ByteSize ≤ 4096 ∧
        ∃ e, db.eventById id = some e ∧ e.state = .submitting := by
  simp only [deferStatements, writes_identifier_bind, writes_rejectIf_bind, writes_query_bind,
    writes_expect_bind, writes_update, not_lt, ne_eq, not_not, and_true]

end writes

end CodexMonitor
