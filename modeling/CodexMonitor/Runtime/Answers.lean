import CodexMonitor.Runtime.Deliver

/-!
# The names a server gives its submissions

The name of a submission comes from the App Server and is kept by the store, which
takes identifiers only.  `answers_settle_iff` says what follows: a delivery, or a
reconciliation, ends well exactly when every name in the server's answers is an
identifier.  One that is not ends the job with an error, and the event is met
again after the next start.
-/

namespace CodexMonitor

open Transaction Session

/-- The job of a claimed event ends well, and the event is settled, waits or is uncertain. -/
def DeliverySettles (crates : Crates) (db : Db) (c : ClaimedEvent) (probe add : Attempt)
    (now : Rat) : Prop :=
  ∃ t, (deliverOne crates c probe add now).run db = (.ok (), t) ∧
    ∀ e ∈ t.events, e.id = c.row.id → e.state ∈ [.accepted, .pending, .uncertain, .dead]

/-- The job of an uncertain event ends well, and the event is accepted or stays uncertain. -/
def ReconcileSettles (crates : Crates) (db : Db) (c : ClaimedEvent) (probe : Attempt)
    (queue turns : Nat → Attempt) (inTime : Bool) (now : Rat) : Prop :=
  ∃ t, (reconcileJob crates c probe queue turns inTime now).run db = (.ok (), t) ∧
    ∀ e ∈ t.events, e.id = c.row.id → e.state ∈ [.accepted, .uncertain]

/-- Every submission that the server's answer to the add names has an identifier for a name. -/
def GoodAnswer (crates : Crates) (c : ClaimedEvent) (probe add : Attempt) : Prop :=
  ∀ id, NamesSubmission crates c.endpoint c.thread c.row.clientId
      (renderEvent crates c.row.binding c.envelope c.row.id) probe add id →
    isIdentifier id = true

/-- Every submission that the server's pages name has an identifier for a name. -/
def GoodPages (crates : Crates) (c : ClaimedEvent) (probe : Attempt)
    (queue turns : Nat → Attempt) : Prop :=
  ∀ id, NamesEvidence crates c.endpoint c.thread c.row.clientId probe queue turns id →
    isIdentifier id = true

theorem foundSubmission_evidence {state id : String} (h : state = "queued" ∨ state = "consumed") :
    foundSubmission (evidence state id) = some (some id) := by
  rcases h with rfl | rfl <;> rfl

theorem foundSubmission_noEvidence : foundSubmission noEvidence = none := by decide +kernel

section answers

variable {crates : Crates} {db : Db} {e : Event} {c : ClaimedEvent}

/-- A delivery settles its event exactly when the names in the server's answer are good. -/
theorem deliverySettles_iff (hserde : crates.ParsesObjects) (hdb : Reachable crates db)
    (he : e ∈ db.events) (hstate : e.state = .submitting) (hc : c.Of crates e)
    (probe add : Attempt) (now : Rat) :
    DeliverySettles crates db c probe add now ↔ GoodAnswer crates c probe add := by
  have hid : e.id = c.row.id := (Event.key_eq hc.key_eq).2.1.symm
  have hidentifier : isIdentifier c.row.id = true := hid ▸ hdb.eventId_isIdentifier e he
  have henvelope := claimedEnvelope_run db hserde (hdb.envelopesAreObjects.events e he) hc
  unfold DeliverySettles deliverOne
  rw [Tx.run_bind_of_ok henvelope]
  cases hdeliver : deliver crates c.endpoint c.thread c.row.clientId
      (renderEvent crates c.row.binding c.envelope c.row.id) probe add with
  | error error =>
      obtain ⟨t, hrun, ht⟩ := recordFailure_records crates error now he hid hidentifier hstate
      simp only [hdeliver]
      constructor
      · intro _ id hname
        rw [deliver_ok.mpr hname] at hdeliver
        cases hdeliver
      · intro _
        refine ⟨t, hrun, fun f hf hfid => ?_⟩
        rcases ht f hf hfid with h | h | h <;> simp [h]
  | ok submission =>
      have hnames := deliver_ok.mp hdeliver
      simp only [hdeliver]
      constructor
      · rintro ⟨t, hrun, _⟩ id hname
        have hsame : id = submission :=
          Except.ok.inj ((deliver_ok.mpr hname).symm.trans hdeliver)
        subst hsame
        exact (finish_valid hrun).2.1 id rfl
      · intro hgood
        have hsubmission : ∀ value ∈ some submission, isIdentifier value = true := by
          intro value hvalue
          cases hvalue
          exact hgood submission hnames
        obtain ⟨t, hrun, ht⟩ := finish_records crates "accepted" none now he hid hidentifier rfl
          hsubmission (by simp) (by rw [hstate]; rfl)
        refine ⟨t, hrun, fun f hf hfid => ?_⟩
        rcases ht f hf hfid with h | h
        · simp [h]
        · simp [h.2]

/-- A reconciliation settles its event exactly when the names on the server's pages are good. -/
theorem reconcileSettles_iff (hdb : Reachable crates db) (he : e ∈ db.events)
    (hstate : e.state = .uncertain) (hc : c.Of crates e) (probe : Attempt)
    (queue turns : Nat → Attempt) (inTime : Bool) (now : Rat) :
    ReconcileSettles crates db c probe queue turns inTime now ↔
      (inTime = true → GoodPages crates c probe queue turns) := by
  have hid : e.id = c.row.id := (Event.key_eq hc.key_eq).2.1.symm
  have hidentifier : isIdentifier c.row.id = true := hid ▸ hdb.eventId_isIdentifier e he
  have hidle : ∀ job : StoreM Unit, job = pure () → ∃ t, job.run db = (.ok (), t) ∧
      ∀ f ∈ t.events, f.id = c.row.id → f.state ∈ [EventState.accepted, .uncertain] := by
    rintro job rfl
    refine ⟨db, rfl, fun f hf hfid => ?_⟩
    obtain rfl := Event.eq_of_id hf he (hfid.trans hid.symm)
    simp [hstate]
  unfold ReconcileSettles reconcileJob
  cases inTime with
  | false => exact ⟨fun _ h => Bool.noConfusion h, fun _ => hidle _ rfl⟩
  | true =>
      rw [if_neg (by decide)]
      rcases inspect_cases crates c.endpoint c.thread c.row.clientId probe queue turns with
        ⟨id, state, hkind, hinspect, hnames⟩ | ⟨hnone, hnothing⟩
      · rw [hinspect]
        simp only [foundSubmission_evidence hkind]
        constructor
        · rintro ⟨t, hrun, _⟩ _ id' hnames'
          obtain rfl := hnames'.unique hnames
          exact (finish_valid hrun).2.1 id' rfl
        · intro hgood
          have hsubmission : ∀ value ∈ some id, isIdentifier value = true := by
            intro value hvalue
            cases hvalue
            exact hgood trivial id hnames
          obtain ⟨t, hrun, ht⟩ := finish_records crates "accepted" none now he hid hidentifier
            rfl hsubmission (by simp) (by rw [hstate]; rfl)
          refine ⟨t, hrun, fun f hf hfid => ?_⟩
          rcases ht f hf hfid with h | h
          · simp [h]
          · cases h.1
      · refine ⟨fun _ _ id hnames => absurd hnames (hnothing id), fun _ => hidle _ ?_⟩
        rcases hnone with h | ⟨error, h⟩
        · rw [h]
          simp only [foundSubmission_noEvidence]
        · rw [h]

/-- **The App Server's answers settle an event exactly when the names in them are good.**  The
server's answers are the arguments: whatever it says otherwise, whatever the transport does, the
delivery leaves the event accepted, pending, uncertain or dead, the reconciliation accepted or
uncertain. -/
theorem answers_settle_iff (hserde : crates.ParsesObjects) (hdb : Reachable crates db)
    (he : e ∈ db.events) (hc : c.Of crates e) :
    (e.state = .submitting → ∀ probe add now,
      (DeliverySettles crates db c probe add now ↔ GoodAnswer crates c probe add)) ∧
    (e.state = .uncertain → ∀ probe queue turns inTime now,
      (ReconcileSettles crates db c probe queue turns inTime now ↔
        (inTime = true → GoodPages crates c probe queue turns))) :=
  ⟨fun hstate probe add now => deliverySettles_iff hserde hdb he hstate hc probe add now,
    fun hstate probe queue turns inTime now =>
      reconcileSettles_iff hdb he hstate hc probe queue turns inTime now⟩

end answers

/-! ## A name with a space in it -/

/-- The server's answer to the request with an id. -/
def answerTo (id : Nat) (result : Value) : Value :=
  .object [("id", .number (.ofI64 id)), ("result", result)]

/-- An empty queue. -/
def emptyQueue : Value := .object [("data", .array [])]

/-- The answer to an add that names a submission. -/
def addAnswer (id : String) : Value :=
  .object [("queuedSubmission", .object [("id", .string id)])]

def answerCrates : Crates :=
  .knowing [sampleEnvelope "build-1", answerTo 1 emptyQueue, answerTo 2 (addAnswer "submission-1"),
    answerTo 2 (addAnswer "submission 1")]

/-- A call on a pooled connection that is answered at once. -/
def answeredCall (id : Nat) (result : Value) : Attempt where
  pooled := .usable
  dial := ⟨true, ⟨none, true, true, none, none, .ok none, true, none⟩, ⟨true, 0, none, []⟩, .done⟩
  exchange := ⟨true, id, some .done, [.line (canonicalJson answerCrates (answerTo id result)) ""]⟩

/-- A route is registered, a build server's event is stored, and a dispatcher claims it. -/
def claimedOps : List Op :=
  [.bind "deploy" "conversation-1" "shared-local" ["ci"],
    .ingest "deploy" (sampleEnvelope "build-1") (sampleUuid 1) 10,
    .claim fun _ => 11]

/-- The claimed event. -/
def submittedEvent : Event where
  seq := 1
  id := (sampleUuid 1).text
  binding := "deploy"
  source := "ci"
  eventId := "build-1"
  envelope := canonicalJson printer (sampleEnvelope "build-1")
  clientId := "codex-monitor:" ++ (sampleUuid 1).text
  state := .submitting
  created := 10
  updated := 11
  attempts := 1
  nextAt := 0
  submissionId := none
  error := none

def submittedClaim : ClaimedEvent :=
  ⟨submittedEvent, sampleEnvelope "build-1", "conversation-1", "shared-local"⟩

theorem answerCrates_parsesObjects : answerCrates.ParsesObjects := by
  intro fields value h
  have hmem := List.mem_of_find?_eq_some h
  simp only [List.mem_cons, List.not_mem_nil, or_false] at hmem
  rcases hmem with rfl | rfl | rfl | rfl
  · exact ⟨_, rfl⟩
  · exact ⟨_, rfl⟩
  · exact ⟨_, rfl⟩
  · exact ⟨_, rfl⟩

theorem submittedEvent_mem : submittedEvent ∈ (Db.after answerCrates claimedOps).events := by
  have hrows : (Db.after answerCrates claimedOps).events.rows = [submittedEvent] := by
    decide +kernel
  rw [Table.mem_def, hrows]
  exact List.mem_singleton_self _

theorem submittedClaim_of : submittedClaim.Of answerCrates submittedEvent where
  key_eq := rfl
  envelope_eq := rfl

/-- The delivery of the claimed event to a server that names the submission `id`. -/
def sampleDelivery (id : String) : Except SessionError String :=
  deliver answerCrates "shared-local" "conversation-1" submittedEvent.clientId
    (renderEvent answerCrates "deploy" (sampleEnvelope "build-1") submittedEvent.id)
    (answeredCall 1 emptyQueue) (answeredCall 2 (addAnswer id))

/-- The frame of a short text is small. -/
theorem addFrame_small {text : String} (h : text.utf8ByteSize ≤ 1000) :
    encodedBytes answerCrates (requestFrame 2 "thread/queue/add"
      (addParams "conversation-1" submittedEvent.clientId text)) ≤ Session.maxRequestBytes := by
  have hnumber : ((Number.ofI64 (2 : Nat)).text answerCrates).utf8ByteSize = 1 := by decide
  have hmethod : (stringText "thread/queue/add").utf8ByteSize = 18 := by decide
  have hclient : (stringText submittedEvent.clientId).utf8ByteSize ≤ 100 := by decide +kernel
  have hthread : (stringText "conversation-1").utf8ByteSize = 16 := by decide
  have htext := stringText_bytes_le text
  have hmax : Session.maxRequestBytes = 8388608 := rfl
  rw [requestFrame_bytes, addParams_bytes]
  omega

theorem rendered_small : (renderEvent answerCrates "deploy" (sampleEnvelope "build-1")
    submittedEvent.id).utf8ByteSize ≤ 1000 := by
  decide +kernel

/-- A short text is delivered when the empty text is. -/
theorem namesSubmission_text {text id : String} (htext : text.utf8ByteSize ≤ 1000)
    (h : deliver answerCrates "shared-local" "conversation-1" submittedEvent.clientId ""
      (answeredCall 1 emptyQueue) (answeredCall 2 (addAnswer id)) = .ok id) :
    NamesSubmission answerCrates "shared-local" "conversation-1" submittedEvent.clientId text
      (answeredCall 1 emptyQueue) (answeredCall 2 (addAnswer id)) id := by
  obtain ⟨hprobe, result, hanswered, hid⟩ := deliver_ok.mp h
  exact ⟨hprobe, result, ⟨hanswered.started.with_text (addFrame_small htext), hanswered.written,
    hanswered.answer⟩, hid⟩

/-- The server names the submission with a space, which the store does not take. -/
theorem answers_settle_fails :
    ¬ ∀ (crates : Crates) (db : Db) (e : Event) (c : ClaimedEvent) (probe add : Attempt)
      (now : Rat), crates.ParsesObjects → Reachable crates db → e ∈ db.events → c.Of crates e →
      e.state = .submitting → DeliverySettles crates db c probe add now := by
  intro h
  have hdb := reachable_after answerCrates claimedOps
  have hsettles := h answerCrates _ submittedEvent submittedClaim (answeredCall 1 emptyQueue)
    (answeredCall 2 (addAnswer "submission 1")) 12 answerCrates_parsesObjects hdb
    submittedEvent_mem submittedClaim_of rfl
  have hgood := (deliverySettles_iff answerCrates_parsesObjects hdb submittedEvent_mem rfl
    submittedClaim_of _ _ 12).mp hsettles
  have hdeliver : sampleDelivery "submission 1" = .ok "submission 1" :=
    deliver_ok.mpr (namesSubmission_text rendered_small (by decide +kernel))
  have hidentifier := hgood "submission 1" (deliver_ok.mp hdeliver)
  revert hidentifier
  decide +kernel

/-- With an identifier for a name the event is accepted. -/
theorem answers_settle_iff_sample :
    DeliverySettles answerCrates (Db.after answerCrates claimedOps) submittedClaim
      (answeredCall 1 emptyQueue) (answeredCall 2 (addAnswer "submission-1")) 12 := by
  refine ((answers_settle_iff answerCrates_parsesObjects (reachable_after answerCrates claimedOps)
    submittedEvent_mem submittedClaim_of).1 rfl _ _ 12).mpr ?_
  intro id hnames
  have hdeliver : sampleDelivery "submission-1" = .ok "submission-1" :=
    deliver_ok.mpr (namesSubmission_text rendered_small (by decide +kernel))
  obtain rfl : "submission-1" = id :=
    Except.ok.inj (hdeliver.symm.trans (deliver_ok.mpr hnames))
  decide +kernel

end CodexMonitor
