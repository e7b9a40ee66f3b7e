import CodexMonitor.Session.Pool
import CodexMonitor.Session.Render
import CodexMonitor.Store.Fifo
import CodexMonitor.Store.History
import CodexMonitor.Store.Identifiers

/-!
# Delivering one event, and reconciling one

`deliverOne` hands a claimed event to its conversation and records what became of
it; `reconcileJob` looks for the evidence of an earlier hand-over.  The lemmas say
what each outcome makes of the event, and that the store never refuses the
receiver's own texts.
-/

namespace CodexMonitor

open Transaction Session

/-! ## The two jobs -/

/-- The envelope of a claimed event; a text is parsed once more. -/
def claimedEnvelope (crates : Crates) (envelope : Value) : StoreM Value :=
  match envelope with
  | .string text => Tx.expect (.bail "envelope is not JSON") (crates.fromStr text)
  | envelope => pure envelope

/-- What becomes of an event whose delivery failed. -/
def recordFailure (id : String) (error : SessionError) (now : Rat) : StoreM Unit :=
  if errorKind error = "unavailable" then
    deferUnavailable id "owner unavailable before submission" now
  else if errorKind error = "permanent" then
    finish id "dead" none (some "native submission rejected") now
  else if errorKind error = "retryable" then
    finish id "pending" none (some "native submission temporarily rejected") now
  else
    finish id "uncertain" none (some "submission acceptance unknown; inspect before replay") now

/-- `deliver_one`. -/
def deliverOne (crates : Crates) (e : ClaimedEvent) (probe add : Attempt) (now : Rat) :
    StoreM Unit := do
  let envelope ← claimedEnvelope crates e.envelope
  let rendered := renderEvent crates e.row.binding envelope e.row.id
  match deliver crates e.endpoint e.thread e.row.clientId rendered probe add with
  | .ok submission => finish e.row.id "accepted" (some submission) none now
  | .error error => recordFailure e.row.id error now

/-- The submission that evidence of a hand-over names. -/
def foundSubmission (value : Value) : Option (Option String) :=
  if value.getStr "state" = some "queued" ∨ value.getStr "state" = some "consumed" then
    some (value.getStr "submission_id")
  else none

/-- The job `reconcile` spawns for a row; `inTime` says that the inspection ends within its
twenty seconds. -/
def reconcileJob (crates : Crates) (e : ClaimedEvent) (probe : Attempt)
    (queue turns : Nat → Attempt) (inTime : Bool) (now : Rat) : StoreM Unit :=
  if inTime = false then pure ()
  else
    match inspect crates e.endpoint e.thread e.row.clientId probe queue turns with
    | .error _ => pure ()
    | .ok value =>
        match foundSubmission value with
        | none => pure ()
        | some submission => finish e.row.id "accepted" submission none now

/-! ## What a job changes -/

section outcomes

variable {crates : Crates} {db : Db} {e : Event}

/-- A claim or a scan of the uncertain events took `c` from the stored event `e`. -/
structure ClaimedEvent.Of (crates : Crates) (c : ClaimedEvent) (e : Event) : Prop where
  key_eq : c.row.key = e.key
  envelope_eq : crates.fromStr e.envelope = some c.envelope

theorem claimedEvent_of {c : ClaimedEvent} (h : db.claimedEvent crates e = .ok c) :
    c.Of crates e := by
  unfold Db.claimedEvent at h
  split at h
  · cases h
  split at h
  · cases h
  · rename_i henvelope
    cases h
    exact ⟨rfl, henvelope⟩

/-- A finished event has the state that the store keeps for the outcome. -/
theorem finished_state {now : Rat} {state : EventState} {submissionId error : Option String}
    (henabled : (Entry.finish e state submissionId error now).Enabled crates db) :
    ∀ f ∈ ((Entry.finish e state submissionId error now).apply crates db).events,
      f.id = e.id → f.state = state := by
  intro f hf hid
  rcases (Entry.mem_events henabled).mp hf with ⟨g, hg, rfl⟩ | hnew
  · have hkey := Event.key_eq ((Entry.finish e state submissionId error now).onEvent_key g)
    have hgid : g.id = e.id := hkey.2.1.symm.trans hid
    simp only [Entry.onEvent, if_pos hgid]
  · cases hnew

/-- An outcome for an event in flight is recorded under its own name, a retry at the attempt limit
as a death. -/
theorem finish_records (crates : Crates) {id : String} (text : String)
    {submissionId : Option String} (error : Option String) (now : Rat) {state : EventState} (he : e ∈ db.events) (hid : e.id = id)
    (hidentifier : isIdentifier id = true) (hstate : finishState? text = some state)
    (hsubmission : ∀ value ∈ submissionId, isIdentifier value = true)
    (herror : ∀ value ∈ error, value.utf8ByteSize ≤ 4096) (hflight : e.state.inFlight = true) :
    ∃ t, (finish id text submissionId error now).run db = (.ok (), t) ∧
      ∀ f ∈ t.events, f.id = id →
        f.state = state ∨ (state = .pending ∧ f.state = .dead) := by
  refine ⟨_, finish_run crates he hid hidentifier hstate hsubmission herror hflight,
    fun f hf hfid => ?_⟩
  have henabled : (Entry.finish e (storedOutcome state error e.attempts).1 submissionId
      (storedOutcome state error e.attempts).2 now).Enabled crates db :=
    ⟨he, hflight, storedOutcome_spec (finishState?_ne_submitting hstate)⟩
  have hstored := finished_state henabled f hf (hfid.trans hid.symm)
  rw [hstored]
  unfold storedOutcome
  split
  · rename_i hretry
    exact Or.inr ⟨hretry.1, rfl⟩
  · exact Or.inl rfl

/-- A deferred event waits. -/
theorem deferred_state {now : Rat} {error : String}
    (henabled : (Entry.defer e error now).Enabled crates db) :
    ∀ f ∈ ((Entry.defer e error now).apply crates db).events, f.id = e.id →
      f.state = .pending := by
  intro f hf hid
  rcases (Entry.mem_events henabled).mp hf with ⟨g, hg, rfl⟩ | hnew
  · have hkey := Event.key_eq ((Entry.defer e error now).onEvent_key g)
    have hgid : g.id = e.id := hkey.2.1.symm.trans hid
    simp only [Entry.onEvent, if_pos hgid]
  · cases hnew

section kinds

variable (id message : String) (now : Rat)

theorem recordFailure_unavailable : recordFailure id (.unavailable message) now =
    deferUnavailable id "owner unavailable before submission" now := by
  simp [recordFailure, errorKind]

theorem recordFailure_permanent : recordFailure id (.permanent message) now =
    finish id "dead" none (some "native submission rejected") now := by
  simp [recordFailure, errorKind]

theorem recordFailure_retryable : recordFailure id (.retryable message) now =
    finish id "pending" none (some "native submission temporarily rejected") now := by
  simp [recordFailure, errorKind]

theorem recordFailure_uncertain : recordFailure id (.uncertain message) now =
    finish id "uncertain" none
      (some "submission acceptance unknown; inspect before replay") now := by
  simp [recordFailure, errorKind]

end kinds

/-- A failed delivery is always recorded: the texts are the store's own. -/
theorem recordFailure_records (crates : Crates) {id : String} (error : SessionError) (now : Rat)
    (he : e ∈ db.events) (hid : e.id = id) (hidentifier : isIdentifier id = true)
    (hstate : e.state = .submitting) :
    ∃ t, (recordFailure id error now).run db = (.ok (), t) ∧
      ∀ f ∈ t.events, f.id = id →
        f.state = .pending ∨ f.state = .dead ∨ f.state = .uncertain := by
  have hflight : e.state.inFlight = true := by
    rw [hstate]
    rfl
  have hfinish : ∀ (text message : String) {state : EventState},
      finishState? text = some state → message.utf8ByteSize ≤ 4096 →
      ∃ t, (finish id text none (some message) now).run db = (.ok (), t) ∧
        ∀ f ∈ t.events, f.id = id → f.state = state ∨ (state = .pending ∧ f.state = .dead) := by
    intro text message state htext hmessage
    refine finish_records crates text (some message) now he hid hidentifier htext (by simp) ?_
      hflight
    intro value hvalue
    cases hvalue
    exact hmessage
  cases error with
  | unavailable message =>
      rw [recordFailure_unavailable]
      refine ⟨_, deferUnavailable_run crates he hid hidentifier (by decide) hstate, ?_⟩
      intro f hf hfid
      have henabled : (Entry.defer e "owner unavailable before submission" now).Enabled crates db :=
        ⟨he, hstate⟩
      exact Or.inl (deferred_state henabled f hf (hfid.trans hid.symm))
  | permanent message =>
      rw [recordFailure_permanent]
      obtain ⟨t, hrun, ht⟩ := hfinish "dead" "native submission rejected" rfl (by decide)
      refine ⟨t, hrun, fun f hf hfid => ?_⟩
      rcases ht f hf hfid with h | h
      · exact Or.inr (Or.inl h)
      · exact Or.inr (Or.inl h.2)
  | retryable message =>
      rw [recordFailure_retryable]
      obtain ⟨t, hrun, ht⟩ := hfinish "pending" "native submission temporarily rejected" rfl
        (by decide)
      refine ⟨t, hrun, fun f hf hfid => ?_⟩
      rcases ht f hf hfid with h | h
      · exact Or.inl h
      · exact Or.inr (Or.inl h.2)
  | uncertain message =>
      rw [recordFailure_uncertain]
      obtain ⟨t, hrun, ht⟩ := hfinish "uncertain"
        "submission acceptance unknown; inspect before replay" rfl (by decide)
      refine ⟨t, hrun, fun f hf hfid => ?_⟩
      rcases ht f hf hfid with h | h
      · exact Or.inr (Or.inr h)
      · exact Or.inr (Or.inl h.2)

/-- A finish with a submission that is no identifier fails. -/
theorem finish_rejects {id text submission : String} {error : Option String} {now : Rat} {t : Db}
    (h : isIdentifier submission = false) :
    (finish id text (some submission) error now).run db ≠ (.ok (), t) := by
  intro hrun
  have hvalid := (finish_valid hrun).2.1 submission rfl
  rw [h] at hvalid
  cases hvalid

end outcomes

/-! ## Stored envelopes -/

/-- The JSON parser reads an object back from the text of one. -/
def Crates.ParsesObjects (crates : Crates) : Prop :=
  ∀ fields value, crates.fromStr (canonicalJson crates (.object fields)) = some value →
    ∃ fields', value = .object fields'

/-- A stored envelope is the text of an object. -/
def IsObjectText (crates : Crates) (text : String) : Prop :=
  ∃ fields, text = canonicalJson crates (.object fields)

/-- Every envelope, of an event or of a notification, is the text of an object. -/
structure Db.EnvelopesAreObjects (crates : Crates) (db : Db) : Prop where
  events : ∀ e ∈ db.events, IsObjectText crates e.envelope
  notices : ∀ n ∈ db.requestNotifications, IsObjectText crates n.envelope

theorem Event.Ingested.isObjectText {crates : Crates} {binding : String} {envelope : Value}
    {uuid : Uuid} {now : Rat} {e : Event} (h : e.Ingested crates binding envelope uuid now) :
    IsObjectText crates e.envelope := by
  have hsource := h.source_eq
  cases envelope with
  | object fields => exact ⟨fields, h.envelope_eq⟩
  | null | bool | number | string | array => cases hsource

theorem Op.Writes.storedEnvelope {crates : Crates} {op : Op} {k : Entry}
    (h : op.Writes crates k) {e : Event} (hk : k = .store e) : IsObjectText crates e.envelope := by
  subst hk
  cases h with
  | ingest he => exact he.isObjectText
  | sample he => exact he.isObjectText

theorem Db.EnvelopesAreObjects.apply {crates : Crates} {db : Db} {k : Entry}
    (hdb : db.EnvelopesAreObjects crates) (h : k.Enabled crates db)
    (hstore : ∀ e, k = .store e → IsObjectText crates e.envelope) :
    (k.apply crates db).EnvelopesAreObjects crates where
  events := by
    intro e he
    rcases (Entry.mem_events h).mp he with ⟨f, hf, rfl⟩ | hnew
    · rw [(Event.key_eq (k.onEvent_key f)).2.2.2.2.2.2.1]
      exact hdb.events f hf
    · cases k with
      | store f =>
          cases hnew
          exact hstore e rfl
      | deliver n f now =>
          cases hnew
          obtain ⟨hready, _, _, _, _, _, henvelope, _⟩ := h
          rw [henvelope]
          exact hdb.notices n hready.mem
      | _ => cases hnew
  notices := by
    intro n hn
    rcases (Entry.mem_notices h).mp hn with ⟨m, hm, rfl⟩ | hnew
    · rw [(RequestNotification.key_eq (k.onNotice_key db m)).2.2.2.2.2.2.2]
      exact hdb.notices m hm
    · obtain ⟨r, updateId, state, detail, now, rfl, _, rfl⟩ := Entry.transition_of_notice hnew
      exact ⟨_, rfl⟩

theorem Reachable.envelopesAreObjects {crates : Crates} {db : Db} (h : Reachable crates db) :
    db.EnvelopesAreObjects crates := by
  refine LeadsBy.invariant (P := fun d => d.EnvelopesAreObjects crates) ?_ h
    ⟨fun e he => absurd he (Table.not_mem_empty e), fun n hn => absurd hn (Table.not_mem_empty n)⟩
  intro d op hd _
  exact (op.commits crates d).invariant
    (fun k hw _ hk hdb => hdb.apply hk fun e hke => hw.storedEnvelope hke) hd

/-- Every event is named by a UUID. -/
theorem Reachable.eventId_isIdentifier {crates : Crates} {db : Db} (h : Reachable crates db) :
    ∀ e ∈ db.events, isIdentifier e.id = true := by
  refine Leads.invariant (P := fun d => ∀ e ∈ d.events, isIdentifier e.id = true) h ?_
    fun e he => absurd he (Table.not_mem_empty e)
  intro k d hk hd e he
  rcases (Entry.mem_events hk).mp he with ⟨f, hf, rfl⟩ | hnew
  · rw [(Event.key_eq (k.onEvent_key f)).2.1]
    exact hd f hf
  · obtain ⟨_, _, uuid, hid, _⟩ := Entry.fresh_of_new hk hnew
    rw [hid]
    exact uuid.isIdentifier

/-- A claimed envelope is an object, so it is never parsed a second time. -/
theorem claimedEnvelope_run {crates : Crates} (db : Db) (hserde : crates.ParsesObjects)
    {e : Event} {c : ClaimedEvent} (htext : IsObjectText crates e.envelope)
    (hc : c.Of crates e) :
    (claimedEnvelope crates c.envelope).run db = (.ok c.envelope, db) := by
  obtain ⟨fields, htext⟩ := htext
  have hparse := hc.envelope_eq
  rw [htext] at hparse
  obtain ⟨fields', hobject⟩ := hserde fields _ hparse
  rw [hobject]
  rfl

end CodexMonitor
