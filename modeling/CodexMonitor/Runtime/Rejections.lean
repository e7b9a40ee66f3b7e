import CodexMonitor.Store.Dedup
import CodexMonitor.Runtime.Categories

/-!
# Rejections of the intake

The message of every rule that turns `ingest`, `requestCreate` or `requestUpdate` away is followed
to its status.  `Slips` says on which inputs and in which states the message is one that
`storageError` takes for an outage, or one whose status the client's text picks.
-/

namespace CodexMonitor

open Transaction

/-! ## Calls and their rejections -/

/-- The message of the rule that turns `call` away; a failure of the database is none. -/
def rejectionOf {α : Type} (call : StoreM α) (db : Db) : Option String :=
  match (call.run db).1 with
  | .error (.bail message) => some message
  | _ => none

theorem rejectionOf_eq_some {α : Type} {call : StoreM α} {db : Db} {message : String} :
    rejectionOf call db = some message ↔ (call.run db).1 = .error (.bail message) := by
  unfold rejectionOf
  split
  · rename_i m hm
    rw [hm]
    simp
  · rename_i hother
    constructor
    · intro h
      cases h
    · intro h
      exact absurd h (hother message)

/-- A call of the intake. -/
inductive IntakeCall
  | ingest (binding : String) (envelope : Value) (uuid : Uuid) (now : Rat)
  | requestCreate (thread source key deliveryId : String) (payload : Value)
      (expiresAt : Option F64) (uuid : Uuid) (now : Rat)
  | requestUpdate (thread source key updateId state : String) (expectedRevision : Option Int)
      (detail : Option String) (now : Rat)

def IntakeCall.rejection (crates : Crates) (db : Db) : IntakeCall → Option String
  | .ingest binding envelope uuid now =>
      rejectionOf (CodexMonitor.ingest crates binding envelope uuid now) db
  | .requestCreate thread source key deliveryId payload expiresAt uuid now =>
      rejectionOf (CodexMonitor.requestCreate crates thread source key deliveryId payload expiresAt
        uuid now) db
  | .requestUpdate thread source key updateId state expectedRevision detail now =>
      rejectionOf (CodexMonitor.requestUpdate crates thread source key updateId state
        expectedRevision detail now) db

/-! ## Where the calls slip -/

/-- The name that the envelope check stops at. -/
def Value.unknownField (envelope : Value) : Option String :=
  ((envelope.asObject.getD []).map Prod.fst).find? fun key => key ∉ envelopeFields

def Value.missingField (envelope : Value) : Option String :=
  requiredFields.find? fun key => (envelope.get key).isNone

/-- The envelope is refused for an unknown field with a misleading name, or for want of a field
other than its source. -/
def Value.FieldsSlip (envelope : Value) : Prop :=
  envelope.asObject.isSome = true ∧
    ((∃ key, envelope.unknownField = some key ∧ Misleading key) ∨
      (envelope.unknownField = none ∧
        ∃ field, envelope.missingField = some field ∧ field ≠ "source"))

/-- An admissible event on a route with room, in a trace without any. -/
structure Db.TraceFull (crates : Crates) (db : Db) (binding : String) (envelope : Value)
    (now : Rat) (source id : String) (b : Binding) : Prop where
  envelope_ok : envelope.IsEnvelope crates source id
  routed : db.bindings.find? (fun b => b.name = binding) = some b
  allowed : source ∈ b.sources
  fresh : db.eventAt binding source id = none
  enabled : ¬ (b.enabled = false ∨ b.removed = true)
  queue : db.openEvents b.name < maxPending
  pace : db.recentEvents b.name now < rateLimit
  full : ∃ n, db.traceEvents crates (envelope.getStr "trace_id") = some n ∧ traceLimit ≤ n

/-- A request for a delivery of its source that belongs to another thread. -/
structure Db.ForeignThread (crates : Crates) (db : Db) (thread source key deliveryId : String)
    (payload : Value) (expiresAt : Option F64) (e : Event) (b : Binding) : Prop where
  thread_valid : isIdentifier thread = true
  source_valid : isIdentifier source = true
  key_valid : isIdentifier key = true
  delivery_valid : isIdentifier deliveryId = true
  size_le : (canonicalJson crates payload).utf8ByteSize ≤ maxRequestBytes
  expiry_valid : ∃ expiry, validExpiry expiresAt = some expiry
  delivered : db.events.find? (fun e => e.id = deliveryId) = some e
  source_eq : e.source = source
  routed : db.bindings.find? (fun b => b.name = e.binding) = some b
  foreign : b.thread ≠ thread

/-- The calls that end as an outage, or under a status that the client's text picks. -/
def IntakeCall.Slips (crates : Crates) (db : Db) : IntakeCall → Prop
  | .ingest binding envelope _ now =>
      isIdentifier binding = true ∧
        (envelope.FieldsSlip ∨
          ∃ source id b, db.TraceFull crates binding envelope now source id b)
  | .requestCreate thread source key deliveryId payload expiresAt _ _ =>
      ∃ e b, db.ForeignThread crates thread source key deliveryId payload expiresAt e b
  | .requestUpdate .. => False

/-! ## Calls that slip -/

section slips

variable {crates : Crates} {db : Db}

theorem withTx_error {α : Type} {body : StoreM α} {error : StoreError}
    (h : body.run db = (.error error, db)) : (withTx body).run db = (.error error, db) := by
  unfold withTx Tx.atomically
  simp only [h]

theorem validateEnvelope_unknown {envelope : Value} {key : String}
    (hobject : envelope.asObject.isSome = true) (hkey : envelope.unknownField = some key) :
    (validateEnvelope crates envelope).run db =
      (.error (.bail (Rule.unknownField.words ++ key)), db) := by
  obtain ⟨fields, hfields⟩ := Option.isSome_iff_exists.mp hobject
  unfold Value.unknownField at hkey
  rw [hfields, Option.getD_some] at hkey
  unfold validateEnvelope
  rw [hfields, Tx.run_expect_bind]
  simp only [hkey]
  exact Tx.run_bind_of_error (bailIf_refuses (by simp) _ db) _

theorem validateEnvelope_missing {envelope : Value} {field : String}
    (hobject : envelope.asObject.isSome = true) (hknown : envelope.unknownField = none)
    (hfield : envelope.missingField = some field) :
    (validateEnvelope crates envelope).run db =
      (.error (.bail ("event requires " ++ field)), db) := by
  obtain ⟨fields, hfields⟩ := Option.isSome_iff_exists.mp hobject
  unfold Value.unknownField at hknown
  rw [hfields, Option.getD_some] at hknown
  unfold Value.missingField at hfield
  unfold validateEnvelope
  rw [hfields, Tx.run_expect_bind]
  simp only [hknown, hfield]
  rw [Tx.run_bind_of_ok (bailIf_run_ok (u := ()).mpr ⟨by simp, rfl⟩)]
  exact Tx.run_bind_of_error (bailIf_refuses (by simp) _ db) _

/-- A full trace turns the event away with the words of its rule. -/
theorem ingestTx_traceFull {binding source id : String} {envelope : Value} {uuid : Uuid}
    {now : Rat} {b : Binding} (h : db.TraceFull crates binding envelope now source id b) :
    (ingestTx crates binding envelope uuid now).run db = (.error (.bail Rule.trace.words), db) := by
  have hvalid : (validateEnvelope crates envelope).run db =
      (.ok (source, id, canonicalJson crates envelope), db) :=
    validateEnvelope_run.mpr ⟨h.envelope_ok, rfl, rfl⟩
  unfold ingestTx
  rw [Tx.run_bind_of_ok hvalid]
  simp only
  rw [Tx.run_query_bind, h.routed, Tx.run_expect_bind,
    Tx.run_bind_of_ok (bailIf_run_ok (u := ()).mpr ⟨not_not.mpr h.allowed, rfl⟩),
    Tx.run_query_bind, h.fresh]
  unfold storeEvent
  rw [Tx.run_bind_of_ok (bailIf_run_ok (u := ()).mpr ⟨h.enabled, rfl⟩), Tx.run_query_bind,
    Tx.run_bind_of_ok (bailIf_run_ok (u := ()).mpr ⟨Nat.not_le_of_lt h.queue, rfl⟩),
    Tx.run_query_bind,
    Tx.run_bind_of_ok (bailIf_run_ok (u := ()).mpr ⟨Nat.not_le_of_lt h.pace, rfl⟩),
    Tx.run_query_bind]
  obtain ⟨count, hcount, hfull⟩ := h.full
  rw [hcount, Tx.run_expect_bind]
  exact Tx.run_bind_of_error (bailIf_refuses hfull _ db) _

theorem requestCreate_foreignThread {thread source key deliveryId : String} {payload : Value}
    {expiresAt : Option F64} {uuid : Uuid} {now : Rat} {e : Event} {b : Binding}
    (h : db.ForeignThread crates thread source key deliveryId payload expiresAt e b) :
    (requestCreate crates thread source key deliveryId payload expiresAt uuid now).run db =
      (.error (.bail Rule.requestThread.words), db) := by
  obtain ⟨expiry, hexpiry⟩ := h.expiry_valid
  unfold requestCreate
  rw [Tx.run_bind_of_ok (validateIdentifier_ok (u := ()).mpr ⟨h.thread_valid, rfl⟩),
    Tx.run_bind_of_ok (validateIdentifier_ok (u := ()).mpr ⟨h.source_valid, rfl⟩),
    Tx.run_bind_of_ok (validateIdentifier_ok (u := ()).mpr ⟨h.key_valid, rfl⟩),
    Tx.run_bind_of_ok (validateIdentifier_ok (u := ()).mpr ⟨h.delivery_valid, rfl⟩),
    Tx.run_bind_of_ok (bailIf_run_ok (u := ()).mpr ⟨Nat.not_lt.mpr h.size_le, rfl⟩), hexpiry,
    Tx.run_expect_bind]
  refine withTx_error ?_
  rw [Tx.run_query_bind, h.delivered, Tx.run_expect_bind,
    Tx.run_bind_of_ok (bailIf_run_ok (u := ()).mpr ⟨not_not.mpr h.source_eq, rfl⟩),
    Tx.run_query_bind, h.routed, Tx.run_expect_bind]
  exact Tx.run_bind_of_error (bailIf_refuses h.foreign _ db) _

/-- The rejection of a call that slips is not reported. -/
theorem IntakeCall.Slips.unreported {call : IntakeCall} (h : call.Slips crates db) :
    ∃ m, call.rejection crates db = some m ∧ ¬ Reported m := by
  cases call with
  | ingest binding envelope uuid now =>
      obtain ⟨hbinding, hslip⟩ := h
      have hrejection : ∀ m, (ingestTx crates binding envelope uuid now).run db =
          (.error (.bail m), db) →
          (IntakeCall.ingest binding envelope uuid now).rejection crates db = some m := by
        intro m hbody
        have hrun : (CodexMonitor.ingest crates binding envelope uuid now).run db =
            (.error (.bail m), db) := by
          unfold CodexMonitor.ingest
          rw [Tx.run_bind_of_ok (validateIdentifier_ok (u := ()).mpr ⟨hbinding, rfl⟩)]
          exact withTx_error hbody
        exact rejectionOf_eq_some.mpr (congrArg Prod.fst hrun)
      rcases hslip with ⟨hobject, hfields⟩ | hfull
      · rcases hfields with ⟨key, hkey, hmisleading⟩ | ⟨hknown, field, hfield, hother⟩
        · exact ⟨_, hrejection _ (Tx.run_bind_of_error (validateEnvelope_unknown hobject hkey) _),
            fun hreported => (reported_unknownField key).mp hreported hmisleading⟩
        · have hmem : field ∈ requiredFields := List.mem_of_find?_eq_some hfield
          exact ⟨_, hrejection _
            (Tx.run_bind_of_error (validateEnvelope_missing hobject hknown hfield) _),
            @Rule.not_reported (.required field hmem) (decide_eq_false hother)⟩
      · obtain ⟨source, id, b, hfull⟩ := hfull
        exact ⟨_, hrejection _ (ingestTx_traceFull hfull), Rule.not_reported (by rfl)⟩
  | requestCreate thread source key deliveryId payload expiresAt uuid now =>
      obtain ⟨e, b, hforeign⟩ := h
      exact ⟨_, rejectionOf_eq_some.mpr (congrArg Prod.fst (requestCreate_foreignThread hforeign)),
        Rule.not_reported (by rfl)⟩
  | requestUpdate => exact h.elim

end slips

/-! ## Calls that do not slip -/

theorem avoids_storedValue {crates : Crates} {db : Db} {m : String} (r : Request) :
    Tx.Avoids (Tx.ofExcept (requestValue crates r)) (.bail m) db := by
  refine Tx.avoids_ofExcept ?_
  unfold requestValue
  split <;> simp

section matched

variable {crates : Crates} {db : Db} {m : String} (hm : ¬ Reported m)

include hm

theorem ne_of_rule (rule : Rule) (h : rule.isMatched = true) :
    StoreError.bail rule.words ≠ .bail m := by
  intro heq
  obtain rfl := StoreError.bail.inj heq
  exact hm (Rule.reported h)

theorem avoids_rule (rule : Rule) (h : rule.isMatched = true) (c : Prop) [Decidable c] :
    Tx.Avoids (bailIf c rule.words) (.bail m) db :=
  Tx.avoids_bailIf fun _ => ne_of_rule hm rule h

theorem avoids_identifier {label : String} (known : label ∈ identifierLabels) (value : String) :
    Tx.Avoids (validateIdentifier value label) (.bail m) db :=
  avoids_rule hm (.identifier label known) rfl _

theorem validateEnvelope_avoids {envelope : Value} (hslip : ¬ envelope.FieldsSlip) :
    Tx.Avoids (validateEnvelope crates envelope) (.bail m) db := by
  unfold validateEnvelope
  refine (Tx.avoids_expect (ne_of_rule hm .object rfl) _).bind fun fields s hrun => ?_
  obtain ⟨hfields, rfl⟩ := Tx.expect_ok.mp hrun
  have hobject : envelope.asObject.isSome = true := by rw [hfields]; rfl
  have hunknown : (fields.map Prod.fst).find? (fun key => key ∉ envelopeFields) =
      envelope.unknownField := by
    unfold Value.unknownField
    rw [hfields, Option.getD_some]
  simp only [hunknown]
  refine Tx.Avoids.bind ?_ fun _ s hrun => ?_
  · refine Tx.avoids_bailIf fun hsome heq => ?_
    obtain ⟨key, hkey⟩ := Option.ne_none_iff_exists'.mp hsome
    rw [hkey, Option.getD_some] at heq
    have hplain : ¬ Misleading key := fun h => hslip ⟨hobject, Or.inl ⟨key, hkey, h⟩⟩
    obtain rfl := StoreError.bail.inj heq
    exact hm ((reported_unknownField key).mpr hplain)
  obtain ⟨hknown, rfl⟩ := bailIf_run_ok.mp hrun
  have hknown := not_not.mp hknown
  refine Tx.Avoids.bind ?_ fun _ s _ => ?_
  · refine Tx.avoids_bailIf fun hsome => ?_
    obtain ⟨field, hfield⟩ := Option.ne_none_iff_exists'.mp hsome
    have hsource : field = "source" :=
      Decidable.byContradiction fun h => hslip ⟨hobject, Or.inr ⟨hknown, field, hfield, h⟩⟩
    subst hsource
    rw [hfield, Option.getD_some]
    exact ne_of_rule hm (.required "source" (by decide)) rfl
  refine (Tx.avoids_expect
    (ne_of_rule hm (.identifierText "event id" (by decide)) rfl) _).bind fun id s _ => ?_
  refine (Tx.avoids_expect
    (ne_of_rule hm (.identifierText "event source" (by decide)) rfl) _).bind
      fun source s _ => ?_
  refine (Tx.avoids_expect
    (ne_of_rule hm (.identifierText "event type" (by decide)) rfl) _).bind
      fun eventType s _ => ?_
  refine (avoids_identifier hm (by decide) _).bind fun _ s _ => ?_
  refine (avoids_identifier hm (by decide) _).bind fun _ s _ => ?_
  refine (avoids_identifier hm (by decide) _).bind fun _ s _ => ?_
  have htrace : Tx.Avoids (validateTraceId (envelope.get "trace_id")) (.bail m) s := by
    cases envelope.get "trace_id" with
    | none => exact Tx.avoids_pure ()
    | some value =>
        exact (Tx.avoids_expect
          (ne_of_rule hm (.identifierText "trace_id" (by decide)) rfl) _).bind
            fun _ _ _ => avoids_identifier hm (by decide) _
  refine htrace.bind fun _ s _ => ?_
  refine (Tx.avoids_expect (ne_of_rule hm .hops rfl) _).bind fun hops s _ => ?_
  refine (avoids_rule hm .hops rfl _).bind fun _ s _ => ?_
  exact (avoids_rule hm .envelopeSize rfl _).bind fun _ s _ => Tx.avoids_pure _

theorem ingestTx_avoids {binding : String} {envelope : Value} {uuid : Uuid} {now : Rat}
    (hfields : ¬ envelope.FieldsSlip)
    (htrace : ∀ source id b, ¬ db.TraceFull crates binding envelope now source id b) :
    Tx.Avoids (ingestTx crates binding envelope uuid now) (.bail m) db := by
  unfold ingestTx
  refine (validateEnvelope_avoids hm hfields).bind fun valid s hrun => ?_
  obtain ⟨source, id, encoded⟩ := valid
  obtain ⟨henvelope, _, rfl⟩ := validateEnvelope_run.mp hrun
  refine (Tx.avoids_query _).bind fun row s hrun => ?_
  obtain ⟨rfl, rfl⟩ := Tx.query_ok.mp hrun
  refine (Tx.avoids_expect (ne_of_rule hm .binding rfl) _).bind fun b s hrun => ?_
  obtain ⟨hrouted, rfl⟩ := Tx.expect_ok.mp hrun
  refine (avoids_rule hm .source rfl _).bind fun _ s hrun => ?_
  obtain ⟨hallowed, rfl⟩ := bailIf_run_ok.mp hrun
  refine (Tx.avoids_query _).bind fun existing s hrun => ?_
  obtain ⟨hexisting, rfl⟩ := Tx.query_ok.mp hrun
  cases existing with
  | some e => exact (avoids_rule hm .content rfl _).bind fun _ _ _ => Tx.avoids_pure _
  | none =>
      unfold storeEvent
      refine (avoids_rule hm .disabled rfl _).bind fun _ s hrun => ?_
      obtain ⟨henabled, rfl⟩ := bailIf_run_ok.mp hrun
      refine (Tx.avoids_query _).bind fun pending s hrun => ?_
      obtain ⟨rfl, rfl⟩ := Tx.query_ok.mp hrun
      refine (avoids_rule hm .pending rfl _).bind fun _ s hrun => ?_
      obtain ⟨hqueue, rfl⟩ := bailIf_run_ok.mp hrun
      refine (Tx.avoids_query _).bind fun recent s hrun => ?_
      obtain ⟨rfl, rfl⟩ := Tx.query_ok.mp hrun
      refine (avoids_rule hm .rate rfl _).bind fun _ s hrun => ?_
      obtain ⟨hpace, rfl⟩ := bailIf_run_ok.mp hrun
      refine (Tx.avoids_query _).bind fun counted s hrun => ?_
      obtain ⟨rfl, rfl⟩ := Tx.query_ok.mp hrun
      refine (Tx.avoids_expect (by simp) _).bind fun trace s hrun => ?_
      obtain ⟨hcounted, rfl⟩ := Tx.expect_ok.mp hrun
      refine Tx.Avoids.bind ?_ fun _ s _ => ?_
      · -- the one check whose words no search matches
        refine Tx.avoids_bailIf fun hfull => absurd ?_ (htrace source id b)
        exact ⟨henvelope, hrouted, not_not.mp hallowed, hexisting, henabled, Nat.lt_of_not_le hqueue,
          Nat.lt_of_not_le hpace, trace, hcounted, hfull⟩
      · exact (Tx.avoids_attempt (by simp) _).bind fun _ _ _ => Tx.avoids_pure _

theorem requestCreate_avoids {thread source key deliveryId : String} {payload : Value}
    {expiresAt : Option F64} {uuid : Uuid} {now : Rat}
    (hthread : ∀ e b,
      ¬ db.ForeignThread crates thread source key deliveryId payload expiresAt e b) :
    Tx.Avoids (requestCreate crates thread source key deliveryId payload expiresAt uuid now)
      (.bail m) db := by
  unfold requestCreate
  refine (avoids_identifier hm (by decide) _).bind fun _ s hrun => ?_
  obtain ⟨hthreadOk, rfl⟩ := validateIdentifier_ok.mp hrun
  refine (avoids_identifier hm (by decide) _).bind fun _ s hrun => ?_
  obtain ⟨hsourceOk, rfl⟩ := validateIdentifier_ok.mp hrun
  refine (avoids_identifier hm (by decide) _).bind fun _ s hrun => ?_
  obtain ⟨hkeyOk, rfl⟩ := validateIdentifier_ok.mp hrun
  refine (avoids_identifier hm (by decide) _).bind fun _ s hrun => ?_
  obtain ⟨hdeliveryOk, rfl⟩ := validateIdentifier_ok.mp hrun
  refine (avoids_rule hm .payloadSize rfl _).bind fun _ s hrun => ?_
  obtain ⟨hsize, rfl⟩ := bailIf_run_ok.mp hrun
  refine (Tx.avoids_expect (ne_of_rule hm .expiry rfl) _).bind fun expiry s hrun => ?_
  obtain ⟨hexpiry, rfl⟩ := Tx.expect_ok.mp hrun
  refine Tx.Avoids.atomically ?_
  refine (Tx.avoids_query _).bind fun parent s hrun => ?_
  obtain ⟨rfl, rfl⟩ := Tx.query_ok.mp hrun
  refine (Tx.avoids_expect (ne_of_rule hm .event rfl) _).bind fun e s hrun => ?_
  obtain ⟨hdelivered, rfl⟩ := Tx.expect_ok.mp hrun
  refine (avoids_rule hm .requestSource rfl _).bind fun _ s hrun => ?_
  obtain ⟨hsource, rfl⟩ := bailIf_run_ok.mp hrun
  refine (Tx.avoids_query _).bind fun target s hrun => ?_
  obtain ⟨rfl, rfl⟩ := Tx.query_ok.mp hrun
  refine (Tx.avoids_expect (by simp) _).bind fun b s hrun => ?_
  obtain ⟨hrouted, rfl⟩ := Tx.expect_ok.mp hrun
  refine Tx.Avoids.bind ?_ fun _ s _ => ?_
  · -- the one check whose words no search matches
    refine Tx.avoids_bailIf fun hforeign => absurd ?_ (hthread e b)
    exact ⟨hthreadOk, hsourceOk, hkeyOk, hdeliveryOk, Nat.le_of_not_lt hsize, ⟨expiry, hexpiry⟩,
      hdelivered, not_not.mp hsource, hrouted, hforeign⟩
  refine (Tx.avoids_query _).bind fun old s _ => ?_
  cases old with
  | some r =>
      refine (avoids_storedValue r).bind fun value s _ => ?_
      exact (avoids_rule hm .requestKey rfl _).bind fun _ _ _ => Tx.avoids_pure _
  | none =>
      refine (Tx.avoids_query _).bind fun count s _ => ?_
      refine (avoids_rule hm .requests rfl _).bind fun _ s _ => ?_
      refine (Tx.avoids_attempt (by simp) _).bind fun _ s _ => ?_
      refine (Tx.avoids_query _).bind fun row s _ => ?_
      refine (Tx.avoids_expect (by simp) _).bind fun row s _ => ?_
      exact (avoids_storedValue row).bind fun _ _ _ => Tx.avoids_pure _

theorem recordTransition_matched (r : Request) (updateId : String) (expected : Int)
    (state : RequestState) (detail : Option String) (now : Rat) :
    Tx.Avoids (recordTransition crates r updateId expected state detail now) (.bail m) db := by
  unfold recordTransition
  refine (Tx.avoids_attempt (by simp) _).bind fun _ s _ => ?_
  refine (Tx.avoids_query _).bind fun changed s _ => ?_
  refine (avoids_rule hm .conflict rfl _).bind fun _ s _ => ?_
  refine (Tx.avoids_write _).bind fun _ s _ => ?_
  unfold insertRequestNotificationTx
  refine Tx.Avoids.ite (fun _ => Tx.avoids_pure ()) fun _ => ?_
  refine (Tx.avoids_query _).bind fun pending s _ => ?_
  exact (avoids_rule hm .notifications rfl _).bind fun _ _ _ => Tx.avoids_attempt (by simp) _

theorem requestUpdate_matched (thread source key updateId state : String)
    (expectedRevision : Option Int) (detail : Option String) (now : Rat) :
    Tx.Avoids (requestUpdate crates thread source key updateId state expectedRevision detail now)
      (.bail m) db := by
  have hanswer : ∀ (requestId : String) (duplicate : Bool) (s : Db), Tx.Avoids (do
      let row ← Tx.query fun db => db.requestById requestId
      let row ← Tx.expect (.sqlite "Query returned no rows") row
      let value ← Tx.ofExcept (requestValue crates row)
      pure (⟨value, duplicate, updateId⟩ : UpdateAnswer)) (.bail m) s :=
    fun requestId duplicate s => (Tx.avoids_query _).bind fun _ _ _ =>
      (Tx.avoids_expect (by simp) _).bind fun _ _ _ =>
        (avoids_storedValue _).bind fun _ _ _ => Tx.avoids_pure _
  unfold requestUpdate
  refine (avoids_identifier hm (by decide) _).bind fun _ s _ => ?_
  refine (avoids_identifier hm (by decide) _).bind fun _ s _ => ?_
  refine (avoids_identifier hm (by decide) _).bind fun _ s _ => ?_
  refine (avoids_identifier hm (by decide) _).bind fun _ s _ => ?_
  refine (Tx.avoids_expect (ne_of_rule hm .state rfl) _).bind fun state s _ => ?_
  refine (avoids_rule hm .revision rfl _).bind fun _ s _ => ?_
  have hdetail : Tx.Avoids (validateDetail detail) (.bail m) s := by
    cases detail with
    | none => exact Tx.avoids_pure ()
    | some detail => exact avoids_rule hm .detail rfl _
  refine hdetail.bind fun _ s _ => Tx.Avoids.atomically ?_
  refine (Tx.avoids_query _).bind fun row s _ => ?_
  refine (Tx.avoids_expect (ne_of_rule hm .request rfl) _).bind fun r s _ => ?_
  refine (Tx.avoids_query _).bind fun prior s _ => ?_
  cases prior with
  | some u =>
      exact (avoids_rule hm .updateContent rfl _).bind fun _ _ _ => hanswer r.requestId true _
  | none =>
      refine (avoids_rule hm .conflict rfl _).bind fun _ s _ => ?_
      refine (avoids_rule hm .transition rfl _).bind fun _ s _ => ?_
      refine (Tx.avoids_query _).bind fun count s _ => ?_
      refine (avoids_rule hm .updates rfl _).bind fun _ s _ => ?_
      exact (recordTransition_matched hm r updateId _ state detail now).bind fun _ _ _ =>
        hanswer r.requestId false _

/-- A message that is not reported ends no call that does not slip. -/
theorem IntakeCall.rejection_ne {call : IntakeCall} (h : ¬ call.Slips crates db) :
    call.rejection crates db ≠ some m := by
  intro hrejection
  cases call with
  | ingest binding envelope uuid now =>
      have hcall : Tx.Avoids (CodexMonitor.ingest crates binding envelope uuid now) (.bail m)
          db := by
        refine (avoids_identifier hm (by decide) _).bind fun _ s hrun => Tx.Avoids.atomically ?_
        obtain ⟨hbinding, rfl⟩ := validateIdentifier_ok.mp hrun
        have hslip := not_or.mp fun hslip => h ⟨hbinding, hslip⟩
        exact ingestTx_avoids hm hslip.1 fun source id b hfull => hslip.2 ⟨source, id, b, hfull⟩
      exact hcall (rejectionOf_eq_some.mp hrejection)
  | requestCreate thread source key deliveryId payload expiresAt uuid now =>
      have hcall : Tx.Avoids (CodexMonitor.requestCreate crates thread source key deliveryId payload
          expiresAt uuid now) (.bail m) db :=
        requestCreate_avoids hm fun e b hforeign => h ⟨e, b, hforeign⟩
      exact hcall (rejectionOf_eq_some.mp hrejection)
  | requestUpdate thread source key updateId state expectedRevision detail now =>
      exact requestUpdate_matched hm _ _ _ _ _ _ _ _ (rejectionOf_eq_some.mp hrejection)

end matched

/-- **Rejections are reported.**  A call that a rule turns away is reported under a status of the
400s that the rule alone decides exactly when it does not slip. -/
theorem intake_reported_iff (crates : Crates) (db : Db) (call : IntakeCall) :
    (∀ m, call.rejection crates db = some m → Reported m) ↔ ¬ call.Slips crates db := by
  constructor
  · intro hreported hslips
    obtain ⟨m, hrejection, hunreported⟩ := hslips.unreported
    exact hunreported (hreported m hrejection)
  · intro hslips m hrejection
    by_cases hm : Reported m
    · exact hm
    · exact absurd hrejection (IntakeCall.rejection_ne hm hslips)

/-- An event without data is refused as if the database were out of order. -/
theorem intake_reported_fails :
    ¬ ∀ (crates : Crates) (db : Db), Reachable crates db → ∀ (call : IntakeCall) (m : String),
      call.rejection crates db = some m → Reported m := by
  intro h
  have hslips : (IntakeCall.ingest "inbox" (.object [("id", .string "build-7"),
      ("source", .string "ci"), ("type", .string "build.failed")]) (sampleUuid 1) 0).Slips printer
      Db.empty :=
    ⟨by decide, Or.inl ⟨rfl, Or.inr ⟨by decide, "data", by decide,
      by decide⟩⟩⟩
  obtain ⟨m, hrejection, hunreported⟩ := hslips.unreported
  exact hunreported (h printer Db.empty Relation.ReflTransGen.refl _ m hrejection)

end CodexMonitor
