import CodexMonitor.Store.Capacity
import CodexMonitor.Store.Checkpoints
import CodexMonitor.Store.Dedup
import Mathlib.Data.Real.Basic
import Mathlib.Data.Rat.Cast.Order
import Mathlib.Tactic.Linarith
import Mathlib.Tactic.NormNum

/-!
# Admission limits

Intake and the outbox each check the queue, the rate and, for intake, the trace
budget of what they are about to store.  No entry opens a settled event again,
so the queue limit holds for ever.  The rate is checked over the minute before
one reading of the clock; the last event stored of any minute was checked over a
minute that covers the others, whatever the clock did in between.  The trace budget is counted
by the database, which has to read the stored envelopes for it: a count that
succeeds has read the trace of every one of them.
-/

namespace CodexMonitor

open Transaction

/-! ## Queue and rate -/

/-- The event was created in the minute that ends at `t`. -/
def Event.InMinute (binding : String) (t : ℝ) (e : Event) : Prop :=
  e.binding = binding ∧ t - 60 < (e.created : ℝ) ∧ (e.created : ℝ) ≤ t

open Classical in
/-- The events of a binding created in the minute that ends at `t`. -/
noncomputable def Db.minuteEvents (db : Db) (binding : String) (t : ℝ) : Nat :=
  db.events.count (Event.InMinute binding t)

/-- The queue and the rate limits of every binding. -/
structure Db.Admitted (db : Db) : Prop where
  open_le : ∀ binding, db.openEvents binding ≤ maxPending
  minute_le : ∀ binding t, db.minuteEvents binding t ≤ rateLimit

section entries

variable {crates : Crates} {db : Db} {k : Entry}

/-- No entry opens a settled event. -/
theorem Entry.onEvent_open (h : k.Enabled crates db) {e : Event} (he : e ∈ db.events)
    (hopen : (k.onEvent e).state.isOpen = true) : e.state.isOpen = true := by
  by_contra hclosed
  have hsettled : e.state.Settled := by
    unfold EventState.Settled
    cases hstate : e.state with
    | accepted | dead | ignored => simp
    | pending | submitting | uncertain =>
        rw [hstate] at hclosed
        exact absurd rfl hclosed
  rw [Entry.onEvent_settled h he hsettled] at hopen
  exact hclosed hopen

/-- Intake and the outbox check the queue and the rate of the binding they store under, at the
reading of the clock the event is created with. -/
theorem Entry.newEvent_room (h : k.Enabled crates db) {e : Event} (hnew : k.newEvent? = some e) :
    db.openEvents e.binding < maxPending ∧ db.recentEvents e.binding e.created < rateLimit := by
  cases k with
  | store f =>
      cases hnew
      obtain ⟨_, _, _, _, traceId, hroom⟩ := h
      exact ⟨hroom.open_lt, hroom.recent_lt⟩
  | deliver n f now =>
      cases hnew
      obtain ⟨_, _, _, _, _, _, _, _, hcreated, _, hroom⟩ := h
      rw [hcreated]
      exact ⟨hroom.open_lt, hroom.recent_lt⟩
  | _ => cases hnew

theorem Db.Admitted.open_apply (hdb : db.Admitted) (h : k.Enabled crates db) (binding : String) :
    (k.apply crates db).openEvents binding ≤ maxPending := by
  have hold : (db.events.rows.map k.onEvent).countP
      (fun e => e.binding = binding ∧ e.state.isOpen = true) ≤ db.openEvents binding := by
    refine countP_map_le fun e he hopen => ⟨?_, Entry.onEvent_open h he hopen.2⟩
    rw [← (Event.key_eq (k.onEvent_key e)).2.2.2.1]
    exact hopen.1
  unfold Db.openEvents Table.count at *
  rw [Entry.rows_events h, List.countP_append]
  cases hnew : k.newEvent? with
  | none =>
      have hle := hdb.open_le binding
      unfold Db.openEvents Table.count at hle
      simp only [Option.toList_none, List.countP_nil]
      omega
  | some e =>
      by_cases hbinding : e.binding = binding
      · subst hbinding
        have hlt := (Entry.newEvent_room h hnew).1
        unfold Db.openEvents Table.count at hlt
        have hone : [e].countP (fun f => f.binding = e.binding ∧ f.state.isOpen = true) ≤ 1 :=
          List.countP_le_length
        simp only [Option.toList_some]
        omega
      · have hle := hdb.open_le binding
        unfold Db.openEvents Table.count at hle
        simp only [Option.toList_some, List.countP_singleton, hbinding, false_and, decide_false,
          Bool.false_eq_true, if_false]
        omega

open Classical in
/-- The last event of a minute was checked over a minute that covers it. -/
theorem Db.Admitted.minute_apply (hdb : db.Admitted) (h : k.Enabled crates db) (binding : String)
    (t : ℝ) : (k.apply crates db).minuteEvents binding t ≤ rateLimit := by
  have hold : (db.events.rows.map k.onEvent).countP (Event.InMinute binding t) =
      db.minuteEvents binding t := by
    rw [List.countP_map]
    refine List.countP_congr fun e _ => ?_
    have hkey := Event.key_eq (k.onEvent_key e)
    have hiff : (k.onEvent e).InMinute binding t ↔ e.InMinute binding t := by
      simp only [Event.InMinute, hkey.2.2.2.1, hkey.2.2.2.2.2.2.2]
    simpa only [Function.comp_apply, decide_eq_true_eq] using hiff
  unfold Db.minuteEvents Table.count at *
  rw [Entry.rows_events h, List.countP_append, hold]
  have hle := hdb.minute_le binding t
  unfold Db.minuteEvents Table.count at hle
  cases hnew : k.newEvent? with
  | none =>
      simp only [Option.toList_none, List.countP_nil]
      omega
  | some e =>
      by_cases hminute : e.InMinute binding t
      · obtain ⟨rfl, hafter, hbefore⟩ := hminute
        have hlt := (Entry.newEvent_room h hnew).2
        have hcover : db.events.rows.countP (Event.InMinute e.binding t) ≤
            db.recentEvents e.binding e.created := by
          unfold Db.recentEvents Table.count
          refine List.countP_mono_left fun f _ hf => ?_
          obtain ⟨hfbinding, hfafter, _⟩ := of_decide_eq_true hf
          refine decide_eq_true ⟨hfbinding, ?_⟩
          have hreal : ((e.created - 60 : Rat) : ℝ) < (f.created : ℝ) := by
            push_cast
            linarith
          exact_mod_cast hreal
        have hone : [e].countP (Event.InMinute e.binding t) ≤ 1 := List.countP_le_length
        simp only [Option.toList_some]
        omega
      · simp only [Option.toList_some, List.countP_singleton, hminute, decide_false,
          Bool.false_eq_true, if_false]
        omega

theorem Db.Admitted.apply (hdb : db.Admitted) (h : k.Enabled crates db) :
    (k.apply crates db).Admitted :=
  ⟨hdb.open_apply h, hdb.minute_apply h⟩

theorem Db.admitted_empty : Db.empty.Admitted where
  open_le _ := Nat.zero_le _
  minute_le _ _ := Nat.zero_le _

theorem Reachable.admitted (h : Reachable crates db) : db.Admitted :=
  Leads.invariant h (fun _ _ hk hd => hd.apply hk) Db.admitted_empty

end entries

/-! ## Traces -/

/-- What the database finds in the canonical text of a value whose trace, if it has one, is a text.
It may fail to read the text; what it reads is that trace. -/
structure Crates.ReadsTraceIds (crates : Crates) : Prop where
  floats : crates.PrintsFloats
  read {v : Value} {found : Option String} (wellFormed : v.WellFormed)
    (text : ∀ value, v.get "trace_id" = some value → ∃ traceId, value.asStr = some traceId)
    (h : crates.extractTraceId (canonicalJson crates v) = some found) :
    found = v.getStr "trace_id"

/-- The envelopes of a call have no field twice. -/
def Op.WellFormed : Op → Prop
  | .ingest _ envelope _ _ => envelope.WellFormed
  | .commitSample _ _ _ event _ _ _ => ∀ envelope ∈ event, envelope.WellFormed
  | _ => True

/-- The event was stored for an envelope of the trace. -/
def Event.Carries (crates : Crates) (id : String) (e : Event) : Prop :=
  ∃ v : Value, v.WellFormed ∧ e.envelope = canonicalJson crates v ∧ v.getStr "trace_id" = some id

open Classical in
/-- The events of a trace, over all bindings. -/
noncomputable def Db.carriers (db : Db) (crates : Crates) (id : String) : Nat :=
  db.events.count (Event.Carries crates id)

/-- No trace has more events than its budget. -/
def Db.TracesLimited (crates : Crates) (db : Db) : Prop :=
  ∀ id, db.carriers crates id ≤ traceLimit

section traces

variable {crates : Crates} {db t : Db}

/-- The trace that is read from an event is the one it carries. -/
theorem Event.Carries.found (hreads : crates.ReadsTraceIds) {id : String} {e : Event}
    (h : e.Carries crates id) {found : Option String}
    (hfound : crates.extractTraceId e.envelope = some found) : found = some id := by
  obtain ⟨v, hv, henvelope, hid⟩ := h
  rw [← hid]
  refine hreads.read hv (fun value hvalue => ?_) (henvelope ▸ hfound)
  unfold Value.getStr at hid
  rw [hvalue] at hid
  exact ⟨id, hid⟩

/-- An event that is stored for an envelope carries the trace of that envelope, and no other. -/
theorem Event.carries_iff (hreads : crates.ReadsTraceIds) {envelope : Value}
    (hwf : envelope.WellFormed) {e : Event} (h : e.envelope = canonicalJson crates envelope)
    {id : String} : e.Carries crates id ↔ envelope.getStr "trace_id" = some id := by
  constructor
  · rintro ⟨v, hv, htext, hid⟩
    have hsame := (canonicalJson_eq_iff hreads.floats hv hwf).mp (htext.symm.trans h)
    rw [← hsame.getStr hv hwf]
    exact hid
  · intro hid
    exact ⟨envelope, hwf, h, hid⟩

open Classical in
/-- A count that succeeds misses no event of the trace. -/
theorem Db.carriers_le (hreads : crates.ReadsTraceIds) {id : String} {count : Nat}
    (h : db.traceEvents crates (some id) = some count) : db.carriers crates id ≤ count := by
  obtain ⟨found, hfound, rfl⟩ := Option.map_eq_some_iff.mp h
  unfold Db.carriers Table.count
  exact countP_le_count_mapM hfound fun e he found hread => he.found hreads hread

/-- A successful intake body stores nothing, or one event whose trace had room for it. -/
theorem ingestTx_limited {binding : String} {envelope : Value} {uuid : Uuid} {now : Rat}
    {receipt : Receipt} (h : (ingestTx crates binding envelope uuid now).run db = (.ok receipt, t)) :
    t = db ∨ ∃ e, e.envelope = canonicalJson crates envelope ∧
      t.events.rows = db.events.rows ++ [e] ∧
      ∃ count < traceLimit, db.traceEvents crates (envelope.getStr "trace_id") = some count := by
  simp only [ingestTx, Tx.bind_ok, Tx.query_ok, Tx.expect_ok, bailIf_run_ok] at h
  obtain ⟨⟨source, id, encoded⟩, _, hvalid, _, _, ⟨rfl, rfl⟩, b, _, ⟨hb, rfl⟩, _, _,
    ⟨_, rfl⟩, _, _, ⟨rfl, rfl⟩, h⟩ := h
  obtain ⟨rfl, _, _, rfl, _, _⟩ := validateEnvelope_ok hvalid
  split at h
  · simp only [Tx.bind_ok, bailIf_run_ok, Tx.pure_ok] at h
    obtain ⟨_, _, ⟨_, rfl⟩, _, rfl⟩ := h
    exact Or.inl rfl
  · obtain ⟨_, _, hroom, hadmits, rfl, rfl⟩ := storeEvent_ok h
    exact Or.inr ⟨_, rfl, Table.rows_add hadmits, hroom.trace_lt⟩

open Classical in
/-- One more event adds one to the trace it carries. -/
theorem Db.carriers_append {e : Event} (h : t.events.rows = db.events.rows ++ [e]) (id : String) :
    t.carriers crates id = db.carriers crates id + if e.Carries crates id then 1 else 0 := by
  unfold Db.carriers Table.count
  rw [h, List.countP_append, List.countP_singleton]
  simp only [decide_eq_true_eq]

/-- An event that is stored where its trace has room keeps every trace in its budget. -/
theorem Db.TracesLimited.append (hreads : crates.ReadsTraceIds) (hdb : db.TracesLimited crates)
    {envelope : Value} (hwf : envelope.WellFormed) {e : Event}
    (henvelope : e.envelope = canonicalJson crates envelope)
    (hrows : t.events.rows = db.events.rows ++ [e]) {count : Nat} (hlt : count < traceLimit)
    (hcount : db.traceEvents crates (envelope.getStr "trace_id") = some count) :
    t.TracesLimited crates := by
  intro id
  rw [Db.carriers_append hrows]
  by_cases hid : e.Carries crates id
  · rw [(Event.carries_iff hreads hwf henvelope).mp hid] at hcount
    have hle := Db.carriers_le hreads hcount
    rw [if_pos hid]
    omega
  · rw [if_neg hid]
    exact hdb id

theorem Db.TracesLimited.congr (hdb : db.TracesLimited crates)
    (hrows : t.events.rows = db.events.rows) : t.TracesLimited crates := by
  intro id
  unfold Db.carriers Table.count
  rw [hrows]
  exact hdb id

theorem Db.TracesLimited.ingestTx (hreads : crates.ReadsTraceIds) (hdb : db.TracesLimited crates)
    {binding : String} {envelope : Value} (hwf : envelope.WellFormed) {uuid : Uuid} {now : Rat}
    {receipt : Receipt} (h : (ingestTx crates binding envelope uuid now).run db = (.ok receipt, t)) :
    t.TracesLimited crates := by
  obtain rfl | ⟨e, henvelope, hrows, count, hlt, hcount⟩ := ingestTx_limited h
  · exact hdb
  · exact hdb.append hreads hwf henvelope hrows hlt hcount

theorem notificationEnvelope_wellFormed (requestId thread source key deliveryId : String)
    (revision : Int) (state : RequestState) (detail : Option String) :
    (notificationEnvelope requestId thread source key deliveryId revision state
      detail).WellFormed := by
  cases detail <;>
    simp [notificationEnvelope, detailFields, Value.WellFormed, FieldsWellFormed]

/-- The notice of a request carries no trace. -/
theorem Db.Lineage.notice_traceless (hreads : crates.ReadsTraceIds) (hdb : db.Lineage crates)
    {n : RequestNotification} (hn : n ∈ db.requestNotifications) {e : Event}
    (he : e.envelope = n.envelope) (id : String) : ¬ e.Carries crates id := by
  obtain ⟨r, _, hof⟩ := hdb.notice_of n hn
  obtain ⟨state, detail, henvelope⟩ := hof.envelope_eq
  rw [Event.carries_iff hreads (notificationEnvelope_wellFormed _ _ _ _ _ _ _ _)
    (he.trans henvelope)]
  show ¬ none = some id
  exact fun h => nomatch h

open Classical in
/-- An entry that is not intake's adds nothing to a trace. -/
theorem Entry.carriers_eq {k : Entry} (hreads : crates.ReadsTraceIds)
    (hlineage : db.Lineage crates) (h : k.Enabled crates db) (hstore : ∀ e, k ≠ .store e)
    (id : String) : (k.apply crates db).carriers crates id = db.carriers crates id := by
  have hold : (db.events.rows.map k.onEvent).countP (Event.Carries crates id) =
      db.carriers crates id := by
    rw [List.countP_map]
    refine List.countP_congr fun e _ => ?_
    have hkey := Event.key_eq (k.onEvent_key e)
    have hiff : (k.onEvent e).Carries crates id ↔ e.Carries crates id := by
      simp only [Event.Carries, hkey.2.2.2.2.2.2.1]
    simpa only [Function.comp_apply, decide_eq_true_eq] using hiff
  unfold Db.carriers Table.count at hold ⊢
  rw [Entry.rows_events h, List.countP_append, hold]
  cases k with
  | store e => exact absurd rfl (hstore e)
  | deliver n e now =>
      obtain ⟨hready, _, _, _, _, _, henvelope, _⟩ := h
      have hnone := hlineage.notice_traceless hreads hready.mem henvelope id
      simp [Entry.newEvent?, hnone]
  | _ => simp [Entry.newEvent?]

/-- Every call with well formed envelopes keeps every trace in its budget. -/
theorem Op.step_tracesLimited (hreads : crates.ReadsTraceIds) {op : Op} (hwf : op.WellFormed)
    (hlineage : db.Lineage crates) (hdb : db.TracesLimited crates) :
    (op.step crates db).TracesLimited crates := by
  have hother : (∀ e, ¬ op.Writes crates (.store e)) →
      (op.step crates db).TracesLimited crates := by
    intro hnone
    refine ((op.commits crates db).invariant
      (P := fun d => d.Lineage crates ∧ d.TracesLimited crates) ?_ ⟨hlineage, hdb⟩).2
    intro k hwrites d hk hd
    refine ⟨hd.1.apply hk, fun id => ?_⟩
    rw [Entry.carriers_eq hreads hd.1 hk (fun e heq => hnone e (heq ▸ hwrites))]
    exact hd.2 id
  cases op with
  | ingest binding envelope uuid now =>
      cases hrun : (CodexMonitor.ingest crates binding envelope uuid now).run db with
      | mk result t =>
          cases result with
          | error e =>
              rw [step_of_fail rfl hrun]
              exact hdb
          | ok receipt =>
              rw [step_of_run rfl hrun]
              simp only [CodexMonitor.ingest, Tx.bind_ok, validateIdentifier_ok, withTx,
                Tx.atomically_ok] at hrun
              obtain ⟨_, _, ⟨_, rfl⟩, hbody⟩ := hrun
              exact hdb.ingestTx hreads hwf hbody
  | commitSample id epoch checkpoint event uuid now stamp =>
      cases hrun : (CodexMonitor.commitSample crates id epoch checkpoint event uuid now stamp).run
          db with
      | mk result t =>
          cases result with
          | error e =>
              rw [step_of_fail rfl hrun]
              exact hdb
          | ok receipt =>
              rw [step_of_run rfl hrun]
              simp only [CodexMonitor.commitSample, Tx.bind_ok, validateIdentifier_ok,
                bailIf_run_ok, withTx, Tx.atomically_ok, Tx.query_ok, Tx.expect_ok, Tx.write_ok,
                Tx.pure_ok] at hrun
              obtain ⟨_, _, ⟨_, rfl⟩, _, _, ⟨_, rfl⟩, _, _, ⟨_, rfl⟩, _, _, ⟨rfl, rfl⟩, w, _,
                ⟨_, rfl⟩, _, _, ⟨_, rfl⟩, _, _, ⟨_, rfl⟩, _, u, hsample, _, _, rfl, _, rfl⟩ := hrun
              cases event with
              | none =>
                  obtain ⟨_, rfl⟩ := Tx.pure_ok.mp hsample
                  exact hdb
              | some envelope =>
                  simp only [ingestSample, Tx.bind_ok, Tx.pure_ok] at hsample
                  obtain ⟨r, _, hbody, _, rfl⟩ := hsample
                  have hlimited := hdb.ingestTx hreads (hwf envelope rfl) hbody
                  exact hlimited.congr rfl
  | _ =>
      refine hother fun e hwrites => ?_
      cases hwrites

theorem ReachableBy.tracesLimited (hreads : crates.ReadsTraceIds)
    (h : ReachableBy crates (fun _ op => op.WellFormed) db) : db.TracesLimited crates := by
  refine (LeadsBy.invariant (P := fun d => d.Lineage crates ∧ d.TracesLimited crates) ?_ h
    ⟨Db.lineage_empty, fun _ => Nat.zero_le _⟩).2
  intro d op hd hwf
  refine ⟨?_, Op.step_tracesLimited hreads hwf hd.1 hd.2⟩
  exact (op.commits crates d).invariant (fun _ _ _ hk hd => hd.apply hk) hd.1

/-- **The limits hold in every state.**  Whatever the clocks read and whatever runs, no binding has
more open events than its queue takes or more events of one minute than its rate allows, wherever
that minute lies, and no trace has more events than its budget. -/
theorem admission_limits (h : ReachableBy crates (fun _ op => op.WellFormed) db) (binding : String)
    (t : ℝ) :
    db.openEvents binding ≤ 1000 ∧ db.minuteEvents binding t ≤ 120 ∧
      (crates.ReadsTraceIds → ∀ id, db.carriers crates id ≤ 16) := by
  have hadmitted := h.reachable.admitted
  exact ⟨hadmitted.open_le binding, hadmitted.minute_le binding t,
    fun hreads => h.tracesLimited hreads⟩

/-! ## A run with a trace -/

mutual

/-- Canonical text depends on third-party code only in how floats print. -/
theorem canonicalJson_congr {a b : Crates} (h : a.floatText = b.floatText) :
    ∀ v : Value, canonicalJson a v = canonicalJson b v
  | .null => rfl
  | .bool _ => rfl
  | .number n => by cases n <;> simp only [canonicalJson, Number.text, h]
  | .string _ => rfl
  | .array items => by simp only [canonicalJson, canonicalItems_congr h items]
  | .object fields => by simp only [canonicalJson, canonicalFields_congr h fields]

theorem canonicalItems_congr {a b : Crates} (h : a.floatText = b.floatText) :
    ∀ items : List Value, canonicalItems a items = canonicalItems b items
  | [] => rfl
  | item :: items => by
      simp only [canonicalItems, canonicalJson_congr h item, canonicalItems_congr h items]

theorem canonicalFields_congr {a b : Crates} (h : a.floatText = b.floatText) :
    ∀ fields : List (String × Value), canonicalFields a fields = canonicalFields b fields
  | [] => rfl
  | (key, value) :: fields => by
      simp only [canonicalFields, canonicalJson_congr h value, canonicalFields_congr h fields]

end

/-- An event of a trace, from the build server. -/
def tracedEnvelope (id : String) : Value :=
  .object [("data", .object []), ("id", .string id), ("source", .string "ci"),
    ("trace_id", .string "trace-1"), ("type", .string "build.finished")]

theorem tracedEnvelope_wellFormed (id : String) : (tracedEnvelope id).WellFormed := by
  simp [tracedEnvelope, Value.WellFormed, FieldsWellFormed]

/-- A database that finds the trace of two envelopes and reads no other text. -/
def traceReader : Crates where
  floatText := exactPrinter.floatText
  fromStr _ := none
  parseUrl _ := none
  extractTraceId text :=
    ([tracedEnvelope "build-1", tracedEnvelope "build-2"].find? fun v =>
      canonicalJson exactPrinter v = text).map fun v => v.getStr "trace_id"

theorem traceReader_printsFloats : traceReader.PrintsFloats :=
  ⟨exactPrinter_printsFloats.injective, exactPrinter_printsFloats.numeric,
    exactPrinter_printsFloats.fractional⟩

theorem traceReader_readsTraceIds : traceReader.ReadsTraceIds where
  floats := traceReader_printsFloats
  read := by
    intro v found hv _ h
    obtain ⟨w, hw, rfl⟩ := Option.map_eq_some_iff.mp h
    have htext : canonicalJson traceReader w = canonicalJson traceReader v := by
      rw [canonicalJson_congr (a := traceReader) (b := exactPrinter) rfl w]
      simpa only [decide_eq_true_eq] using List.find?_some hw
    have hwf : w.WellFormed := by
      obtain rfl | rfl := List.mem_pair.mp (List.mem_of_find?_eq_some hw)
      · exact tracedEnvelope_wellFormed _
      · exact tracedEnvelope_wellFormed _
    exact ((canonicalJson_eq_iff traceReader_printsFloats hwf hv).mp htext).getStr hwf hv _

/-- A build server delivers two events of a trace, and another one without; for the second one the
database reads the trace of the first. -/
def tracedOps : List Op :=
  [.bind "deploy" "conversation-1" "shared-local" ["ci"],
    .ingest "deploy" (tracedEnvelope "build-1") (sampleUuid 1) 10,
    .ingest "deploy" (tracedEnvelope "build-2") (sampleUuid 2) 9,
    .ingest "deploy" (sampleEnvelope "build-3") (sampleUuid 3) 11]

theorem reachable_tracedOps :
    ReachableBy traceReader (fun _ op => op.WellFormed) (Db.after traceReader tracedOps) := by
  refine reachableBy_after ⟨trivial, tracedEnvelope_wellFormed _, tracedEnvelope_wellFormed _, ?_,
    trivial⟩
  simp [Op.WellFormed, sampleEnvelope, Value.WellFormed, FieldsWellFormed]

theorem admission_limits_sample :
    (Db.after traceReader (tracedOps.take 2)).traceEvents traceReader (some "trace-1") = some 1 ∧
      (Db.after traceReader tracedOps).openEvents "deploy" = 3 ∧
      (Db.after traceReader tracedOps).openEvents "deploy" ≤ 1000 ∧
      (Db.after traceReader tracedOps).minuteEvents "deploy" 12 ≤ 120 ∧
      (Db.after traceReader tracedOps).carriers traceReader "trace-1" ≤ 16 := by
  have hlimits := admission_limits reachable_tracedOps "deploy" 12
  exact ⟨by decide +kernel, by decide +kernel, hlimits.1, hlimits.2.1,
    hlimits.2.2 traceReader_readsTraceIds "trace-1"⟩

end traces

end CodexMonitor
