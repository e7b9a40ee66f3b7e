import CodexMonitor.Canonical
import CodexMonitor.Store.Fifo
import CodexMonitor.Store.Lineage

/-!
# One event per source and id

Intake looks for a stored event before it applies any limit, and compares canonical
texts.  No operation deletes an event or changes its key columns, so what was taken
in once is recognised for ever: the same value is answered with the stored delivery,
another value under the same source and id is refused, and neither changes anything.
-/

namespace CodexMonitor

open Transaction

/-! ## What makes a value an envelope -/

/-- The envelope checks, as one condition on the value. -/
structure Value.IsEnvelope (crates : Crates) (envelope : Value) (source id : String) : Prop where
  known : ∃ fields, envelope.asObject = some fields ∧ ∀ key ∈ fields.map Prod.fst,
    key ∈ envelopeFields
  required : ∀ key ∈ requiredFields, envelope.get key ≠ none
  id_eq : envelope.getStr "id" = some id
  source_eq : envelope.getStr "source" = some source
  id_valid : isIdentifier id = true
  source_valid : isIdentifier source = true
  type_valid : ∃ eventType, envelope.getStr "type" = some eventType ∧ isIdentifier eventType = true
  trace_valid : ∀ value, envelope.get "trace_id" = some value →
    ∃ traceId, value.asStr = some traceId ∧ isIdentifier traceId = true
  hops_valid : ∃ hops, hopsOf (envelope.get "hops") = some hops ∧ 0 ≤ hops ∧ hops ≤ 8
  size_le : (canonicalJson crates envelope).utf8ByteSize ≤ maxEnvelopeBytes

section envelope

variable {crates : Crates} {envelope other : Value} {source id encoded : String} {s t : Db}

theorem validateTraceId_run {traceId : Option Value} {u : Unit} :
    (validateTraceId traceId).run s = (.ok u, t) ↔
      (∀ value, traceId = some value → ∃ text, value.asStr = some text ∧ isIdentifier text = true) ∧
        s = t := by
  cases traceId with
  | none => simp [validateTraceId]
  | some value =>
      simp only [validateTraceId, Tx.bind_ok, Tx.expect_ok, validateIdentifier_ok, Option.some.injEq,
        forall_eq']
      constructor
      · rintro ⟨text, _, ⟨htext, rfl⟩, hvalid, rfl⟩
        exact ⟨⟨text, htext, hvalid⟩, rfl⟩
      · rintro ⟨⟨text, htext, hvalid⟩, rfl⟩
        exact ⟨text, s, ⟨htext, rfl⟩, hvalid, rfl⟩

/-- The envelope checks pass exactly on envelopes. -/
theorem validateEnvelope_run :
    (validateEnvelope crates envelope).run s = (.ok (source, id, encoded), t) ↔
      envelope.IsEnvelope crates source id ∧ encoded = canonicalJson crates envelope ∧ s = t := by
  have hnone : ∀ {keys : List String} {p : String → Bool},
      ¬ keys.find? p ≠ none ↔ ∀ key ∈ keys, ¬ p key = true := by
    intro keys p
    rw [not_not, List.find?_eq_none]
  simp only [validateEnvelope, Tx.bind_ok, Tx.expect_ok, bailIf_run_ok, validateIdentifier_ok,
    Tx.pure_ok, validateTraceId_run]
  constructor
  · rintro ⟨fields, _, ⟨hfields, rfl⟩, _, _, ⟨hknown, rfl⟩, _, _, ⟨hrequired, rfl⟩, _, _,
      ⟨hid, rfl⟩, _, _, ⟨hsource, rfl⟩, eventType, _, ⟨htype, rfl⟩, _, _, ⟨hidValid, rfl⟩, _, _,
      ⟨hsourceValid, rfl⟩, _, _, ⟨htypeValid, rfl⟩, _, _, ⟨htrace, rfl⟩, hops, _, ⟨hhops, rfl⟩,
      _, _, ⟨hrange, rfl⟩, _, _, ⟨hsize, rfl⟩, heq, rfl⟩
    simp only [Prod.mk.injEq] at heq
    obtain ⟨rfl, rfl, rfl⟩ := heq
    refine ⟨⟨⟨fields, hfields, fun key hkey => ?_⟩, fun key hkey => ?_, hid, hsource, hidValid,
      hsourceValid, ⟨eventType, htype, htypeValid⟩, htrace, ⟨hops, hhops, not_not.mp hrange⟩,
      Nat.le_of_not_lt hsize⟩, rfl, rfl⟩
    · simpa using hnone.mp hknown key hkey
    · have hsome := hnone.mp hrequired key hkey
      simpa using hsome
  · rintro ⟨h, rfl, rfl⟩
    obtain ⟨fields, hfields, hknown⟩ := h.known
    obtain ⟨eventType, htype, htypeValid⟩ := h.type_valid
    obtain ⟨hops, hhops, hrange⟩ := h.hops_valid
    have hrequired : ∀ key ∈ requiredFields, ¬ (envelope.get key).isNone = true := by
      intro key hkey
      simpa using h.required key hkey
    exact ⟨fields, s, ⟨hfields, rfl⟩, (), s, ⟨hnone.mpr fun key hkey => by simpa using hknown key hkey,
      rfl⟩, (), s, ⟨hnone.mpr hrequired, rfl⟩, id, s, ⟨h.id_eq, rfl⟩, source, s, ⟨h.source_eq, rfl⟩,
      eventType, s, ⟨htype, rfl⟩, (), s, ⟨h.id_valid, rfl⟩, (), s, ⟨h.source_valid, rfl⟩, (), s,
      ⟨htypeValid, rfl⟩, (), s, ⟨h.trace_valid, rfl⟩, hops, s, ⟨hhops, rfl⟩, (), s,
      ⟨not_not.mpr hrange, rfl⟩, (), s, ⟨Nat.not_lt.mpr h.size_le, rfl⟩, rfl, rfl⟩

theorem Value.Same.getStr (h : envelope.Same other) (hwf : envelope.WellFormed)
    (hwf' : other.WellFormed) (key : String) : envelope.getStr key = other.getStr key := by
  unfold Value.getStr
  rcases h.get hwf hwf' key with ⟨hx, hy⟩ | ⟨x, y, hx, hy, hsame⟩
  · rw [hx, hy]
  · rw [hx, hy]
    exact hsame.asStr

/-- A value that is the same as an envelope is one, with the same source and id. -/
theorem Value.IsEnvelope.same (hcrates : crates.PrintsFloats)
    (h : envelope.IsEnvelope crates source id) (hsame : envelope.Same other)
    (hwf : envelope.WellFormed) (hwf' : other.WellFormed) :
    other.IsEnvelope crates source id where
  known := by
    obtain ⟨fields, hfields, hknown⟩ := h.known
    cases envelope with
    | object fields' =>
        obtain rfl := Option.some.inj hfields
        cases other with
        | object others =>
            refine ⟨others, rfl, fun key hkey => hknown key ?_⟩
            exact (sameFields_keys hwf.1 hsame.1 hsame.2).mem_iff.mpr hkey
        | _ => exact hsame.elim
    | _ => cases hfields
  required := by
    intro key hkey hnone
    rcases hsame.get hwf hwf' key with ⟨hx, _⟩ | ⟨x, y, _, hy, _⟩
    · exact h.required key hkey hx
    · rw [hy] at hnone
      cases hnone
  id_eq := (hsame.getStr hwf hwf' "id").symm.trans h.id_eq
  source_eq := (hsame.getStr hwf hwf' "source").symm.trans h.source_eq
  id_valid := h.id_valid
  source_valid := h.source_valid
  type_valid := by
    obtain ⟨eventType, htype, hvalid⟩ := h.type_valid
    exact ⟨eventType, (hsame.getStr hwf hwf' "type").symm.trans htype, hvalid⟩
  trace_valid := by
    intro value hvalue
    rcases hsame.get hwf hwf' "trace_id" with ⟨_, hy⟩ | ⟨x, y, hx, hy, hsame⟩
    · rw [hy] at hvalue
      cases hvalue
    · rw [hy] at hvalue
      obtain rfl := Option.some.inj hvalue
      rw [← hsame.asStr]
      exact h.trace_valid x hx
  hops_valid := by
    obtain ⟨hops, hhops, hrange⟩ := h.hops_valid
    refine ⟨hops, ?_, hrange⟩
    rcases hsame.get hwf hwf' "hops" with ⟨hx, hy⟩ | ⟨x, y, hx, hy, hsame⟩
    · rw [hx] at hhops
      rw [hy]
      exact hhops
    · rw [hx] at hhops
      rw [hy]
      exact hsame.asI64.symm.trans hhops
  size_le := by
    rw [← text_of_same hcrates envelope other hwf hwf' hsame]
    exact h.size_le

end envelope

/-! ## What is taken in is recognised -/

section ingest

variable {crates : Crates} {db db' t : Db} {binding source id : String} {envelope other : Value}
variable {uuid uuid' : Uuid} {now now' : Rat} {receipt : Receipt}

/-- The route `binding` accepts `source`, and the event `e` stands under it with the text of
`envelope`. -/
structure Db.Holds (crates : Crates) (db : Db) (binding source id : String) (envelope : Value)
    (e : Event) : Prop where
  routed : ∃ b ∈ db.bindings, b.name = binding ∧ source ∈ b.sources
  mem : e ∈ db.events
  binding_eq : e.binding = binding
  source_eq : e.source = source
  id_eq : e.eventId = id
  envelope_eq : e.envelope = canonicalJson crates envelope

/-- A successful intake ends with its event stored. -/
theorem ingest_holds (h : (ingest crates binding envelope uuid now).run db = (.ok receipt, t)) :
    ∃ source id e, isIdentifier binding = true ∧ envelope.IsEnvelope crates source id ∧
      t.Holds crates binding source id envelope e ∧ receipt.deliveryId = e.id := by
  simp only [ingest, withTx, Tx.bind_ok, Tx.atomically_ok, validateIdentifier_ok] at h
  obtain ⟨_, _, ⟨hbinding, rfl⟩, h⟩ := h
  simp only [ingestTx, Tx.bind_ok, Tx.query_ok, Tx.expect_ok, bailIf_run_ok] at h
  obtain ⟨⟨source, id, encoded⟩, _, hvalid, _, _, ⟨rfl, rfl⟩, b, _, ⟨hb, rfl⟩, _, _,
    ⟨hsource, rfl⟩, _, _, ⟨rfl, rfl⟩, h⟩ := h
  obtain ⟨henvelope, rfl, rfl⟩ := validateEnvelope_run.mp hvalid
  obtain ⟨hmem, hname⟩ := Table.find?_some hb
  have hsource := Decidable.of_not_not hsource
  split at h
  · rename_i e he
    simp only [Tx.bind_ok, bailIf_run_ok, Tx.pure_ok] at h
    obtain ⟨_, _, ⟨hsame, rfl⟩, rfl, rfl⟩ := h
    obtain ⟨he, hebinding, hesource, heid⟩ := Table.find?_some he
    exact ⟨source, id, e, hbinding, henvelope, ⟨⟨b, hmem, hname, hsource⟩, he, hebinding, hesource,
      heid, Decidable.of_not_not hsame⟩, rfl⟩
  · obtain ⟨_, _, _, hadmits, rfl, rfl⟩ := storeEvent_ok h
    refine ⟨source, id, newEvent db.nextEventSeq uuid b.name source id (canonicalJson crates envelope)
      (initialState envelope) now 0, hbinding, henvelope,
      ⟨⟨b, hmem, hname, hsource⟩, ?_, hname, rfl, rfl, rfl⟩, rfl⟩
    show _ ∈ (Table.add _ _).rows
    rw [Table.rows_add hadmits]
    exact List.mem_append_right _ List.mem_cons_self

/-- Whatever runs in between, the event stays where it is. -/
theorem Db.Holds.leads {e : Event} (h : t.Holds crates binding source id envelope e)
    (hleads : Leads crates t db') :
    ∃ f, db'.Holds crates binding source id envelope f ∧ f.id = e.id := by
  obtain ⟨f, hf, hkey, _⟩ := hleads.event h.mem
  have hkey := Event.key_eq hkey
  refine ⟨f, ⟨?_, hf, hkey.2.2.2.1.trans h.binding_eq, hkey.2.2.2.2.1.trans h.source_eq,
    hkey.2.2.2.2.2.1.trans h.id_eq, hkey.2.2.2.2.2.2.1.trans h.envelope_eq⟩, hkey.2.1⟩
  refine Leads.invariant (P := fun d => ∃ b ∈ d.bindings, b.name = binding ∧ source ∈ b.sources)
    hleads ?_ h.routed
  rintro k d hk ⟨b, hb, hname, hsource⟩
  obtain ⟨c, hc, hcname, _, hcsources⟩ := Entry.binding_kept hk hb
  exact ⟨c, hc, hcname.trans hname, by rw [hcsources]; exact hsource⟩

/-- Intake of an envelope under whose source and id an event is stored compares the two texts, and
does no more. -/
theorem ingest_compares {b : Binding} {e : Event} (hb : b ∈ db.bindings) (hname : b.name = binding)
    (hsource : source ∈ b.sources) (he : e ∈ db.events)
    (hslot : e.binding = binding ∧ e.source = source ∧ e.eventId = id)
    (hbinding : isIdentifier binding = true) (hother : other.IsEnvelope crates source id) :
    (ingest crates binding other uuid now).run db =
      if e.envelope = canonicalJson crates other then (.ok ⟨e.id, e.state, true⟩, db)
      else (.error (.bail "event ID already used for different content"), db) := by
  have hfind : db.bindings.find? (fun b => b.name = binding) = some b :=
    Table.find?_eq_of_unique hb hname fun a ha haname =>
      Binding.eq_of_name ha hb (haname.trans hname.symm)
  have hslot : db.eventAt binding source id = some e :=
    Table.find?_eq_of_unique he hslot fun a ha haslot =>
      Event.eq_of_slot ha he (haslot.1.trans hslot.1.symm) (haslot.2.1.trans hslot.2.1.symm)
        (haslot.2.2.trans hslot.2.2.symm)
  have hvalid : (validateEnvelope crates other).run db =
      (.ok (source, id, canonicalJson crates other), db) :=
    validateEnvelope_run.mpr ⟨hother, rfl, rfl⟩
  have hsourceOk : (bailIf (source ∉ b.sources) "source is not allowed for this binding").run db =
      (.ok (), db) := bailIf_run_ok.mpr ⟨not_not.mpr hsource, rfl⟩
  have hbody : (ingestTx crates binding other uuid now).run db =
      (do bailIf (e.envelope ≠ canonicalJson crates other)
            "event ID already used for different content"
          pure (⟨e.id, e.state, true⟩ : Receipt) : StoreM Receipt).run db := by
    unfold ingestTx
    rw [Tx.run_bind_of_ok hvalid]
    simp only
    rw [Tx.run_query_bind, hfind, Tx.run_expect_bind, Tx.run_bind_of_ok hsourceOk,
      Tx.run_query_bind, hslot]
  have hname : (validateIdentifier binding "binding").run db = (.ok (), db) :=
    validateIdentifier_ok.mpr ⟨hbinding, rfl⟩
  unfold CodexMonitor.ingest
  rw [Tx.run_bind_of_ok hname]
  by_cases heq : e.envelope = canonicalJson crates other
  · rw [Tx.run_bind_of_ok (bailIf_run_ok (u := ()).mpr ⟨not_not.mpr heq, rfl⟩)] at hbody
    rw [if_pos heq, withTx, Tx.atomically_ok.mpr hbody]
  · rw [Tx.run_bind_of_error (bailIf_refuses heq _ db)] at hbody
    rw [if_neg heq]
    unfold withTx Tx.atomically
    simp only [hbody]

/-- Intake of an envelope whose event is stored compares the two values' texts. -/
theorem Db.Holds.ingest {e : Event} (h : db.Holds crates binding source id envelope e)
    (hbinding : isIdentifier binding = true) (hother : other.IsEnvelope crates source id) :
    (ingest crates binding other uuid now).run db =
      if canonicalJson crates envelope = canonicalJson crates other then
        (.ok ⟨e.id, e.state, true⟩, db)
      else (.error (.bail "event ID already used for different content"), db) := by
  obtain ⟨b, hb, hname, hsource⟩ := h.routed
  rw [← h.envelope_eq]
  exact ingest_compares hb hname hsource h.mem ⟨h.binding_eq, h.source_eq, h.id_eq⟩ hbinding hother

/-- A value that is no envelope is refused. -/
theorem ingest_refuses (h : ∀ source id, ¬ other.IsEnvelope crates source id) :
    ∃ error, (ingest crates binding other uuid now).run db = (.error error, db) := by
  rcases hrun : (ingest crates binding other uuid now).run db with ⟨error | receipt, t⟩
  · have hharmless : Tx.Harmless (ingest crates binding other uuid now) :=
      (readOnly_bail _ _).bind_harmless fun _ => harmless_withTx _
    have hkept := hharmless db error (by rw [hrun])
    rw [hrun] at hkept
    obtain rfl : t = db := hkept
    exact ⟨error, rfl⟩
  · obtain ⟨source, id, _, _, henvelope, _⟩ := ingest_holds hrun
    exact absurd henvelope (h source id)

/-- **Intake deduplicates.**  Once an envelope was taken in, in any database, with a delivery id,
then after any operations the same value, up to the order of fields, is answered with that delivery
id, whatever the limits, and any other value under its source and id is refused; neither changes
anything.
Canonical texts are equal exactly when values are the same up to the order of fields. -/
theorem ingest_deduplicates (hcrates : crates.PrintsFloats) (henvelope : envelope.WellFormed)
    (h : (ingest crates binding envelope uuid now).run db = (.ok receipt, t))
    (hleads : Leads crates t db') :
    (∀ other uuid' now', other.WellFormed → envelope.Same other →
      ∃ state, (ingest crates binding other uuid' now').run db' =
        (.ok ⟨receipt.deliveryId, state, true⟩, db')) ∧
    (∀ other uuid' now', other.WellFormed → ¬ envelope.Same other →
      other.getStr "source" = envelope.getStr "source" →
      other.getStr "id" = envelope.getStr "id" →
      ∃ error, (ingest crates binding other uuid' now').run db' = (.error error, db')) ∧
    ∀ a b : Value, a.WellFormed → b.WellFormed →
      (canonicalJson crates a = canonicalJson crates b ↔ a.Same b) := by
  obtain ⟨source, id, e, hbinding, hvalid, hholds, hid⟩ := ingest_holds h
  obtain ⟨f, hholds', hfid⟩ := hholds.leads hleads
  refine ⟨fun other uuid' now' hother hsame => ?_, fun other uuid' now' hother hne hsource heid =>
    ?_, fun a b ha hb => canonicalJson_eq_iff hcrates ha hb⟩
  · refine ⟨f.state, ?_⟩
    rw [hholds'.ingest hbinding (hvalid.same hcrates hsame henvelope hother),
      if_pos (text_of_same hcrates envelope other henvelope hother hsame), hid, hfid]
  · by_cases hvalid' : ∃ source id, other.IsEnvelope crates source id
    · obtain ⟨source', id', hvalid'⟩ := hvalid'
      obtain rfl : source' = source := by
        rw [hvalid'.source_eq, hvalid.source_eq] at hsource
        exact Option.some.inj hsource
      obtain rfl : id' = id := by
        rw [hvalid'.id_eq, hvalid.id_eq] at heid
        exact Option.some.inj heid
      have hne := fun heq => hne (same_of_text hcrates envelope other heq)
      exact ⟨_, (hholds'.ingest hbinding hvalid').trans (if_neg hne)⟩
    · exact ingest_refuses fun source id hother => hvalid' ⟨source, id, hother⟩

end ingest

/-! ## A retry after the route is removed -/

/-- A printer that tells all doubles apart. -/
def exactPrinter : Crates :=
  ⟨fun bits => bits.toNat.repr ++ ".0", fun _ => none, fun _ => none, fun _ => none⟩

theorem exactPrinter_printsFloats : exactPrinter.PrintsFloats where
  injective := by
    intro a b h
    have hlist : (a.toNat.repr ++ ".0").toList = (b.toNat.repr ++ ".0").toList :=
      congrArg String.toList h
    rw [String.toList_append, String.toList_append] at hlist
    have hdigits := String.toList_inj.mp (List.append_cancel_right hlist)
    exact UInt64.toNat_inj.mp (natText_inj hdigits)
  numeric := by
    intro bits c hc
    have hc : c ∈ (bits.toNat.repr ++ ".0").toList := hc
    rw [String.toList_append] at hc
    rcases List.mem_append.mp hc with hdigit | hend
    · exact Or.inl (natText_digits c hdigit)
    · have hall : ∀ c ∈ ".0".toList, c.isDigit = true ∨ c ∈ ['-', '+', '.', 'e', 'E'] := by
        decide
      exact hall c hend
  fractional := by
    intro bits
    left
    show '.' ∈ (bits.toNat.repr ++ ".0").toList
    rw [String.toList_append]
    exact List.mem_append_right _ (by decide)

theorem exactPrinter_no_exponent (bits : UInt64) : 'e' ∉ (exactPrinter.floatText bits).toList := by
  intro hc
  have hc : 'e' ∈ (bits.toNat.repr ++ ".0").toList := hc
  rw [String.toList_append] at hc
  rcases List.mem_append.mp hc with hdigit | hend
  · exact absurd (natText_digits _ hdigit) (by decide)
  · exact absurd hend (by decide)

/-- The sample event with its fields in another order. -/
def reorderedEnvelope (id : String) : Value :=
  .object [("type", .string "build.finished"), ("source", .string "ci"), ("id", .string id),
    ("data", .object [])]

/-- The event's route is removed after it was taken in. -/
def retiredOps : List Op :=
  sampleOps ++ [.routeAction "deploy" "remove" 20]

/-- The first intake of the second sample event. -/
def firstIntake : Except StoreError Receipt × Db :=
  (ingest exactPrinter "deploy" (sampleEnvelope "build-2") (sampleUuid 2) 11).run
    (Db.after exactPrinter (sampleOps.take 2))

theorem ingest_deduplicates_sample :
    ∃ state, (ingest exactPrinter "deploy" (reorderedEnvelope "build-2") (sampleUuid 4) 30).run
        (Db.after exactPrinter retiredOps) =
      (.ok ⟨(sampleUuid 2).text, state, true⟩, Db.after exactPrinter retiredOps) := by
  have hwf : (sampleEnvelope "build-2").WellFormed :=
    ⟨by decide, ⟨by decide, trivial⟩, trivial, trivial, trivial, trivial⟩
  have hwf' : (reorderedEnvelope "build-2").WellFormed :=
    ⟨by decide, trivial, trivial, trivial, ⟨by decide, trivial⟩, trivial⟩
  have hsame : (sampleEnvelope "build-2").Same (reorderedEnvelope "build-2") :=
    ⟨rfl, ⟨_, .tail _ (.tail _ (.tail _ (.head _))), rfl, trivial⟩,
      ⟨_, .tail _ (.tail _ (.head _)), rfl⟩, ⟨_, .tail _ (.head _), rfl⟩, ⟨_, .head _, rfl⟩, trivial⟩
  have hfirst : firstIntake.1 = .ok ⟨(sampleUuid 2).text, .pending, false⟩ := by decide +kernel
  have hrun : firstIntake = (.ok ⟨(sampleUuid 2).text, .pending, false⟩, firstIntake.2) :=
    Prod.ext hfirst rfl
  have hstep : (Op.ingest "deploy" (sampleEnvelope "build-2") (sampleUuid 2) 11).step exactPrinter
      (Db.after exactPrinter (sampleOps.take 2)) = firstIntake.2 := step_of_run rfl hrun
  have hleads : Leads exactPrinter firstIntake.2 (Db.after exactPrinter retiredOps) := by
    rw [← hstep]
    exact .single ⟨.routeAction "deploy" "remove" 20, trivial, rfl⟩
  exact (ingest_deduplicates exactPrinter_printsFloats hwf hrun hleads).1 _ _ _ hwf' hsame

end CodexMonitor
