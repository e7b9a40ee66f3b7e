import CodexMonitor.Discord.Requests
import CodexMonitor.Runtime.Idempotence
import CodexMonitor.Store.Commits.Calls

/-!
# One event for each message

Every request for a message carries the same text to the same binding.  The receiver
recognises the message's id under its binding and source, so however late and in
whatever order requests arrive, it holds one event for a message, and a delivery is
marked delivered only when that event is there.
-/

namespace CodexMonitor

open Transaction

namespace Discord

/-! ## The receiver -/

section receiver

variable {d : Deployment} {binding : String} {envelope : Value} {uuid : Uuid} {now : Rat}
  {db t : Db} {answer : Answer} {error : ApiError}

theorem harmless_answer {α : Type} {call : StoreM α} (h : Tx.Harmless call) (f : α → Answer) :
    Tx.Harmless (stored call >>= fun a => (pure (f a) : HttpM Answer)) := by
  intro s e
  show ((Tx.bind (Tx.mapError storageError call) fun a => Tx.pure (f a)).run s).1 = _ →
    ((Tx.bind (Tx.mapError storageError call) fun a => Tx.pure (f a)).run s).2 = _
  have hs := h s
  unfold Tx.bind Tx.mapError
  rcases hcall : call.run s with ⟨e' | a, u⟩
  · intro _
    simpa [hcall] using hs
  · simp [hcall, Tx.pure]

theorem ingest_harmless {crates : Crates} :
    Tx.Harmless (ingest crates binding envelope uuid now) :=
  (readOnly_bail _ _).bind_harmless fun _ => harmless_withTx _

/-- A refused event leaves the store as it was. -/
theorem serve_error
    (h : (d.app.serve d.token (.ingest binding envelope uuid now)).run db = (.error error, t)) :
    t = db := by
  have hharmless : Tx.Harmless (d.app.serve d.token (.ingest binding envelope uuid now)) := by
    refine (Tx.readOnly_expect _ _).bind_harmless fun name => ?_
    refine (Tx.readOnly_bailIf _ _).bind_harmless fun _ => ?_
    exact harmless_answer ingest_harmless fun receipt => ⟨202, .receipt receipt⟩
  have hkept := hharmless db error (by rw [h])
  rw [h] at hkept
  exact hkept

/-- An accepted event is one of the gateway's source, taken in. -/
theorem serve_ok
    (h : (d.app.serve d.token (.ingest binding envelope uuid now)).run db = (.ok answer, t)) :
    envelope.getStr "source" = some d.gateway.source ∧ ∃ receipt,
      (ingest d.gateway.crates binding envelope uuid now).run db = (.ok receipt, t) ∧
        answer = ⟨202, .receipt receipt⟩ := by
  simp only [App.serve, ingestHandler, App.source, require, refuseIf, stored, Tx.bind_ok,
    Tx.expect_ok, Tx.bailIf_ok, Tx.mapError_ok, Tx.pure_ok] at h
  obtain ⟨name, _, ⟨hname, rfl⟩, _, _, ⟨hsource, rfl⟩, receipt, _, hingest, rfl, rfl⟩ := h
  rw [d.owner_eq] at hname
  obtain rfl := Option.some.inj hname
  rw [d.crates_eq] at hingest
  exact ⟨Decidable.of_not_not hsource, receipt, hingest, rfl⟩

/-- What an accepted request leaves in the receiver. -/
structure Deployment.Accepted (d : Deployment) (post : Post) (envelope : Value) (db t : Db)
    (receipt : String) (e : Event) : Prop where
  parsed : d.gateway.crates.fromStr post.body = some envelope
  mem : e ∈ t.events
  id_eq : e.id = receipt
  source_eq : e.source = d.gateway.source
  binding_eq : e.binding = post.target
  eventId_eq : envelope.getStr "id" = some e.eventId
  envelope_eq : e.envelope = canonicalJson d.gateway.crates envelope
  others : ∀ f ∈ t.events, f ∈ db.events ∨ f = e
  leads : CodexMonitor.Leads d.gateway.crates db t

theorem ingest_accepted {post : Post} {receipt : Receipt}
    (hparsed : d.gateway.crates.fromStr post.body = some envelope)
    (hsource : envelope.getStr "source" = some d.gateway.source)
    (h : (ingest d.gateway.crates post.target envelope uuid now).run db = (.ok receipt, t)) :
    ∃ e, d.Accepted post envelope db t receipt.deliveryId e := by
  obtain ⟨source, id, e, _, henvelope, hholds, hid⟩ := ingest_holds h
  have hsame : source = d.gateway.source := by
    have heq := henvelope.source_eq.symm.trans hsource
    exact Option.some.inj heq
  have hstep : (Op.ingest post.target envelope uuid now).step d.gateway.crates db = t :=
    step_of_run rfl h
  refine ⟨e, hparsed, hholds.mem, hid.symm, hholds.source_eq.trans hsame, hholds.binding_eq, ?_,
    hholds.envelope_eq, ?_, ?_⟩
  · rw [hholds.id_eq]
    exact henvelope.id_eq
  · intro f hf
    simp only [ingest, withTx, Tx.bind_ok, Tx.atomically_ok, validateIdentifier_ok] at h
    obtain ⟨_, _, ⟨_, rfl⟩, h⟩ := h
    obtain rfl | ⟨stored, hstored, henabled, rfl⟩ := ingestTx_ok h
    · exact .inl hf
    · obtain ⟨f', hf', rfl⟩ | hnew := (Entry.mem_events henabled).mp hf
      · exact .inl hf'
      · -- the stored event stands where the event of the receipt stands
        obtain rfl := Option.some.inj hnew
        refine .inr (Event.eq_of_slot hf hholds.mem ?_ ?_ ?_)
        · exact hstored.binding_eq.trans hholds.binding_eq.symm
        · have heq := hstored.source_eq.symm.trans henvelope.source_eq
          exact (Option.some.inj heq).trans hholds.source_eq.symm
        · have heq := hstored.eventId_eq.symm.trans henvelope.id_eq
          exact (Option.some.inj heq).trans hholds.id_eq.symm
  · rw [← hstep]
    exact Leads.step .refl _

/-- A request is accepted, or changes nothing and has no receipt. -/
theorem receive_cases (d : Deployment) (post : Post) (uuid : Uuid) (now : Rat) (db : Db) :
    ((d.receive post uuid now db).2 = db ∧
        Gateway.receiptOf (d.receive post uuid now db).1 = none) ∨
      ∃ envelope e receipt, Gateway.receiptOf (d.receive post uuid now db).1 = some receipt ∧
        d.Accepted post envelope db (d.receive post uuid now db).2 receipt e := by
  unfold Deployment.receive
  split
  · exact .inl ⟨rfl, rfl⟩
  · rename_i envelope hparsed
    split
    · rename_i answer t hserve
      obtain ⟨hsource, receipt, hingest, rfl⟩ := serve_ok hserve
      obtain ⟨e, he⟩ := ingest_accepted hparsed hsource hingest
      exact .inr ⟨envelope, e, receipt.deliveryId, rfl, he⟩
    · rename_i error t hserve
      refine .inl ⟨serve_error hserve, ?_⟩
      unfold Gateway.receiptOf
      simp only [Option.bind_some, Option.bind_none, ite_self]

end receiver

/-! ## Rows and events -/

/-- What a request for the row carries names its message. -/
def Gateway.Named (g : Gateway) (row : Pending) : Prop :=
  ∀ v w, g.crates.fromStr row.payload = some v →
    g.crates.fromStr (canonicalJson g.crates v) = some w → w.getStr "id" = some row.id

/-- The event is that of a request for the row. -/
structure Gateway.Matches (g : Gateway) (row : Pending) (e : Event) : Prop where
  source_eq : e.source = g.source
  binding_eq : e.binding = row.target
  eventId_eq : e.eventId = row.id
  envelope_eq : ∃ v w, g.crates.fromStr row.payload = some v ∧
    g.crates.fromStr (canonicalJson g.crates v) = some w ∧ e.envelope = canonicalJson g.crates w

/-- The receiver holds the event of the row under the receipt. -/
def Gateway.Answers (g : Gateway) (receiver : Db) (row : Pending) (receipt : String) : Prop :=
  ∃ e ∈ receiver.events, e.id = receipt ∧ g.Matches row e

/-- What holds of a delivery and its receipt. -/
structure Gateway.Sound (g : Gateway) (receiver : Db) (row : Pending) : Prop where
  named : g.Named row
  delivered : ∀ receipt, row.state = .delivered → row.receipt = some receipt →
    g.Answers receiver row receipt

/-- The invariant of the deliveries and the receiver's events. -/
structure Gateway.Synced (g : Gateway) (s : System) : Prop where
  carried : g.Carried s
  sound : ∀ row ∈ s.db.pending, g.Sound s.receiver row
  events : ∀ e ∈ s.receiver.events, e.source = g.source → ∃ row ∈ s.db.pending, g.Matches row e
  noting : ∀ p row receipt rows, s.process = some p → p.work = .noting row (some receipt) rows →
    g.Answers s.receiver row receipt

section synced

variable {g : Gateway} {d : Deployment} {s t : System} {p : Process} {db db' : Adapter}
  {receiver receiver' : Db} {row row' : Pending} {post : Post} {e : Event}

theorem Gateway.Matches.same (h : g.Matches row e) (hid : row'.id = row.id)
    (htarget : row'.target = row.target) (hpayload : row'.payload = row.payload) :
    g.Matches row' e := by
  refine ⟨h.source_eq, ?_, ?_, ?_⟩
  · rw [htarget]
    exact h.binding_eq
  · rw [hid]
    exact h.eventId_eq
  · rw [hpayload]
    exact h.envelope_eq

/-- The events of the receiver keep their keys. -/
def Stays (receiver receiver' : Db) : Prop :=
  ∀ e ∈ receiver.events, ∃ f ∈ receiver'.events, f.key = e.key

theorem Stays.refl (receiver : Db) : Stays receiver receiver := fun e he => ⟨e, he, rfl⟩

theorem Stays.of_leads {crates : Crates} (h : CodexMonitor.Leads crates receiver receiver') :
    Stays receiver receiver' := by
  intro e he
  obtain ⟨f, hf, hkey, _⟩ := h.event he
  exact ⟨f, hf, hkey⟩

theorem Gateway.Matches.key {f : Event} (h : g.Matches row e) (hkey : f.key = e.key) :
    g.Matches row f := by
  obtain ⟨_, _, _, hbinding, hsource, hevent, henvelope, _⟩ := Event.key_eq hkey
  refine ⟨hsource.trans h.source_eq, hbinding.trans h.binding_eq, hevent.trans h.eventId_eq, ?_⟩
  rw [henvelope]
  exact h.envelope_eq

theorem Gateway.Answers.stays {receipt : String} (h : g.Answers receiver row receipt)
    (hstays : Stays receiver receiver') : g.Answers receiver' row receipt := by
  obtain ⟨e, he, hid, hmatches⟩ := h
  obtain ⟨f, hf, hkey⟩ := hstays e he
  exact ⟨f, hf, (Event.key_eq hkey).2.1.trans hid, hmatches.key hkey⟩

theorem Gateway.Answers.same {receipt : String} (h : g.Answers receiver row receipt)
    (hid : row'.id = row.id) (htarget : row'.target = row.target)
    (hpayload : row'.payload = row.payload) : g.Answers receiver row' receipt := by
  obtain ⟨e, he, heid, hmatches⟩ := h
  exact ⟨e, he, heid, hmatches.same hid htarget hpayload⟩

theorem Gateway.Sound.stays (h : g.Sound receiver row) (hstays : Stays receiver receiver') :
    g.Sound receiver' row :=
  ⟨h.named, fun receipt hstate hreceipt => (h.delivered receipt hstate hreceipt).stays hstays⟩

/-- A row that differs from a sound one in neither text, state nor receipt. -/
theorem Gateway.Sound.same (h : g.Sound receiver row) (hid : row'.id = row.id)
    (htarget : row'.target = row.target) (hpayload : row'.payload = row.payload)
    (hstate : row'.state = row.state) (hreceipt : row'.receipt = row.receipt) :
    g.Sound receiver row' := by
  refine ⟨?_, fun receipt hdelivered hsome => ?_⟩
  · unfold Gateway.Named
    rw [hid, hpayload]
    exact h.named
  · rw [hstate] at hdelivered
    rw [hreceipt] at hsome
    exact (h.delivered receipt hdelivered hsome).same hid htarget hpayload

/-- A step that leaves the receiver alone. -/
theorem Gateway.Synced.worked (h : g.Synced s) (hcarried : g.Carried t)
    (hkeeps : s.db.Keeps t.db) (hreceiver : t.receiver = s.receiver)
    (hsound : ∀ row ∈ t.db.pending, g.Sound s.receiver row)
    (hnoting : ∀ p row receipt rows, t.process = some p →
      p.work = .noting row (some receipt) rows → g.Answers s.receiver row receipt) :
    g.Synced t := by
  refine ⟨hcarried, ?_, ?_, ?_⟩
  · rw [hreceiver]
    exact hsound
  · intro e he hsource
    rw [hreceiver] at he
    obtain ⟨row, hrow, hmatches⟩ := h.events e he hsource
    obtain ⟨row', hrow', hid, htarget, hpayload⟩ := hkeeps.prepared row hrow
    exact ⟨row', hrow', hmatches.same hid htarget hpayload⟩
  · rw [hreceiver]
    exact hnoting

/-! ## The text of a delivery -/

/-- The payload of a command is made of strings. -/
theorem payload_strings {m : Value} {command : Command} (h : parse g.config m = some command)
    (message : String) : g.payload m command message =
      .object [("data", .object [("author_id", .string (text (field m "author") "id")),
          ("channel_id", .string command.channelId), ("message", .string message),
          ("reply_to", .string (text m "id")), ("role", .string command.role)]),
        ("id", .string (text m "id")), ("source", .string g.source),
        ("type", .string "discord.command")] := by
  have haccepts := parse_some h
  have hid := field_of_text (numeric_ne_empty haccepts.id)
  have hauthor := field_of_text (numeric_ne_empty haccepts.authorId)
  unfold Gateway.payload
  rw [haccepts.authorId_eq, hid, hauthor]

/-- A payload is read back as it was written, however often. -/
theorem payload_read {f : UInt64 → UInt64} (hprints : g.crates.PrintsFloats)
    (hreads : g.crates.Rereads f) {m v : Value} {command : Command} {message : String}
    (h : parse g.config m = some command)
    (hv : g.crates.fromStr (canonicalJson g.crates (g.payload m command message)) = some v) :
    canonicalJson g.crates v = canonicalJson g.crates (g.payload m command message) ∧
      v.getStr "id" = some (text m "id") := by
  have hstrings := payload_strings h message
  have hwf : (g.payload m command message).WellFormed := by
    rw [hstrings]
    simp [Value.WellFormed, FieldsWellFormed]
  have hfloats : ∀ bits ∈ (g.payload m command message).floats, f bits = bits := by
    rw [hstrings]
    simp [Value.floats, fieldFloats]
  have htext := (hreads.text_eq_iff hprints hwf hv).mpr hfloats
  obtain ⟨hvwf, _⟩ := hreads _ v hwf hv
  have hsame := (canonicalJson_eq_iff hprints hvwf hwf).mp htext
  refine ⟨htext, ?_⟩
  rw [hsame.getStr hvwf hwf, hstrings]
  rfl

theorem fresh_sound {f : UInt64 → UInt64} (hprints : g.crates.PrintsFloats)
    (hreads : g.crates.Rereads f) {m : Value} {command : Command} {target message : String}
    (h : parse g.config m = some command) :
    g.Sound receiver (Adapter.fresh (text m "id") target
      (canonicalJson g.crates (g.payload m command message))) := by
  refine ⟨fun v w hv hw => ?_, fun _ hstate => by cases hstate⟩
  obtain ⟨htext, hid⟩ := payload_read hprints hreads h hv
  rw [htext] at hw
  obtain rfl := Option.some.inj (hv.symm.trans hw)
  exact hid

/-! ## Steps -/

theorem edit_sound {id : String} {f : Pending → Pending} {hf : ∀ r : Pending, (f r).id = r.id}
    (h : ∀ row ∈ db.pending, g.Sound receiver row)
    (hrow : ∀ r, (f r).target = r.target ∧ (f r).payload = r.payload ∧ (f r).state = r.state ∧
      (f r).receipt = r.receipt) :
    ∀ row ∈ (db.edit id f hf).pending, g.Sound receiver row := by
  intro row hmem
  obtain ⟨q, hq, _, ⟨_, rfl⟩ | ⟨_, rfl⟩⟩ := Adapter.mem_edit hmem
  · obtain ⟨htarget, hpayload, hstate, hreceipt⟩ := hrow q
    exact (h q hq).same (hf q) htarget hpayload hstate hreceipt
  · exact h row hq

/-- A delivery is marked delivered under a receipt that the receiver has for it. -/
theorem delivered_sound {receipt : String} (h : ∀ row ∈ db.pending, g.Sound receiver row)
    (hhas : db.Has row) (hanswers : g.Answers receiver row receipt) :
    ∀ q ∈ (db.setDelivered row.id receipt).pending, g.Sound receiver q := by
  intro q' hmem
  obtain ⟨q, hq, _, ⟨hid, rfl⟩ | ⟨_, rfl⟩⟩ := Adapter.mem_edit hmem
  · obtain ⟨other, hother, hid', htarget, hpayload⟩ := hhas
    obtain rfl := Pending.eq_of_id hother hq (hid'.trans hid.symm)
    refine ⟨?_, fun found _ hreceipt => ?_⟩
    · exact (h other hq).named
    · obtain rfl : receipt = found := Option.some.inj hreceipt
      exact hanswers.same hid' htarget hpayload
  · exact h q' hq

theorem workStep_synced {f : UInt64 → UInt64} (hprints : g.crates.PrintsFloats)
    (hreads : g.crates.Rereads f) (h : g.Synced s) (hp : s.process = some p) {a : WorkAct}
    (hstep : g.workStep s p a = some t) : g.Synced t := by
  have hkeeps := (workStep_writes hstep).keeps
  have hcarried := workStep_carried h.carried hp hstep
  -- no receipt is noted by a step that leaves the worker elsewhere
  have hquiet : ∀ work : Work, (∀ row receipt rows, work ≠ .noting row (some receipt) rows) →
      ∀ q row receipt rows, some { p with work := work } = some q →
        q.work = .noting row (some receipt) rows → g.Answers s.receiver row receipt := by
    intro work hwork q row receipt rows hq hnoting
    cases hq
    exact absurd hnoting (hwork row receipt rows)
  cases a with
  | selectRaw | selectUnseen now | gaveUp =>
      simp only [Gateway.workStep] at hstep
      split at hstep
      · cases hstep
        exact h.worked hcarried hkeeps rfl h.sound (hquiet _ fun row receipt rows heq => by cases heq)
      · cases hstep
  | prepared w =>
      simp only [Gateway.workStep] at hstep
      split at hstep
      · split at hstep
        · cases hstep
          exact h.worked hcarried hkeeps rfl h.sound
            (hquiet _ fun row receipt rows heq => by cases heq)
        · rename_i m command hread
          cases hstep
          obtain ⟨_, hparse⟩ := read_ok hread
          refine h.worked hcarried hkeeps rfl ?_ (hquiet _ fun row receipt rows heq => by cases heq)
          intro q hq
          obtain hq | ⟨rfl, _⟩ := Adapter.mem_move hq
          · exact h.sound q hq
          · exact fresh_sound hprints hreads hparse
      · cases hstep
  | selectDue now | posted =>
      simp only [Gateway.workStep] at hstep
      split at hstep
      · split at hstep
        · cases hstep
          exact h.worked hcarried hkeeps rfl h.sound
            (hquiet _ fun row receipt rows heq => by cases heq)
        · cases hstep
          exact h.worked hcarried hkeeps rfl h.sound
            (hquiet _ fun row receipt rows heq => by cases heq)
      · cases hstep
  | noted now =>
      simp only [Gateway.workStep] at hstep
      split at hstep
      · rename_i row receipt rows hwork
        have hhas : s.db.Has row := by
          refine h.carried.rows p hp row ?_
          rw [hwork]
          exact List.mem_cons_self
        cases hstep
        refine h.worked hcarried hkeeps rfl ?_ (hquiet _ fun row receipt rows heq => by cases heq)
        cases receipt with
        | none => exact edit_sound h.sound fun _ => ⟨rfl, rfl, rfl, rfl⟩
        | some receipt => exact delivered_sound h.sound hhas (h.noting p row receipt rows hp hwork)
      · cases hstep
  | looked w =>
      simp only [Gateway.workStep] at hstep
      split at hstep
      · cases hstep
        refine h.worked hcarried hkeeps rfl ?_ (hquiet _ fun row receipt rows heq => by cases heq)
        split
        · exact edit_sound h.sound fun _ => ⟨rfl, rfl, rfl, rfl⟩
        · exact h.sound
        · exact edit_sound h.sound fun _ => ⟨rfl, rfl, rfl, rfl⟩
      · cases hstep
  | faltered =>
      cases hstep
      exact h.worked hcarried hkeeps rfl h.sound (hquiet _ fun row receipt rows heq => by cases heq)

/-! ## Answers -/

/-- A receipt that is noted was noted before, or is the answer. -/
theorem answer_noting {serial : Nat} {receipt : Option String} {found : String}
    {rows : List Pending} (h : (p.answer serial receipt).work = .noting row (some found) rows) :
    p.work = .noting row (some found) rows ∨
      (p.work = .waiting serial row rows ∧ receipt = some found) := by
  unfold Process.answer at h
  split at h
  · rename_i n row' rows' hwork
    split at h
    · rename_i hserial
      cases h
      rw [← hserial]
      exact .inr ⟨hwork, rfl⟩
    · exact .inl h
  · exact .inl h

/-- The event of an accepted request is the one of the request's row. -/
theorem Deployment.Accepted.matches {envelope : Value} {receipt : String}
    (h : d.Accepted post envelope receiver receiver' receipt e)
    (hnamed : d.gateway.Named row) (hcarries : d.gateway.Carries row post) :
    d.gateway.Matches row e := by
  obtain ⟨_, htarget, v, hv, hbody⟩ := hcarries
  have hparsed := h.parsed
  rw [hbody] at hparsed
  refine ⟨h.source_eq, h.binding_eq.trans htarget, ?_, v, envelope, hv, hparsed, h.envelope_eq⟩
  have hid := hnamed v envelope hv hparsed
  exact Option.some.inj (h.eventId_eq.symm.trans hid)

/-- What arrived keeps the invariant, whoever hears of it. -/
theorem arrived_synced (h : d.gateway.Synced s) {n : Nat} {uuid : Uuid} {now : Rat}
    {answered : Bool} (hstep : d.step s (.arrived n uuid now answered) = some t) :
    d.gateway.Synced t := by
  have hcarried := step_carried h.carried hstep
  obtain ⟨post, hpost, hstep⟩ := Option.map_eq_some_iff.mp hstep
  have hposted : post ∈ s.posts := h.carried.flying post (List.mem_of_getElem? hpost)
  obtain ⟨row, hrow, hcarries⟩ := h.carried.posts post hposted
  have hcases := receive_cases d post uuid now s.receiver
  have hstays : Stays s.receiver (d.receive post uuid now s.receiver).2 := by
    obtain ⟨hsame, _⟩ | ⟨_, _, _, _, haccepted⟩ := hcases
    · rw [hsame]
      exact .refl _
    · exact .of_leads haccepted.leads
  obtain rfl := hstep
  refine ⟨hcarried, fun row hrow => (h.sound row hrow).stays hstays, ?_, ?_⟩
  · intro e he hsource
    obtain ⟨hsame, _⟩ | ⟨envelope, e', receipt, _, haccepted⟩ := hcases
    · have he : e ∈ (d.receive post uuid now s.receiver).2.events := he
      rw [hsame] at he
      exact h.events e he hsource
    · obtain hold | rfl := haccepted.others e he
      · exact h.events e hold hsource
      · exact ⟨row, hrow, haccepted.matches (h.sound row hrow).named hcarries⟩
  · intro q row' found rows' hq hwork
    cases answered with
    | false => exact (h.noting q row' found rows' hq hwork).stays hstays
    | true =>
        obtain ⟨p, hp, rfl⟩ := Option.map_eq_some_iff.mp hq
        obtain hold | ⟨hwaiting, hreceipt⟩ := answer_noting hwork
        · exact (h.noting p row' found rows' hp hold).stays hstays
        · -- the answer is to the request of the row that waits
          obtain ⟨post', hpost', hid⟩ := h.carried.waiting p post.serial row' rows' hp hwaiting
          obtain rfl := Option.some.inj (hpost'.symm.trans (h.carried.serials post hposted))
          have hmem : row' ∈ p.work.rows := by
            rw [hwaiting]
            exact List.mem_cons_self
          obtain ⟨q, hq, hqid, htarget, hpayload⟩ := h.carried.rows p hp row' hmem
          obtain rfl := Pending.eq_of_id hq hrow (hqid.trans (hid.symm.trans hcarries.1))
          obtain ⟨_, hnone⟩ | ⟨envelope, e, receipt, hsome, haccepted⟩ := hcases
          · rw [hnone] at hreceipt
            cases hreceipt
          · rw [hsome] at hreceipt
            obtain rfl := Option.some.inj hreceipt
            have hmatches := haccepted.matches (h.sound q hrow).named hcarries
            exact ⟨e, haccepted.mem, haccepted.id_eq,
              hmatches.same hqid.symm htarget.symm hpayload.symm⟩

/-- A call of somebody else keeps the invariant. -/
theorem called_synced (h : d.gateway.Synced s) {op : Op}
    (hforeign : d.Foreign op s.receiver)
    (hcarried : d.gateway.Carried { s with receiver := op.step d.gateway.crates s.receiver }) :
    d.gateway.Synced { s with receiver := op.step d.gateway.crates s.receiver } := by
  have hstays : Stays s.receiver (op.step d.gateway.crates s.receiver) :=
    .of_leads (Leads.step .refl op)
  refine ⟨hcarried, fun row hrow => (h.sound row hrow).stays hstays, ?_,
    fun p row receipt rows hp hwork => (h.noting p row receipt rows hp hwork).stays hstays⟩
  intro e he hsource
  obtain ⟨e₀, he₀, hid⟩ := List.mem_map.mp (hforeign e he hsource)
  obtain ⟨f, hf, hkey⟩ := hstays e₀ he₀
  have hkeys := Event.key_eq hkey
  obtain rfl := Event.eq_of_id hf he (hkeys.2.1.trans hid)
  obtain ⟨row, hrow, hmatches⟩ := h.events e₀ he₀ (hkeys.2.2.2.2.1.symm.trans hsource)
  exact ⟨row, hrow, hmatches.key hkey⟩

theorem step_synced {f : UInt64 → UInt64} (hprints : d.gateway.crates.PrintsFloats)
    (hreads : d.gateway.crates.Rereads f) (h : d.gateway.Synced s) {a : Act}
    (hstep : d.step s a = some t) : d.gateway.Synced t := by
  have hkeeps := step_keeps hstep
  have hcarried := step_carried h.carried hstep
  cases a with
  | written channel m | opened sid v | dispatched sid v =>
      obtain ⟨_, hstep⟩ := Option.ite_none_right_eq_some.mp hstep
      cases hstep
      exact h.worked hcarried hkeeps rfl h.sound h.noting
  | called op =>
      obtain ⟨hforeign, hstep⟩ := Option.ite_none_right_eq_some.mp hstep
      cases hstep
      exact called_synced h hforeign hcarried
  | arrived n uuid now answered => exact arrived_synced h hstep
  | started since =>
      simp only [Deployment.step] at hstep
      split at hstep
      · obtain ⟨_, hstep⟩ := Option.ite_none_right_eq_some.mp hstep
        cases hstep
        refine h.worked hcarried hkeeps rfl h.sound ?_
        intro q row receipt rows hq hwork
        cases hq
        cases hwork
      · cases hstep
  | crashed =>
      cases hstep
      refine h.worked hcarried hkeeps rfl h.sound ?_
      intro q row receipt rows hq
      cases hq
  | link a =>
      obtain ⟨p, hp, hstep⟩ := Option.bind_eq_some_iff.mp hstep
      have hlinks := linkStep_links hp hstep
      obtain ⟨q, hq, hwork, _⟩ := hlinks.process
      refine h.worked hcarried hkeeps hlinks.receiver ?_ ?_
      · rw [hlinks.pending]
        exact h.sound
      · intro q' row receipt rows hq' hnoting
        obtain rfl := Option.some.inj (hq.symm.trans hq')
        rw [hwork] at hnoting
        exact h.noting p row receipt rows hp hnoting
  | work a =>
      obtain ⟨p, hp, hstep⟩ := Option.bind_eq_some_iff.mp hstep
      exact workStep_synced hprints hreads h hp hstep

/-! ## Runs -/

/-- What an earlier adapter left: its deliveries name their messages, and the receiver's events of
the source are theirs. -/
structure Gateway.Adopted (g : Gateway) (s : System) : Prop where
  sound : ∀ row ∈ s.db.pending, g.Sound s.receiver row
  events : ∀ e ∈ s.receiver.events, e.source = g.source → ∃ row ∈ s.db.pending, g.Matches row e

theorem initial_synced (h : s.Initial) (hadopted : g.Adopted s) : g.Synced s := by
  refine ⟨initial_carried h, hadopted.sound, hadopted.events, ?_⟩
  intro p row receipt rows hp
  rw [h.process] at hp
  cases hp

theorem leads_synced {f : UInt64 → UInt64} (hprints : d.gateway.crates.PrintsFloats)
    (hreads : d.gateway.crates.Rereads f) (hstart : s.Initial) (hadopted : d.gateway.Adopted s)
    (hleads : d.Leads s t) : d.gateway.Synced t :=
  Runs.Leads.invariant (P := d.gateway.Synced)
    (fun _ _ _ h hstep => step_synced hprints hreads h hstep) hleads
    (initial_synced hstart hadopted)

end synced

/-! ## Requests that arrive twice -/

theorem recalling_printsFloats (values : List Value) : (recalling values).PrintsFloats :=
  ⟨exactPrinter_printsFloats.injective, exactPrinter_printsFloats.numeric,
    exactPrinter_printsFloats.fractional⟩

/-- What is read has the text of the printed value, so it is the same value. -/
theorem recalling_rereads {values : List Value} (h : ∀ v ∈ values, v.WellFormed) :
    (recalling values).Rereads id := by
  intro v w hv hread
  have hfound : values.find? (fun u => canonicalJson exactPrinter u =
      canonicalJson (recalling values) v) = some w := hread
  have hw : w.WellFormed := h w (List.mem_of_find?_eq_some hfound)
  have hv' := reread_wellFormed (f := id) v hv
  have hsame : (v.reread id).Same v := (same_reread v hv).mpr fun _ _ => rfl
  have hfind := List.find?_some hfound
  have htext : canonicalJson exactPrinter w = canonicalJson exactPrinter v :=
    (of_decide_eq_true hfind).trans (recalling_text v)
  refine ⟨hw, (canonicalJson_eq_iff exactPrinter_printsFloats hw hv').mp ?_⟩
  exact htext.trans ((canonicalJson_eq_iff exactPrinter_printsFloats hv' hv).mpr hsame).symm

theorem sampleGateway_rereads : sampleGateway.crates.Rereads id := by
  refine recalling_rereads ?_
  simp [acceptedMessage, strangerMessage, sampleMessage, acceptedPayload, Value.WellFormed,
    FieldsWellFormed]

theorem sampleStart_adopted : sampleGateway.Adopted (sampleStart []) := by
  refine ⟨fun row hrow => absurd hrow (Table.not_mem_empty row), fun e he _ => ?_⟩
  have hnone : (sampleStart []).receiver.events.rows = [] := by decide +kernel
  exact absurd (hnone ▸ he : e ∈ []) List.not_mem_nil

/-- The gateway gives up on the first request, which arrives late; then the second one arrives and
is answered. -/
def lateActs : List Act :=
  arrivalActs ++
    [.work .selectRaw, .work (.prepared sampleWorld), .work (.selectDue 0), .work .posted,
      .work .gaveUp, .work (.noted 0), .work (.selectUnseen 0), .work .faltered,
      .work .selectRaw, .work (.selectDue 10), .work .posted, .arrived 0 (sampleUuid 1) 20 false,
      .arrived 0 (sampleUuid 2) 30 true, .work (.noted 40)]

/-- The process is started again. -/
def restartActs : List Act :=
  [.crashed, .started none, .work .selectRaw, .work (.selectDue 100)]

theorem lateActs_run :
    ∃ t, sampleDeployment.Leads (sampleStart []) t ∧ t.posts.length = 2 ∧
      (∃ e ∈ t.receiver.events, e.source = "discord-example") ∧
      (∃ row ∈ t.db.pending, row.id = "66666666666666666" ∧ row.state = .delivered ∧
        row.receipt.isSome = true) ∧
      (Runs.run? sampleDeployment.step restartActs t).isSome = true := by
  have hrun : (Runs.run? sampleDeployment.step lateActs (sampleStart [])).any
      (fun t => t.posts.length = 2 ∧
        (∃ e ∈ t.receiver.events.rows, e.source = "discord-example") ∧
        (∃ row ∈ t.db.pending.rows, row.id = "66666666666666666" ∧ row.state = .delivered ∧
          row.receipt.isSome = true) ∧
        (Runs.run? sampleDeployment.step restartActs t).isSome = true) = true := by
    decide +kernel
  obtain ⟨t, ht, hfacts⟩ := Option.any_eq_true _ _ |>.mp hrun
  exact ⟨t, Runs.leads_run ht, of_decide_eq_true hfacts⟩

section synced

variable {g : Gateway} {d : Deployment} {s t : System}

/-- **The receiver holds one event for a message.**  Requests may be repeated, arrive late, in any
order or not at all, and their answers may be lost; still no two events of the gateway's source name
the same message, and each is the event of that message's row. -/
theorem one_event (d : Deployment) (s t : System) (f : UInt64 → UInt64)
    (hprints : d.gateway.crates.PrintsFloats) (hreads : d.gateway.crates.Rereads f)
    (hstart : s.Initial) (hadopted : d.gateway.Adopted s) (hleads : d.Leads s t) :
    (∀ e ∈ t.receiver.events, e.source = d.gateway.source →
      ∃ row ∈ t.db.pending, d.gateway.Matches row e) ∧
    ∀ e ∈ t.receiver.events, ∀ e' ∈ t.receiver.events, e.source = d.gateway.source →
      e'.source = d.gateway.source → e.eventId = e'.eventId → e = e' := by
  have h := leads_synced hprints hreads hstart hadopted hleads
  refine ⟨h.events, fun e he e' he' hsource hsource' hid => ?_⟩
  obtain ⟨row, hrow, hmatches⟩ := h.events e he hsource
  obtain ⟨row', hrow', hmatches'⟩ := h.events e' he' hsource'
  have hrows : row.id = row'.id :=
    hmatches.eventId_eq.symm.trans (hid.trans hmatches'.eventId_eq)
  obtain rfl := Pending.eq_of_id hrow hrow' hrows
  exact Event.eq_of_slot he he' (hmatches.binding_eq.trans hmatches'.binding_eq.symm)
    (hsource.trans hsource'.symm) hid

theorem one_event_sample :
    ∃ t, sampleDeployment.Leads (sampleStart []) t ∧ t.posts.length = 2 ∧
      (∃ e ∈ t.receiver.events, e.source = "discord-example") ∧
      ∀ e ∈ t.receiver.events, ∀ e' ∈ t.receiver.events, e.source = "discord-example" →
        e'.source = "discord-example" → e.eventId = e'.eventId → e = e' := by
  obtain ⟨t, hleads, hposts, hevent, _⟩ := lateActs_run
  have hone := one_event sampleDeployment (sampleStart []) t id (recalling_printsFloats _)
    sampleGateway_rereads sampleStart_initial sampleStart_adopted hleads
  exact ⟨t, hleads, hposts, hevent, hone.2⟩

/-- **Delivered means stored.**  When a row is marked delivered, the receiver holds its event, with
its content, under the receipt of the row. -/
theorem delivered_stored (d : Deployment) (s t : System) (f : UInt64 → UInt64) (row : Pending)
    (receipt : String) (hprints : d.gateway.crates.PrintsFloats)
    (hreads : d.gateway.crates.Rereads f) (hstart : s.Initial) (hadopted : d.gateway.Adopted s)
    (hleads : d.Leads s t) (hrow : row ∈ t.db.pending) (hstate : row.state = .delivered)
    (hreceipt : row.receipt = some receipt) :
    ∃ e ∈ t.receiver.events, e.id = receipt ∧ d.gateway.Matches row e := by
  have h := leads_synced hprints hreads hstart hadopted hleads
  exact (h.sound row hrow).delivered receipt hstate hreceipt

end synced

theorem delivered_stored_sample :
    ∃ t row receipt, sampleDeployment.Leads (sampleStart []) t ∧ row ∈ t.db.pending ∧
      row.state = .delivered ∧
      ∃ e ∈ t.receiver.events, e.id = receipt ∧ sampleGateway.Matches row e := by
  obtain ⟨t, hleads, _, _, ⟨row, hrow, _, hstate, hsome⟩, _⟩ := lateActs_run
  obtain ⟨receipt, hreceipt⟩ := Option.isSome_iff_exists.mp hsome
  have hstored := delivered_stored sampleDeployment (sampleStart []) t id row receipt
    (recalling_printsFloats _) sampleGateway_rereads sampleStart_initial sampleStart_adopted hleads
    hrow hstate hreceipt
  exact ⟨t, row, receipt, hleads, hrow, hstate, hstored⟩

end Discord

end CodexMonitor
