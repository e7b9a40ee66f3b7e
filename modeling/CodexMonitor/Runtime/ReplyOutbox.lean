import CodexMonitor.Runtime.Ownership

/-!
# The outbox of replies

A reply is a row that is written once: nothing changes its columns afterwards but the
acknowledgement time, and that only from empty to set, by an acknowledgement that names
the row's own source and id.  So a repeated `reply_put` finds the row for ever, before
any limit is asked, and a source reads each of its replies, in insertion order, from the
call that stored it to its own acknowledgement and never again.
-/

namespace CodexMonitor

open Transaction

/-! ## Reading an outbox -/

/-- `source` reads the reply `id`. -/
def Db.Lists (db : Db) (source id : String) : Prop :=
  ∃ rows t, (readReplies source).run db = (.ok rows, t) ∧ id ∈ rows.map Reply.id

section table

variable {table : Table Reply} {r q : Reply}

theorem Reply.eq_of_id (hr : r ∈ table) (hq : q ∈ table) (h : r.id = q.id) : r = q :=
  Table.eq_of_not_fits hr hq (fun hfit => hfit.2.1 h) (fun hfit => hfit.2.1 h.symm)

/-- An event has at most one reply of a key. -/
theorem Reply.eq_of_replyKey (hr : r ∈ table) (hq : q ∈ table)
    (hdelivery : r.deliveryId = q.deliveryId) (hkey : r.replyKey = q.replyKey) : r = q :=
  Table.eq_of_not_fits hr hq (fun hfit => hfit.2.2 ⟨hdelivery, hkey⟩)
    (fun hfit => hfit.2.2 ⟨hdelivery.symm, hkey.symm⟩)

end table

/-- What a successful `readReplies` answers: the waiting rows as they stand in the table. -/
theorem readReplies_ok {source : String} {db t : Db} {rows : List Reply} :
    (readReplies source).run db = (.ok rows, t) ↔
      isIdentifier source = true ∧ t = db ∧
        rows = db.replies.rows.filter fun r => r.source = source ∧ r.acknowledged = none := by
  have hsorted : db.replies.rows.Pairwise fun a b => a.seq ≤ b.seq :=
    db.replies.fits.imp fun hfit => Nat.le_of_lt hfit.1
  have hrows : (db.replies.select (fun r => r.source = source ∧ r.acknowledged = none)
      fun a b => a.seq ≤ b.seq) =
      db.replies.rows.filter fun r => r.source = source ∧ r.acknowledged = none :=
    Table.select_of_pairwise hsorted
  simp only [readReplies, Tx.bind_ok, validateIdentifier_ok, Tx.query_ok]
  constructor
  · intro h
    obtain ⟨_, _, ⟨hsource, rfl⟩, hanswer, rfl⟩ := h
    rw [hrows] at hanswer
    exact ⟨hsource, rfl, hanswer.symm⟩
  · intro h
    obtain ⟨hsource, rfl, rfl⟩ := h
    exact ⟨(), t, ⟨hsource, rfl⟩, hrows, rfl⟩

theorem Db.lists_iff {db : Db} {source : String} {r : Reply} (hr : r ∈ db.replies) :
    db.Lists source r.id ↔
      isIdentifier source = true ∧ r.source = source ∧ r.acknowledged = none := by
  unfold Db.Lists
  constructor
  · intro h
    obtain ⟨rows, t, hrun, hid⟩ := h
    obtain ⟨hsource, _, rfl⟩ := readReplies_ok.mp hrun
    simp only [List.mem_map, List.mem_filter, decide_eq_true_eq] at hid
    obtain ⟨q, ⟨hq, hwaits⟩, hqid⟩ := hid
    obtain rfl := Reply.eq_of_id hq hr hqid
    exact ⟨hsource, hwaits⟩
  · intro h
    obtain ⟨hsource, hwaits⟩ := h
    refine ⟨_, db, readReplies_ok.mpr ⟨hsource, rfl, rfl⟩, ?_⟩
    simp only [List.mem_map, List.mem_filter, decide_eq_true_eq]
    exact ⟨r, ⟨hr, hwaits⟩, rfl⟩

/-- An acknowledgement time that is set stays. -/
theorem Entry.onReply_acknowledged (k : Entry) {r : Reply} {time : Rat}
    (h : r.acknowledged = some time) : k.onReply r = r := by
  cases k with
  | acknowledge =>
      simp only [Entry.onReply]
      split
      · cases r
        simp_all
      · rfl
  | _ => rfl

/-! ## Along a run -/

section runs

variable {crates : Crates} {db db' : Db} {r : Reply}

/-- A stored reply keeps its key, and once acknowledged the whole row. -/
theorem Leads.reply (h : Leads crates db db') (hr : r ∈ db.replies) :
    ∃ q ∈ db'.replies, q.key = r.key ∧ (r.acknowledged ≠ none → q = r) := by
  refine Leads.invariant (P := fun d => ∃ q ∈ d.replies, q.key = r.key ∧
    (r.acknowledged ≠ none → q = r)) h ?_ ⟨r, hr, rfl, fun _ => rfl⟩
  intro k d hk hd
  obtain ⟨q, hq, hkey, hsettled⟩ := hd
  refine ⟨k.onReply q, (Entry.mem_replies hk).mpr (Or.inl ⟨q, hq, rfl⟩), ?_, ?_⟩
  · rw [k.onReply_key, hkey]
  · intro hset
    obtain rfl := hsettled hset
    obtain ⟨time, htime⟩ := Option.ne_none_iff_exists'.mp hset
    exact k.onReply_acknowledged htime

/-- Rows keep their places; new ones come after them. -/
theorem Leads.replyRows (h : Leads crates db db') :
    ∃ added, db'.replies.rows.map Reply.key = db.replies.rows.map Reply.key ++ added := by
  refine Leads.invariant (P := fun d => ∃ added,
    d.replies.rows.map Reply.key = db.replies.rows.map Reply.key ++ added) h ?_
    ⟨[], (List.append_nil _).symm⟩
  intro k d hk hd
  obtain ⟨added, hadded⟩ := hd
  have hsame : (d.replies.rows.map k.onReply).map Reply.key = d.replies.rows.map Reply.key := by
    rw [List.map_map]
    exact List.map_congr_left fun q _ => k.onReply_key q
  refine ⟨added ++ k.newReply?.toList.map Reply.key, ?_⟩
  rw [Entry.rows_replies hk, List.map_append, hsame, hadded, List.append_assoc]

/-- `SELECT count(*) FROM replies WHERE acknowledged IS NULL`. -/
def Db.waitingReplies (db : Db) : Nat := db.replies.count fun r => r.acknowledged = none

/-- Only a new reply waits that did not wait before, and it is stored when there is room. -/
theorem Entry.waitingReplies_le {k : Entry} (h : k.Enabled crates db)
    (hdb : db.waitingReplies ≤ maxReplies) :
    (k.apply crates db).waitingReplies ≤ maxReplies := by
  have hold : (db.replies.rows.map k.onReply).countP (fun r => r.acknowledged = none) ≤
      db.waitingReplies := by
    refine countP_map_le fun r _ hwaits => ?_
    by_contra hset
    obtain ⟨time, htime⟩ := Option.ne_none_iff_exists'.mp hset
    rw [k.onReply_acknowledged htime] at hwaits
    exact hset hwaits
  have hcount : (k.apply crates db).waitingReplies =
      (db.replies.rows.map k.onReply).countP (fun r => r.acknowledged = none) +
        k.newReply?.toList.countP fun r => r.acknowledged = none := by
    unfold Db.waitingReplies Table.count
    rw [Entry.rows_replies h, List.countP_append]
  cases k with
  | reply q =>
      have hroom : db.waitingReplies < maxReplies := h.2.2.2.2
      have hone : (Entry.reply q).newReply?.toList.countP (fun r => r.acknowledged = none) ≤ 1 :=
        List.countP_le_length
      omega
  | _ =>
      simp only [Entry.newReply?, Option.toList_none, List.countP_nil] at hcount
      omega

theorem Reachable.waitingReplies_le (h : Reachable crates db) : db.waitingReplies ≤ maxReplies :=
  Leads.invariant (P := fun d => d.waitingReplies ≤ maxReplies) h
    (fun _ _ hk hd => Entry.waitingReplies_le hk hd) (Nat.zero_le _)

/-! ## Every source is an identifier -/

/-- The sources of bindings and events pass the identifier check. -/
structure Db.SourcesValid (db : Db) : Prop where
  bindings : ∀ b ∈ db.bindings, ∀ source ∈ b.sources, isIdentifier source = true
  events : ∀ e ∈ db.events, isIdentifier e.source = true

/-- Events come in from sources of a binding, so only a new binding has to be looked at. -/
theorem Db.SourcesValid.apply {k : Entry} (hdb : db.SourcesValid) (h : k.Enabled crates db)
    (hbind : ∀ b, k = .bind b → ∀ source ∈ b.sources, isIdentifier source = true) :
    (k.apply crates db).SourcesValid where
  bindings := by
    intro b hb
    rcases (Entry.mem_bindings h).mp hb with hold | hnew
    · obtain ⟨c, hc, rfl⟩ := hold
      rw [(k.onBinding_key c).2.2.2]
      exact hdb.bindings c hc
    · cases k with
      | bind c =>
          cases hnew
          exact hbind b rfl
      | createWatch c w =>
          cases hnew
          rw [h.2.2.2.2.1]
          decide
      | _ => cases hnew
  events := by
    intro e he
    have haccepted : ∀ binding source b, db.Accepts binding source b →
        isIdentifier source = true := fun _ source b hb => hdb.bindings b hb.1 source hb.2.2.2.2
    rcases (Entry.mem_events h).mp he with hold | hnew
    · obtain ⟨f, hf, rfl⟩ := hold
      rw [(Event.key_eq (k.onEvent_key f)).2.2.2.2.1]
      exact hdb.events f hf
    · cases k with
      | store f =>
          cases hnew
          obtain ⟨b, hb⟩ := h.2.2.2.1
          exact haccepted _ _ b hb
      | deliver n f now =>
          cases hnew
          obtain ⟨b, hb⟩ := h.2.1
          rw [h.2.2.2.2.1]
          exact haccepted _ _ b hb
      | _ => cases hnew

/-- A registered route names valid sources. -/
theorem bind_sources {name thread endpoint : String} {sources : List String} {t : Db} {b : Binding}
    (h : (bind crates name thread endpoint sources).run db = (.ok b, t)) :
    ∀ source ∈ sources, isIdentifier source = true := by
  have hvalid : ∀ (sources : List String) {s t : Db} {u : Unit},
      (validateSources sources).run s = (.ok u, t) → ∀ source ∈ sources,
        isIdentifier source = true := by
    intro sources
    induction sources with
    | nil => exact fun _ source hsource => absurd hsource List.not_mem_nil
    | cons first rest ih =>
        intro s t u hrun source hsource
        simp only [validateSources, Tx.bind_ok, validateIdentifier_ok, bailIf_run_ok] at hrun
        obtain ⟨_, _, ⟨hfirst, rfl⟩, _, _, ⟨_, rfl⟩, hrest⟩ := hrun
        rcases List.mem_cons.mp hsource with rfl | hmem
        · exact hfirst
        · exact ih hrest source hmem
  simp only [bind, Tx.bind_ok, validateIdentifier_ok, bailIf_run_ok] at h
  obtain ⟨_, _, ⟨_, rfl⟩, _, _, ⟨_, rfl⟩, _, _, ⟨_, rfl⟩, _, _, hendpoint, _, _, ⟨_, rfl⟩,
    _, _, hsources, _⟩ := h
  exact hvalid sources hsources

theorem Db.SourcesValid.step {op : Op} (hdb : db.SourcesValid) :
    (op.step crates db).SourcesValid := by
  have hother : (∀ b, ¬ op.Writes crates (.bind b)) → (op.step crates db).SourcesValid := by
    intro hnone
    refine (op.commits crates db).invariant (fun k hk d henabled hd => hd.apply henabled ?_) hdb
    intro b hb
    subst hb
    exact absurd hk (hnone b)
  cases op with
  | bind name thread endpoint sources =>
      rcases hrun : (bind crates name thread endpoint sources).run db with ⟨error | b, t⟩
      · rw [step_of_fail rfl hrun]
        exact hdb
      · rw [step_of_run rfl hrun]
        refine (bind_commits hrun).invariant (fun k hk d henabled hd => hd.apply henabled ?_) hdb
        intro b hb
        cases hk
        cases hb
        exact bind_sources hrun
  | _ =>
      refine hother fun b hwrites => ?_
      cases hwrites

theorem Reachable.sourcesValid (h : Reachable crates db) : db.SourcesValid :=
  LeadsBy.invariant (P := Db.SourcesValid) (fun _ _ hd _ => hd.step) h
    ⟨fun b hb => absurd hb (Table.not_mem_empty b), fun e he => absurd he (Table.not_mem_empty e)⟩

end runs

/-! ## Putting a reply -/

section put

variable {crates : Crates} {db t : Db} {deliveryId replyKey message : String} {uuid : Uuid}
  {now : Rat} {receipt : ReplyReceipt}

/-- What a successful `replyPut` leaves behind: valid arguments, its event and its reply. -/
theorem replyPut_recorded
    (h : (replyPut deliveryId replyKey message uuid now).run db = (.ok receipt, t)) :
    isIdentifier deliveryId = true ∧ isIdentifier replyKey = true ∧
      (validateText message "reply message" maxReplyBytes).run db = (.ok (), db) ∧
      (∃ e ∈ t.events, e.id = deliveryId) ∧
      ∃ r ∈ t.replies, r.deliveryId = deliveryId ∧ r.replyKey = replyKey ∧ r.message = message ∧
        r.id = receipt.replyId := by
  simp only [replyPut, Tx.bind_ok, validateIdentifier_ok, validateText_ok, withTx,
    Tx.atomically_ok, Tx.query_ok, Tx.expect_ok] at h
  obtain ⟨_, _, ⟨hid, rfl⟩, _, _, ⟨hkey, rfl⟩, _, _, ⟨htext, rfl⟩, row, _, ⟨hrow, rfl⟩, e, _,
    ⟨rfl, rfl⟩, _, _, ⟨hprior, rfl⟩, h⟩ := h
  obtain ⟨he, heid⟩ := Table.find?_some hrow
  refine ⟨hid, hkey, validateText_ok.mpr ⟨htext, rfl⟩, ?_⟩
  split at h
  · rename_i r
    obtain ⟨hr, hdelivery, hreply⟩ := Table.find?_some hprior
    simp only [Tx.bind_ok, bailIf_run_ok, Tx.pure_ok] at h
    obtain ⟨_, _, ⟨hsame, rfl⟩, rfl, rfl⟩ := h
    exact ⟨⟨e, he, heid⟩, r, hr, hdelivery, hreply, Decidable.of_not_not hsame, rfl⟩
  · simp only [Tx.bind_ok, Tx.query_ok, bailIf_run_ok, insertReply_ok, Tx.pure_ok] at h
    obtain ⟨_, _, ⟨rfl, rfl⟩, _, _, ⟨_, rfl⟩, _, _, ⟨hadmits, rfl⟩, rfl, rfl⟩ := h
    exact ⟨⟨e, he, heid⟩, _, (Table.mem_add hadmits).mpr (Or.inr rfl), rfl, rfl, rfl, rfl⟩

/-- A call for a delivery and a key that have a reply looks at nothing else. -/
theorem replyPut_found {r : Reply} {e : Event} (hid : isIdentifier deliveryId = true)
    (hkey : isIdentifier replyKey = true) (he : e ∈ db.events) (heid : e.id = deliveryId)
    (hr : r ∈ db.replies) (hdelivery : r.deliveryId = deliveryId) (hreply : r.replyKey = replyKey)
    (htext : (validateText message "reply message" maxReplyBytes).run db = (.ok (), db)) :
    (replyPut deliveryId replyKey message uuid now).run db =
      if r.message = message then (.ok ⟨r.id, true⟩, db)
      else (.error (.bail "reply id already used for different content"), db) := by
  have hevent : (db.events.find? fun e => e.id = deliveryId) = some e :=
    Table.find?_eq_of_unique he heid fun f hf hfid => Event.eq_of_id hf he (hfid.trans heid.symm)
  have hprior : (db.replies.find? fun r => r.deliveryId = deliveryId ∧ r.replyKey = replyKey) =
      some r :=
    Table.find?_eq_of_unique hr ⟨hdelivery, hreply⟩ fun q hq hname =>
      Reply.eq_of_replyKey hq hr (hname.1.trans hdelivery.symm) (hname.2.trans hreply.symm)
  unfold replyPut
  rw [Tx.run_bind_of_ok (validateIdentifier_ok (u := ()) |>.mpr ⟨hid, rfl⟩),
    Tx.run_bind_of_ok (validateIdentifier_ok (u := ()) |>.mpr ⟨hkey, rfl⟩), Tx.run_bind_of_ok htext]
  unfold withTx Tx.atomically
  simp only [Tx.run_query_bind, hevent, Tx.run_expect_bind, hprior]
  by_cases hsame : r.message = message
  · have hpass : (bailIf (r.message ≠ message) "reply id already used for different content").run
        db = (.ok (), db) := bailIf_run_ok.mpr ⟨not_not.mpr hsame, rfl⟩
    rw [if_pos hsame, Tx.run_bind_of_ok hpass, Tx.run_pure]
  · rw [if_neg hsame, Tx.run_bind_of_error (bailIf_refuses hsame _ _)]

end put

/-! ## The contract of the outbox -/

section contract

variable {crates : Crates} {db db' : Db} {r : Reply}

/-- (a) A put that succeeded is a repetition for ever; with another message it is refused.  Neither
changes anything. -/
def PutsRepeat (crates : Crates) (db : Db) : Prop :=
  ∀ deliveryId replyKey message uuid now receipt t,
    (replyPut deliveryId replyKey message uuid now).run db = (.ok receipt, t) →
    ∀ db', Leads crates t db' → ∀ uuid' now',
      (replyPut deliveryId replyKey message uuid' now').run db'
        = (.ok ⟨receipt.replyId, true⟩, db') ∧
      ∀ other, other ≠ message → ∃ error,
        (replyPut deliveryId replyKey other uuid' now').run db' = (.error error, db')

/-- (b) A waiting reply is read by the source of its event and by no other, once and in the order
the replies were put. -/
def OutboxListed (crates : Crates) (db : Db) : Prop :=
  (∀ r ∈ db.replies, r.acknowledged = none →
    ∃ e ∈ db.events, e.id = r.deliveryId ∧ ∀ source, db.Lists source r.id ↔ source = e.source) ∧
  ∀ source rows t, (readReplies source).run db = (.ok rows, t) →
    t = db ∧ (∀ r ∈ rows, r ∈ db.replies ∧ r.acknowledged = none) ∧ (rows.map Reply.id).Nodup ∧
      ∀ earlier, Leads crates earlier db → ∀ first ∈ rows, ∀ second ∈ rows,
        (∃ r ∈ earlier.replies, r.id = first.id) → (∀ r ∈ earlier.replies, r.id ≠ second.id) →
        [first, second].Sublist rows

/-- (c) A waiting reply stays as it is until an acknowledgement of its source succeeds. -/
def WaitsForSource (crates : Crates) (db : Db) : Prop :=
  ∀ r ∈ db.replies, r.acknowledged = none → ∀ db', Leads crates db db' →
    r ∈ db'.replies ∨ ∃ before after now, Leads crates db before ∧ r ∈ before.replies ∧
      (replyAck r.source r.id now).run before = (.ok (), after) ∧ Leads crates after db'

/-- (d) After an acknowledgement the reply is read by nobody and its time stays. -/
def AcknowledgedForEver (crates : Crates) (db : Db) : Prop :=
  ∀ source replyId now t, (replyAck source replyId now).run db = (.ok (), t) →
    ∃ r ∈ t.replies, r.id = replyId ∧ r.source = source ∧ r.acknowledged ≠ none ∧
      ∀ db', Leads crates t db' → r ∈ db'.replies ∧ ∀ reader, ¬ db'.Lists reader replyId

theorem putsRepeat (crates : Crates) (db : Db) : PutsRepeat crates db := by
  intro deliveryId replyKey message uuid now receipt t hrun db' hleads uuid' now'
  obtain ⟨hid, hkey, htext, ⟨e, he, heid⟩, r, hr, hdelivery, hreply, hmessage, hrid⟩ :=
    replyPut_recorded hrun
  obtain ⟨f, hf, hfkey⟩ := (Leads.ownersKept hleads).events e he
  obtain ⟨q, hq, hqkey, _⟩ := hleads.reply hr
  have hevent := Event.key_eq hfkey
  have hcolumns := Reply.key_eq hqkey
  have hfid : f.id = deliveryId := hevent.2.1.trans heid
  have hqdelivery : q.deliveryId = deliveryId := hcolumns.2.2.1.trans hdelivery
  have hqreply : q.replyKey = replyKey := hcolumns.2.2.2.1.trans hreply
  have hqmessage : q.message = message := hcolumns.2.2.2.2.2.2.2.1.trans hmessage
  have hvalid : (validateText message "reply message" maxReplyBytes).run db' = (.ok (), db') :=
    validateText_ok.mpr ⟨(validateText_ok.mp htext).1, rfl⟩
  constructor
  · rw [replyPut_found hid hkey hf hfid hq hqdelivery hqreply hvalid, if_pos hqmessage,
      hcolumns.2.1, hrid]
  · intro other hother
    rcases hcheck : (validateText other "reply message" maxReplyBytes).run db' with ⟨error | u, s⟩
    · refine ⟨error, ?_⟩
      obtain rfl : s = db' := by
        have hsame := readOnly_validateText other "reply message" maxReplyBytes db'
        rw [hcheck] at hsame
        exact hsame
      unfold replyPut
      rw [Tx.run_bind_of_ok (validateIdentifier_ok (u := ()) |>.mpr ⟨hid, rfl⟩),
        Tx.run_bind_of_ok (validateIdentifier_ok (u := ()) |>.mpr ⟨hkey, rfl⟩), Tx.run_bind_of_error hcheck]
    · obtain ⟨hok, rfl⟩ := validateText_ok.mp hcheck
      refine ⟨.bail "reply id already used for different content", ?_⟩
      rw [replyPut_found hid hkey hf hfid hq hqdelivery hqreply hcheck, if_neg]
      intro hsame
      exact hother (hsame.symm.trans hqmessage)

/-- Two rows of a table in the order of their places. -/
theorem sublist_of_append {α β : Type} {f : α → β} {l : List α} {olds added : List β} {a b : α}
    (hl : l.map f = olds ++ added) (ha : a ∈ l) (hb : b ∈ l) (hold : f a ∈ olds)
    (hnew : f b ∉ olds) (hinj : ∀ c ∈ l, f c = f a → c = a) : [a, b].Sublist l := by
  obtain ⟨front, back, rfl, hfront, hback⟩ := List.map_eq_append_iff.mp hl
  have hafront : a ∈ front := by
    rw [← hfront] at hold
    obtain ⟨c, hc, hfc⟩ := List.mem_map.mp hold
    rwa [← hinj c (List.mem_append_left _ hc) hfc]
  have hbback : b ∈ back := by
    rcases List.mem_append.mp hb with hmem | hmem
    · exact absurd (hfront ▸ List.mem_map_of_mem hmem) hnew
    · exact hmem
  exact (List.singleton_sublist.mpr hafront).append (List.singleton_sublist.mpr hbback)

theorem Reachable.outboxListed (h : Reachable crates db) : OutboxListed crates db := by
  constructor
  · intro r hr hwaits
    obtain ⟨e, he, heid, hsource, _⟩ := h.owned.replies r hr
    refine ⟨e, he, heid, fun source => ?_⟩
    rw [Db.lists_iff hr]
    constructor
    · intro hlists
      exact hlists.2.1.symm.trans hsource.symm
    · intro hsame
      subst hsame
      exact ⟨h.sourcesValid.events e he, hsource.symm, hwaits⟩
  intro source rows t hrun
  obtain ⟨_, rfl, rfl⟩ := readReplies_ok.mp hrun
  refine ⟨rfl, ?_, ?_, ?_⟩
  · intro r hr
    obtain ⟨hmem, hwaits⟩ := List.mem_filter.mp hr
    exact ⟨hmem, (of_decide_eq_true hwaits).2⟩
  · have hids : (t.replies.rows.map Reply.id).Nodup := by
      unfold List.Nodup
      rw [List.pairwise_map]
      exact t.replies.fits.imp fun hfit => hfit.2.1
    exact hids.sublist (List.filter_sublist.map Reply.id)
  · intro earlier hleads r hr q hq hold hnew
    have hrmem : r ∈ t.replies := (List.mem_filter.mp hr).1
    have hqmem : q ∈ t.replies := (List.mem_filter.mp hq).1
    obtain ⟨added, hadded⟩ := hleads.replyRows
    have hrows : [r, q].Sublist t.replies.rows := by
      refine sublist_of_append hadded hrmem hqmem ?_ ?_ ?_
      · obtain ⟨p, hp, hpid⟩ := hold
        obtain ⟨p', hp', hkey, _⟩ := hleads.reply hp
        have hsame := Reply.eq_of_id hp' hrmem ((Reply.key_eq hkey).2.1.trans hpid)
        rw [← hsame, hkey]
        exact List.mem_map_of_mem hp
      · intro hmem
        obtain ⟨p, hp, hkey⟩ := List.mem_map.mp hmem
        exact hnew p hp (Reply.key_eq hkey).2.1
      · exact fun p hp hkey => Reply.eq_of_id hp hrmem (Reply.key_eq hkey).2.1
    have hkept : [r, q].filter (fun r : Reply =>
        decide (r.source = source ∧ r.acknowledged = none)) = [r, q] := by
      refine List.filter_eq_self.mpr fun p hp => ?_
      rcases List.mem_pair.mp hp with rfl | rfl
      · exact (List.mem_filter.mp hr).2
      · exact (List.mem_filter.mp hq).2
    rw [← hkept]
    exact hrows.filter _

variable (crates) in
/-- A call that is no acknowledgement of a waiting reply leaves the row alone. -/
theorem step_reply (op : Op) (hr : r ∈ db.replies) :
    r ∈ (op.step crates db).replies ∨ ∃ now, op = .replyAck r.source r.id now ∧
      (replyAck r.source r.id now).run db = (.ok (), op.step crates db) := by
  by_cases hack : ∃ now, op = .replyAck r.source r.id now
  · obtain ⟨now, rfl⟩ := hack
    rcases Op.step_outcome crates (.replyAck r.source r.id now) db with hran | hsame
    · exact Or.inr ⟨now, rfl, hran⟩
    · exact Or.inl (by rwa [hsame])
  · refine Or.inl ((op.commits crates db).invariant (P := fun d => r ∈ d.replies) ?_ hr)
    intro k hk d henabled hd
    refine (Entry.mem_replies henabled).mpr (Or.inl ⟨r, hd, ?_⟩)
    cases hk with
    | acknowledge =>
        simp only [Entry.onReply]
        rw [if_neg]
        intro hmatch
        obtain ⟨rfl, rfl⟩ := hmatch
        exact hack ⟨_, rfl⟩
    | _ => rfl

theorem waitsForSource (crates : Crates) (db : Db) : WaitsForSource crates db := by
  intro r hr hwaits db' hleads
  induction hleads with
  | refl => exact Or.inl hr
  | @tail middle last hfirst hmove ih =>
      obtain ⟨op, _, rfl⟩ := hmove
      rcases ih with hmem | ⟨before, after, now, hbefore, hmem, hran, hafter⟩
      · rcases step_reply crates op hmem with hkept | ⟨now, rfl, hran⟩
        · exact Or.inl hkept
        · exact Or.inr ⟨middle, _, now, hfirst, hmem, hran, .refl⟩
      · exact Or.inr ⟨before, after, now, hbefore, hmem, hran, Leads.step hafter op⟩

/-- What a successful acknowledgement leaves behind. -/
theorem replyAck_recorded {source replyId : String} {now : Rat} {t : Db}
    (h : (replyAck source replyId now).run db = (.ok (), t)) :
    ∃ r ∈ t.replies, r.id = replyId ∧ r.source = source ∧ r.acknowledged ≠ none := by
  simp only [replyAck, Tx.bind_ok, validateIdentifier_ok, withTx, Tx.atomically_ok, Tx.query_ok,
    Tx.expect_ok, Tx.write_ok] at h
  obtain ⟨_, _, ⟨_, rfl⟩, _, _, ⟨_, rfl⟩, row, _, ⟨hrow, rfl⟩, r, _, ⟨rfl, rfl⟩, rfl⟩ := h
  obtain ⟨hr, hid, hsource⟩ := Table.find?_some hrow
  refine ⟨{ r with acknowledged := some (r.acknowledged.getD now) }, ?_, hid, hsource,
    Option.some_ne_none _⟩
  exact List.mem_map.mpr ⟨r, hr, if_pos ⟨hid, hsource⟩⟩

theorem acknowledgedForEver (crates : Crates) (db : Db) : AcknowledgedForEver crates db := by
  intro source replyId now t hrun
  obtain ⟨r, hr, rfl, hsource, hset⟩ := replyAck_recorded hrun
  refine ⟨r, hr, rfl, hsource, hset, fun db' hleads => ?_⟩
  obtain ⟨q, hq, _, hsame⟩ := hleads.reply hr
  obtain rfl := hsame hset
  refine ⟨hq, fun reader hlists => ?_⟩
  exact hset ((Db.lists_iff hq).mp hlists).2.2

/-- **The outbox of replies.**  In every reachable database a put that succeeded is a repetition
for ever, at most `maxReplies` replies wait, and a waiting reply is read by exactly the source of
its event, in the order the replies were put, until that source acknowledges it; after that it is
read by nobody and its acknowledgement time stays. -/
theorem reply_outbox_contract (h : Reachable crates db) :
    PutsRepeat crates db ∧ db.waitingReplies ≤ maxReplies ∧ OutboxListed crates db ∧
      WaitsForSource crates db ∧ AcknowledgedForEver crates db :=
  ⟨putsRepeat crates db, h.waitingReplies_le, h.outboxListed, waitsForSource crates db,
    acknowledgedForEver crates db⟩

/-- The build server's event is answered and the answer acknowledged. -/
def sampleReplyOps : List Op :=
  sampleOps ++
    [.replyPut (sampleUuid 1).text "answer" "It is green." (sampleUuid 4) 12,
      .replyPut (sampleUuid 2).text "answer" "It is red." (sampleUuid 5) 13,
      .replyAck "ci" (sampleUuid 4).text 14]

/-- The acknowledged reply of the sample is still recognised, and only the other one is read. -/
theorem reply_outbox_contract_sample :
    ((replyPut (sampleUuid 1).text "answer" "It is green." (sampleUuid 6) 15).run
        (Db.after sampleCrates sampleReplyOps)).1.toOption
        = some ⟨(sampleUuid 4).text, true⟩ ∧
      (((readReplies "ci").run (Db.after sampleCrates sampleReplyOps)).1.toOption.map
        (List.map Reply.id)) = some [(sampleUuid 5).text] ∧
      PutsRepeat sampleCrates (Db.after sampleCrates sampleReplyOps) :=
  ⟨by decide +kernel, by decide +kernel, (reply_outbox_contract (reachable_after _ _)).1⟩

end contract

end CodexMonitor
