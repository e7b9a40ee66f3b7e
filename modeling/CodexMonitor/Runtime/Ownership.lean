import CodexMonitor.Runtime.Http
import CodexMonitor.Store.Capacity
import CodexMonitor.Store.Lineage

/-!
# Who owns which row

A request is owned by the source of the event it was created from, a notification
by the source of its request, a reply by the source of its delivery; these
columns are keys, so ownership never changes.  A call of one source writes rows
of that source only: whatever its arguments name, every row of another source is
the same before and after.
-/

namespace CodexMonitor

open Transaction

/-! ## Replies -/

/-- What an entry makes of a stored reply. -/
def Entry.onReply : Entry → Reply → Reply
  | .acknowledge source replyId now, r =>
      if r.id = replyId ∧ r.source = source then
        { r with acknowledged := some (r.acknowledged.getD now) }
      else r
  | _, r => r

/-- The reply an entry puts into the outbox. -/
def Entry.newReply? : Entry → Option Reply
  | .reply r => some r
  | _ => none

theorem Entry.onReply_key (k : Entry) (r : Reply) : (k.onReply r).key = r.key := by
  cases k with
  | acknowledge =>
      simp only [Entry.onReply]
      split <;> rfl
  | _ => rfl

/-- The columns of a key, one by one. -/
theorem Reply.key_eq {r p : Reply} (h : r.key = p.key) :
    r.seq = p.seq ∧ r.id = p.id ∧ r.deliveryId = p.deliveryId ∧ r.replyKey = p.replyKey ∧
      r.source = p.source ∧ r.binding = p.binding ∧ r.eventId = p.eventId ∧
      r.message = p.message ∧ r.created = p.created := by
  simpa [Reply.key] using h

theorem Entry.rows_replies {crates : Crates} {db : Db} {k : Entry} (h : k.Enabled crates db) :
    (k.apply crates db).replies.rows = db.replies.rows.map k.onReply ++ k.newReply?.toList := by
  cases k with
  | reply r => exact (Table.rows_add h.1).trans (rows_appended rfl)
  | acknowledge => exact rows_rewritten
  | route name action now => cases action <;> exact rows_untouched rfl
  | finish e state submissionId error now =>
      rw [Entry.apply, Db.mirrorOutcome_frame]
      exact rows_untouched rfl
  | transition r updateId state detail now =>
      rw [Entry.apply, Db.addNotice_frame]
      exact rows_untouched rfl
  | _ => exact rows_untouched rfl

theorem Entry.mem_replies {crates : Crates} {db : Db} {k : Entry} (h : k.Enabled crates db)
    {r : Reply} :
    r ∈ (k.apply crates db).replies ↔
      (∃ p ∈ db.replies, k.onReply p = r) ∨ k.newReply? = some r := by
  rw [Table.mem_def, Entry.rows_replies h, List.mem_append, List.mem_map]
  simp [Table.mem_def]

/-! ## Ownership -/

/-- Every row has the owner of the row that it refers to. -/
structure Db.Owned (db : Db) : Prop where
  requests : ∀ r ∈ db.requests, ∃ e ∈ db.events, e.id = r.deliveryId ∧ e.source = r.source ∧
    e.binding = r.binding ∧ ∃ b ∈ db.bindings, b.name = r.binding ∧ b.thread = r.thread
  notices : ∀ n ∈ db.requestNotifications, ∃ r ∈ db.requests, r.requestId = n.requestId ∧
    r.source = n.source ∧ r.binding = n.originalBinding
  replies : ∀ p ∈ db.replies, ∃ e ∈ db.events, e.id = p.deliveryId ∧ e.source = p.source ∧
    e.binding = p.binding ∧ e.eventId = p.eventId

/-- The columns that ownership is read from stay as they are. -/
structure Db.OwnersKept (db t : Db) : Prop where
  bindings : ∀ b ∈ db.bindings, ∃ c ∈ t.bindings, c.name = b.name ∧ c.thread = b.thread
  events : ∀ e ∈ db.events, ∃ f ∈ t.events, f.key = e.key
  requests : ∀ r ∈ db.requests, ∃ q ∈ t.requests, q.identity = r.identity
  notices : ∀ n ∈ db.requestNotifications, ∃ m ∈ t.requestNotifications, m.key = n.key
  replies : ∀ p ∈ db.replies, ∃ q ∈ t.replies, q.key = p.key

section owners

variable {crates : Crates} {db d t : Db} {k : Entry}

theorem Db.OwnersKept.refl (db : Db) : db.OwnersKept db where
  bindings b hb := ⟨b, hb, rfl, rfl⟩
  events e he := ⟨e, he, rfl⟩
  requests r hr := ⟨r, hr, rfl⟩
  notices n hn := ⟨n, hn, rfl⟩
  replies p hp := ⟨p, hp, rfl⟩

theorem Db.OwnersKept.trans (h : db.OwnersKept d) (h' : d.OwnersKept t) : db.OwnersKept t where
  bindings b hb := by
    obtain ⟨c, hc, hname, hthread⟩ := h.bindings b hb
    obtain ⟨c', hc', hname', hthread'⟩ := h'.bindings c hc
    exact ⟨c', hc', hname'.trans hname, hthread'.trans hthread⟩
  events e he := by
    obtain ⟨f, hf, hkey⟩ := h.events e he
    obtain ⟨g, hg, hkey'⟩ := h'.events f hf
    exact ⟨g, hg, hkey'.trans hkey⟩
  requests r hr := by
    obtain ⟨q, hq, hkey⟩ := h.requests r hr
    obtain ⟨q', hq', hkey'⟩ := h'.requests q hq
    exact ⟨q', hq', hkey'.trans hkey⟩
  notices n hn := by
    obtain ⟨m, hm, hkey⟩ := h.notices n hn
    obtain ⟨m', hm', hkey'⟩ := h'.notices m hm
    exact ⟨m', hm', hkey'.trans hkey⟩
  replies p hp := by
    obtain ⟨q, hq, hkey⟩ := h.replies p hp
    obtain ⟨q', hq', hkey'⟩ := h'.replies q hq
    exact ⟨q', hq', hkey'.trans hkey⟩

/-- No entry drops a row or touches a key column. -/
theorem Entry.ownersKept (h : k.Enabled crates db) : db.OwnersKept (k.apply crates db) where
  bindings b hb := by
    obtain ⟨c, hc, hname, hthread, _⟩ := Entry.binding_kept h hb
    exact ⟨c, hc, hname, hthread⟩
  events e he := ⟨_, (Entry.mem_events h).mpr (Or.inl ⟨e, he, rfl⟩), k.onEvent_key e⟩
  requests r hr := ⟨_, (Entry.mem_requests h).mpr (Or.inl ⟨r, hr, rfl⟩), k.onRequest_identity r⟩
  notices n hn := ⟨_, (Entry.mem_notices h).mpr (Or.inl ⟨n, hn, rfl⟩), k.onNotice_key db n⟩
  replies p hp := ⟨_, (Entry.mem_replies h).mpr (Or.inl ⟨p, hp, rfl⟩), k.onReply_key p⟩

theorem Leads.ownersKept (h : Leads crates db t) : db.OwnersKept t :=
  Leads.invariant (P := fun d => db.OwnersKept d) h
    (fun _ _ hk hd => hd.trans (Entry.ownersKept hk)) (.refl db)

/-- A reply is put under the owner of its delivery, and a request under the owner of its. -/
theorem Db.Owned.apply (hdb : db.Owned) (hlineage : (k.apply crates db).Lineage crates)
    (h : k.Enabled crates db) : (k.apply crates db).Owned where
  requests := by
    have hkept := Entry.ownersKept h
    have hbefore : ∀ r : Request, (∃ e ∈ db.events, e.id = r.deliveryId ∧ e.source = r.source ∧
        e.binding = r.binding ∧ ∃ b ∈ db.bindings, b.name = r.binding ∧ b.thread = r.thread) →
        ∃ e ∈ (k.apply crates db).events, e.id = r.deliveryId ∧ e.source = r.source ∧
          e.binding = r.binding ∧ ∃ b ∈ (k.apply crates db).bindings, b.name = r.binding ∧
            b.thread = r.thread := by
      intro r hr
      obtain ⟨e, he, hid, hsource, hbinding, b, hb, hname, hthread⟩ := hr
      obtain ⟨f, hf, hkey⟩ := hkept.events e he
      obtain ⟨c, hc, hcname, hcthread⟩ := hkept.bindings b hb
      have hcolumns := Event.key_eq hkey
      exact ⟨f, hf, hcolumns.2.1.trans hid, hcolumns.2.2.2.2.1.trans hsource,
        hcolumns.2.2.2.1.trans hbinding, c, hc, hcname.trans hname, hcthread.trans hthread⟩
    intro r hr
    rcases (Entry.mem_requests h).mp hr with ⟨q, hq, rfl⟩ | hnew
    · have hidentity := Request.identity_eq (k.onRequest_identity q)
      rw [hidentity.2.2.1, hidentity.2.2.2.1, hidentity.2.2.2.2.2.1, hidentity.2.2.2.2.2.2.1]
      exact hbefore q (hdb.requests q hq)
    · obtain rfl := Entry.create_of_new hnew
      obtain ⟨_, _, _, _, _, e, he, hid, hsource, hbinding, b, hb, hname, hthread⟩ := h
      exact hbefore r ⟨e, he, hid, hsource, hbinding, b, hb, hname.trans hbinding, hthread⟩
  notices := by
    intro n hn
    obtain ⟨r, hr, hof⟩ := hlineage.notice_of n hn
    exact ⟨r, hr, hof.requestId_eq.symm, hof.source_eq.symm, hof.binding_eq.symm⟩
  replies := by
    have hkept := Entry.ownersKept h
    have hbefore : ∀ p : Reply, (∃ e ∈ db.events, e.id = p.deliveryId ∧ e.source = p.source ∧
        e.binding = p.binding ∧ e.eventId = p.eventId) →
        ∃ e ∈ (k.apply crates db).events, e.id = p.deliveryId ∧ e.source = p.source ∧
          e.binding = p.binding ∧ e.eventId = p.eventId := by
      intro p hp
      obtain ⟨e, he, hid, hsource, hbinding, heventId⟩ := hp
      obtain ⟨f, hf, hkey⟩ := hkept.events e he
      have hcolumns := Event.key_eq hkey
      exact ⟨f, hf, hcolumns.2.1.trans hid, hcolumns.2.2.2.2.1.trans hsource,
        hcolumns.2.2.2.1.trans hbinding, hcolumns.2.2.2.2.2.1.trans heventId⟩
    intro p hp
    rcases (Entry.mem_replies h).mp hp with ⟨q, hq, rfl⟩ | hnew
    · have hcolumns := Reply.key_eq (k.onReply_key q)
      rw [hcolumns.2.2.1, hcolumns.2.2.2.2.1, hcolumns.2.2.2.2.2.1, hcolumns.2.2.2.2.2.2.1]
      exact hbefore q (hdb.replies q hq)
    · cases k with
      | reply r =>
          cases hnew
          exact hbefore p h.2.2.2.1
      | _ => cases hnew

theorem Reachable.owned (h : Reachable crates db) : db.Owned := by
  have hboth : db.Owned ∧ db.Lineage crates := by
    refine Leads.invariant (P := fun d => d.Owned ∧ d.Lineage crates) h ?_ ⟨?_, Db.lineage_empty⟩
    · intro k d hk hd
      have hlineage := hd.2.apply hk
      exact ⟨hd.1.apply hlineage hk, hlineage⟩
    · exact ⟨fun r hr => absurd hr (Table.not_mem_empty r),
        fun n hn => absurd hn (Table.not_mem_empty n),
        fun p hp => absurd hp (Table.not_mem_empty p)⟩
  exact hboth.1

end owners

/-! ## Rows of other sources -/

/-- A history row belongs to the source of its request. -/
def Db.UpdateOf (db : Db) (source : String) (u : RequestUpdate) : Prop :=
  ∃ r ∈ db.requests, r.requestId = u.requestId ∧ r.source = source

instance (db : Db) (source : String) : DecidablePred (db.UpdateOf source) :=
  fun _ => inferInstanceAs (Decidable (∃ r ∈ db.requests.rows, _))

/-- The routes, the watches and every row of a source other than `source` are the same. -/
structure Db.OthersKept (source : String) (db t : Db) : Prop where
  bindings : t.bindings = db.bindings
  managedWatches : t.managedWatches = db.managedWatches
  events : t.events.rows.filter (fun e => e.source ≠ source) =
    db.events.rows.filter fun e => e.source ≠ source
  replies : t.replies.rows.filter (fun p => p.source ≠ source) =
    db.replies.rows.filter fun p => p.source ≠ source
  requests : t.requests.rows.filter (fun r => r.source ≠ source) =
    db.requests.rows.filter fun r => r.source ≠ source
  requestNotifications : t.requestNotifications.rows.filter (fun n => n.source ≠ source) =
    db.requestNotifications.rows.filter fun n => n.source ≠ source
  requestUpdates : t.requestUpdates.rows.filter (fun u => ¬ t.UpdateOf source u) =
    db.requestUpdates.rows.filter fun u => ¬ db.UpdateOf source u

theorem Db.OthersKept.refl (source : String) (db : Db) : Db.OthersKept source db db :=
  ⟨rfl, rfl, rfl, rfl, rfl, rfl, rfl⟩

theorem Db.OthersKept.trans {source : String} {db d t : Db} (h : Db.OthersKept source db d)
    (h' : Db.OthersKept source d t) : Db.OthersKept source db t where
  bindings := h'.bindings.trans h.bindings
  managedWatches := h'.managedWatches.trans h.managedWatches
  events := h'.events.trans h.events
  replies := h'.replies.trans h.replies
  requests := h'.requests.trans h.requests
  requestNotifications := h'.requestNotifications.trans h.requestNotifications
  requestUpdates := h'.requestUpdates.trans h.requestUpdates

/-- Rows that are rewritten in place and rows that are appended leave the rows of a kind as they
are, when neither touches one. -/
theorem filter_untouched {ρ : Type} {rows : List ρ} {f : ρ → ρ} {new : Option ρ} {p : ρ → Prop}
    [DecidablePred p] (hkind : ∀ r ∈ rows, p (f r) ↔ p r) (hsame : ∀ r ∈ rows, p r → f r = r)
    (hnew : ∀ r ∈ new, ¬ p r) :
    (rows.map f ++ new.toList).filter (fun r => p r) = rows.filter fun r => p r := by
  have hlast : new.toList.filter (fun r => p r) = [] := by
    cases new with
    | none => rfl
    | some r => simp [hnew r rfl]
  rw [List.filter_append, hlast, List.append_nil]
  induction rows with
  | nil => rfl
  | cons r rows ih =>
      have hrest := ih (fun a ha => hkind a (List.mem_cons_of_mem _ ha))
        fun a ha => hsame a (List.mem_cons_of_mem _ ha)
      rw [List.map_cons]
      by_cases hp : p r
      · have hr := hsame r List.mem_cons_self hp
        rw [hr, List.filter_cons_of_pos (by simpa using hp),
          List.filter_cons_of_pos (by simpa using hp), hrest]
      · have hr : ¬ p (f r) := fun h => hp ((hkind r List.mem_cons_self).mp h)
        rw [List.filter_cons_of_neg (by simpa using hr),
          List.filter_cons_of_neg (by simpa using hp), hrest]

/-- The entries of a call that a source makes. -/
inductive Entry.IsOf (source : String) : Entry → Prop
  | store {e : Event} (howner : e.source = source) : IsOf source (.store e)
  | acknowledge {replyId : String} {now : Rat} : IsOf source (.acknowledge source replyId now)
  | create {r : Request} (howner : r.source = source) : IsOf source (.create r)
  | transition {r : Request} {updateId : String} {state : RequestState} {detail : Option String}
      {now : Rat} (howner : r.source = source) :
      IsOf source (.transition r updateId state detail now)

section frame

variable {crates : Crates} {db t : Db} {k : Entry} {source : String}

/-- An entry of a source leaves the rows of every other source as they are. -/
theorem Entry.othersKept (h : k.Enabled crates db) (hdb : db.Recorded)
    (hk : k.IsOf source) : Db.OthersKept source db (k.apply crates db) where
  bindings := by
    cases hk with
    | transition =>
        rw [Entry.apply, Db.addNotice_frame]
        rfl
    | _ => rfl
  managedWatches := by
    cases hk with
    | transition =>
        rw [Entry.apply, Db.addNotice_frame]
        rfl
    | _ => rfl
  events := by
    rw [Entry.rows_events h]
    refine filter_untouched (fun e _ => ?_) (fun e _ _ => ?_) fun e hnew => ?_
    · rw [(Event.key_eq (k.onEvent_key e)).2.2.2.2.1]
    · cases hk <;> rfl
    · cases hk with
      | store howner =>
          cases hnew
          exact fun hne => hne howner
      | _ => cases hnew
  replies := by
    rw [Entry.rows_replies h]
    refine filter_untouched (fun p _ => ?_) (fun p _ hother => ?_) fun p hnew => ?_
    · rw [(Reply.key_eq (k.onReply_key p)).2.2.2.2.1]
    · cases hk with
      | acknowledge => exact if_neg fun hmatch => hother hmatch.2
      | _ => rfl
    · cases hk <;> cases hnew
  requests := by
    rw [Entry.rows_requests h]
    refine filter_untouched (fun r _ => ?_) (fun r hr hother => ?_) fun r hnew => ?_
    · rw [(Request.identity_eq (k.onRequest_identity r)).2.2.2.1]
    · cases hk with
      | transition howner =>
          refine if_neg fun hmatch => hother ?_
          rw [Request.eq_of_id hr h.1 hmatch.1]
          exact howner
      | _ => rfl
    · cases hk with
      | create howner =>
          cases hnew
          exact fun hne => hne howner
      | _ => cases hnew
  requestNotifications := by
    rw [Entry.rows_notices h]
    refine filter_untouched (fun n _ => ?_) (fun n _ _ => ?_) fun n hnew => ?_
    · rw [(RequestNotification.key_eq (k.onNotice_key db n)).2.2.2.2.2.1]
    · cases hk <;> rfl
    · cases hk with
      | transition howner =>
          simp only [Entry.newNotice?] at hnew
          split at hnew
          · cases hnew
            exact fun hne => hne howner
          · cases hnew
      | _ => cases hnew
  requestUpdates := by
    have hrows : db.requestUpdates.rows.map id = db.requestUpdates.rows := List.map_id _
    -- whose a stored history row is does not change
    have hkind : ∀ u ∈ db.requestUpdates,
        (k.apply crates db).UpdateOf source u ↔ db.UpdateOf source u := by
      intro u hu
      constructor
      · intro hof
        obtain ⟨r, hr, hid, howner⟩ := hof
        rcases (Entry.mem_requests h).mp hr with ⟨q, hq, rfl⟩ | hnew
        · have hidentity := Request.identity_eq (k.onRequest_identity q)
          exact ⟨q, hq, hidentity.2.1.symm.trans hid, hidentity.2.2.2.1.symm.trans howner⟩
        · obtain rfl := Entry.create_of_new hnew
          obtain ⟨q, hq, hqid⟩ := hdb.owned u hu
          exact absurd (hqid.trans hid.symm) (h.1 q hq).2.1
      · intro hof
        obtain ⟨r, hr, hid, howner⟩ := hof
        have hidentity := Request.identity_eq (k.onRequest_identity r)
        exact ⟨_, (Entry.mem_requests h).mpr (Or.inl ⟨r, hr, rfl⟩), hidentity.2.1.trans hid,
          hidentity.2.2.2.1.trans howner⟩
    have hold : db.requestUpdates.rows.filter (fun u => ¬ (k.apply crates db).UpdateOf source u) =
        db.requestUpdates.rows.filter fun u => ¬ db.UpdateOf source u := by
      refine List.filter_congr fun u hu => ?_
      simp only [hkind u hu]
    rw [← hold, Entry.rows_updates h]
    conv_lhs => rw [← hrows]
    refine filter_untouched (fun u _ => Iff.rfl) (fun u _ _ => rfl) fun u hnew => ?_
    cases hk with
    | @transition r updateId state detail now howner =>
        cases hnew
        have hidentity := Request.identity_eq
          ((Entry.transition r updateId state detail now).onRequest_identity r)
        exact fun hother => hother ⟨_, (Entry.mem_requests h).mpr (Or.inl ⟨r, h.1, rfl⟩),
          hidentity.2.1, hidentity.2.2.2.1.trans howner⟩
    | _ => cases hnew

/-! ## Calls of a source -/

/-- The calls of the store that are made with a source's credential. -/
inductive Op.IssuedBy (source : String) : Op → Prop
  | ingest {binding : String} {envelope : Value} {uuid : Uuid} {now : Rat}
      (howner : envelope.getStr "source" = some source) :
      IssuedBy source (.ingest binding envelope uuid now)
  | requestCreate {thread key deliveryId : String} {payload : Value} {expiresAt : Option F64}
      {uuid : Uuid} {now : Rat} :
      IssuedBy source (.requestCreate thread source key deliveryId payload expiresAt uuid now)
  | requestUpdate {thread key updateId state : String} {expectedRevision : Option Int}
      {detail : Option String} {now : Rat} :
      IssuedBy source
        (.requestUpdate thread source key updateId state expectedRevision detail now)
  | replyAck {replyId : String} {now : Rat} : IssuedBy source (.replyAck source replyId now)

theorem Commits.othersKept {W : Entry → Prop} (h : Commits crates W db t) (hdb : db.Recorded)
    (hW : ∀ k, W k → k.IsOf source) : Db.OthersKept source db t ∧ t.Recorded := by
  refine h.invariant (P := fun d => Db.OthersKept source db d ∧ d.Recorded) ?_ ⟨.refl _ db, hdb⟩
  intro k hk d henabled hd
  exact ⟨hd.1.trans (Entry.othersKept henabled hd.2 (hW k hk)), hd.2.apply henabled⟩

/-- **A call of a source leaves every row of another source as it is.** -/
theorem step_othersKept (crates : Crates) {op : Op} (hop : op.IssuedBy source)
    (hdb : db.Recorded) :
    Db.OthersKept source db (op.step crates db) ∧ (op.step crates db).Recorded := by
  cases hop with
  | ingest howner =>
      refine Commits.othersKept (Op.commits crates _ db) hdb fun k hw => ?_
      cases hw with
      | ingest he => exact .store (Option.some.inj (he.source_eq.symm.trans howner))
  | @requestCreate thread key deliveryId payload expiresAt uuid now =>
      rcases hrun : (requestCreate crates thread source key deliveryId payload expiresAt uuid
        now).run db with ⟨error | answer, t⟩
      · rw [step_of_fail rfl hrun]
        exact ⟨.refl _ db, hdb⟩
      · rw [step_of_run rfl hrun]
        rcases requestCreate_ok hrun with rfl | ⟨_, r, howner, henabled, rfl⟩
        · exact ⟨.refl _ t, hdb⟩
        · exact ⟨Entry.othersKept henabled hdb (.create howner), hdb.apply henabled⟩
  | requestUpdate =>
      refine Commits.othersKept (Op.commits crates _ db) hdb fun k hw => ?_
      cases hw with
      | update _ hrow _ => exact .transition hrow.2.1
  | replyAck =>
      refine Commits.othersKept (Op.commits crates _ db) hdb fun k hw => ?_
      cases hw
      exact .acknowledge

end frame

/-! ## Endpoints -/

section endpoints

variable {app : App} {db : Db} {source : String}

/-- The rows of other sources are those of `db`. -/
def KeepsOthers (source : String) (db d : Db) : Prop := Db.OthersKept source db d ∧ d.Recorded

theorem KeepsOthers.call {op : Op} (hop : op.IssuedBy source) {α : Type} {call : StoreM α}
    (hcall : op.exec app.crates = (do let _ ← call; pure ())) :
    Tx.Preserves (KeepsOthers source db) call := by
  intro d hd
  have hkept := step_othersKept app.crates hop hd.2
  have hstep : op.step app.crates d = (call.run d).2 := by
    unfold Op.step
    rw [hcall]
    rcases hrun : call.run d with ⟨error | a, t⟩
    · rw [Tx.run_bind_of_error hrun]
    · rw [Tx.run_bind_of_ok hrun]
      rfl
  rw [hstep] at hkept
  exact ⟨hd.1.trans hkept.1, hkept.2⟩

theorem readOnly_stored {α : Type} {call : StoreM α} (h : Tx.ReadOnly call) :
    Tx.ReadOnly (stored call) := h.mapError storageError

theorem readOnly_require {α : Type} (status : Nat) (message : String) (o : Option α) :
    Tx.ReadOnly (require status message o) := Tx.readOnly_expect _ _

theorem readOnly_refuseIf (c : Prop) [Decidable c] (status : Nat) (message : String) :
    Tx.ReadOnly (refuseIf c status message) := Tx.readOnly_bailIf c _

theorem readOnly_orAbsent {α : Type} {call : StoreM α} (h : Tx.ReadOnly call) :
    Tx.ReadOnly (orAbsent call) := by
  intro d
  have hafter := h d
  unfold orAbsent
  rcases hrun : call.run d with ⟨error | a, t⟩ <;> rw [hrun] at hafter <;>
    simp only [hrun] at hafter ⊢
  · split <;> exact hafter
  · exact hafter

theorem readOnly_identifier (value label : String) :
    Tx.ReadOnly (validateIdentifier value label) := readOnly_bail _ _

/-- The lookups of the handlers only read. -/
theorem readOnly_event (crates : Crates) (id : String) : Tx.ReadOnly (event crates id) :=
  Tx.ReadOnly.bind (readOnly_identifier _ _) fun _ =>
    Tx.ReadOnly.bind (Tx.readOnly_query _) fun _ =>
      Tx.ReadOnly.bind (Tx.readOnly_expect _ _) fun _ =>
        Tx.ReadOnly.bind (Tx.readOnly_expect _ _) fun _ => Tx.readOnly_pure _

theorem readOnly_requestGetById (crates : Crates) (requestId source : String) :
    Tx.ReadOnly (requestGetById crates requestId source) :=
  Tx.ReadOnly.bind (readOnly_identifier _ _) fun _ =>
    Tx.ReadOnly.bind (readOnly_identifier _ _) fun _ =>
      Tx.ReadOnly.bind (Tx.readOnly_query _) fun _ =>
        Tx.ReadOnly.bind (Tx.readOnly_expect _ _) fun _ =>
          Tx.ReadOnly.bind (Tx.readOnly_ofExcept _) fun _ =>
            Tx.ReadOnly.bind (Tx.readOnly_query _) fun _ =>
              Tx.ReadOnly.bind (Tx.readOnly_query _) fun _ => Tx.readOnly_pure _

theorem readOnly_requestRecordById (crates : Crates) (requestId source : String) :
    Tx.ReadOnly (requestRecordById crates requestId source) :=
  Tx.ReadOnly.bind (readOnly_identifier _ _) fun _ =>
    Tx.ReadOnly.bind (readOnly_identifier _ _) fun _ =>
      Tx.ReadOnly.bind (Tx.readOnly_query _) fun _ =>
        Tx.ReadOnly.bind (Tx.readOnly_expect _ _) fun _ => Tx.readOnly_ofExcept _

theorem readOnly_requestPage (crates : Crates) (thread source : String) (limit : Nat)
    (after : Option Int) : Tx.ReadOnly (requestPage crates thread source limit after) :=
  Tx.ReadOnly.bind (readOnly_identifier _ _) fun _ =>
    Tx.ReadOnly.bind (readOnly_identifier _ _) fun _ =>
      Tx.ReadOnly.bind (readOnly_bail _ _) fun _ =>
        Tx.ReadOnly.bind (readOnly_bail _ _) fun _ =>
          Tx.ReadOnly.bind (Tx.readOnly_query _) fun _ =>
            Tx.ReadOnly.bind (Tx.readOnly_ofExcept _) fun _ =>
              Tx.ReadOnly.ite (Tx.readOnly_pure _) (Tx.readOnly_pure _)

theorem readOnly_readReplies (source : String) : Tx.ReadOnly (readReplies source) :=
  Tx.ReadOnly.bind (readOnly_identifier _ _) fun _ => Tx.readOnly_query _

/-- A step of a handler that only reads, before the rest of it. -/
theorem preserves_after {α β : Type} {P : Db → Prop} {x : HttpM α} {f : α → HttpM β}
    (hx : Tx.ReadOnly x) (hf : ∀ a, Tx.Preserves P (f a)) : Tx.Preserves P (x >>= f) :=
  (hx.preserves P).bind hf

theorem preserves_pure {α : Type} {P : Db → Prop} (a : α) :
    Tx.Preserves P (pure a : HttpM α) := (Tx.readOnly_pure a).preserves P

/-- Serving a call of a source keeps every row of another source. -/
theorem App.serve_keepsOthers {bearer : String} (howner : app.owner bearer = some source)
    (call : SourceCall) : Tx.Preserves (KeepsOthers source db) (app.serve bearer call) := by
  have hsource : app.source bearer = pure source := by
    unfold App.source
    rw [howner]
    rfl
  have hname : ∀ {β : Type} (f : String → HttpM β), Tx.Preserves (KeepsOthers source db) (f source) →
      Tx.Preserves (KeepsOthers source db) (app.source bearer >>= f) := by
    intro β f hf
    rw [hsource]
    exact hf
  cases call with
  | ingest binding envelope uuid now =>
      refine hname _ ?_
      by_cases hmatch : envelope.getStr "source" = some source
      · refine preserves_after (readOnly_refuseIf _ _ _) fun _ => ?_
        refine Tx.Preserves.bind (Tx.Preserves.mapError ?_ _) fun _ => preserves_pure _
        have hissued : Op.IssuedBy source (.ingest binding envelope uuid now) := .ingest hmatch
        exact KeepsOthers.call hissued rfl
      · intro d hd
        rw [Tx.run_bind_of_error (t := d) (e := ⟨403, "credential source does not match envelope"⟩)]
        · exact hd
        · unfold refuseIf Tx.bailIf
          rw [if_pos hmatch]
          rfl
  | requestCreate query body uuid now =>
      refine hname _ (preserves_after (Tx.readOnly_ofExcept _) fun input => ?_)
      refine preserves_after (readOnly_stored (readOnly_event _ _)) fun e => ?_
      refine preserves_after (readOnly_refuseIf _ _ _) fun _ => ?_
      refine preserves_after (readOnly_stored (Tx.readOnly_query _)) fun all => ?_
      refine preserves_after (readOnly_require _ _ _) fun b => ?_
      refine Tx.Preserves.bind (Tx.Preserves.mapError ?_ _) fun _ => preserves_pure _
      have hissued : Op.IssuedBy source (.requestCreate b.thread source input.requestKey
        input.deliveryId input.payload input.expiresAt uuid now) := .requestCreate
      exact KeepsOthers.call hissued rfl
  | requestList query =>
      refine hname _ (preserves_after (Tx.readOnly_ofExcept _) fun query => ?_)
      refine preserves_after (readOnly_stored (Tx.readOnly_expect _ _)) fun cursor => ?_
      exact preserves_after (readOnly_stored (readOnly_requestPage _ _ _ _ _)) fun _ =>
        preserves_pure _
  | requestGet query requestId =>
      refine hname _ (preserves_after (Tx.readOnly_ofExcept _) fun _ => ?_)
      refine preserves_after (readOnly_orAbsent (readOnly_requestGetById _ _ _)) fun found => ?_
      exact preserves_after (readOnly_require _ _ _) fun _ => preserves_pure _
  | requestUpdate query requestId body now =>
      refine hname _ (preserves_after (Tx.readOnly_ofExcept _) fun _ => ?_)
      refine preserves_after (readOnly_orAbsent (readOnly_requestRecordById _ _ _)) fun found => ?_
      refine preserves_after (readOnly_require _ _ _) fun request => ?_
      refine preserves_after (Tx.readOnly_ofExcept _) fun input => ?_
      refine Tx.Preserves.bind (Tx.Preserves.mapError ?_ _) fun _ => preserves_pure _
      have hissued : Op.IssuedBy source (.requestUpdate request.row.thread source
        request.row.requestKey input.updateId input.state (some input.expectedRevision)
        input.detail now) := .requestUpdate
      exact KeepsOthers.call hissued rfl
  | replies =>
      refine hname _ ?_
      exact preserves_after (readOnly_stored (readOnly_readReplies _)) fun _ => preserves_pure _
  | ack contentLength replyId now =>
      refine hname _ (preserves_after (readOnly_refuseIf _ _ _) fun _ => ?_)
      refine Tx.Preserves.bind (Tx.Preserves.mapError ?_ _) fun _ => preserves_pure _
      intro d hd
      have hissued : Op.IssuedBy source (.replyAck source replyId now) := .replyAck
      have hkept := step_othersKept app.crates hissued hd.2
      exact ⟨hd.1.trans hkept.1, hkept.2⟩

/-- In every reachable state a row has the owner of the row that it refers to, for ever; and
whatever a source calls, by the store or by its endpoints, the rows of the other sources stay
as they are. -/
theorem ownership_isolated (app : App) {db : Db} (h : Reachable app.crates db) :
    db.Owned ∧ (∀ t, Leads app.crates db t → db.OwnersKept t) ∧
      (∀ source (op : Op), op.IssuedBy source →
        Db.OthersKept source db (op.step app.crates db)) ∧
      ∀ bearer source, app.owner bearer = some source → ∀ call : SourceCall,
        Db.OthersKept source db ((app.serve bearer call).run db).2 := by
  refine ⟨h.owned, fun t ht => Leads.ownersKept ht, fun source op hop => ?_,
    fun bearer source howner call => ?_⟩
  · exact (step_othersKept app.crates hop h.recorded).1
  · exact (App.serve_keepsOthers howner call db ⟨.refl source db, h.recorded⟩).1

/-- A receiver with two sources. -/
def sampleApp : App where
  crates := sampleCrates
  sources := [("ci", "ci-secret"), ("ops", "ops-secret")]
  asF64 _ := .nan

/-- A second source asks to move a request of the first. -/
theorem ownership_isolated_sample :
    (Db.after sampleCrates sampleRequestOps).Owned ∧
      Db.OthersKept "ops" (Db.after sampleCrates sampleRequestOps)
        ((sampleApp.serve "ops-secret" (.requestUpdate [] (sampleUuid 3).text
          (.object [("update_id", .string "take-over"), ("state", .string "cancelled"),
            ("expected_revision", .number (.posInt 1))]) 14)).run
          (Db.after sampleCrates sampleRequestOps)).2 := by
  have h := ownership_isolated sampleApp (reachable_after sampleCrates sampleRequestOps)
  exact ⟨h.1, h.2.2.2 "ops-secret" "ops" (by decide) _⟩

end endpoints

end CodexMonitor
