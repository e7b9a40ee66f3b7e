import CodexMonitor.Lib.Relational
import CodexMonitor.Runtime.Deliver
import CodexMonitor.Runtime.Ownership
import CodexMonitor.Store.Room

/-!
# What a source can observe

Two states that agree on the rows of one source are run side by side under a
call of that source.  Every endpoint but one answers from the source's own rows.
Creating a request looks its delivery up before it looks at the owner, and tells
a delivery of another source apart from one that does not exist.
-/

namespace CodexMonitor

open Transaction

/-! ## Two states that agree on a source's rows -/

/-- The same routes and the same rows of `source`. -/
structure Db.AgreeFor (source : String) (s t : Db) : Prop where
  bindings : s.bindings = t.bindings
  events : Table.AgreeOn (fun e => e.source = source) s.events t.events
  replies : Table.AgreeOn (fun p => p.source = source) s.replies t.replies
  requests : Table.AgreeOn (fun r => r.source = source) s.requests t.requests
  notices : Table.AgreeOn (fun n => n.source = source) s.requestNotifications
    t.requestNotifications
  updates : ∀ u, u ∈ s.requestUpdates ∧ s.UpdateOf source u ↔
    u ∈ t.requestUpdates ∧ t.UpdateOf source u

/-- The global limits on requests and on pending notifications are not reached. -/
structure Db.Roomy (db : Db) : Prop where
  requests : (db.requests.count fun _ => True) < maxRequests
  notices : db.pendingNotices < maxRequestNotifications

/-- Every stored envelope is a JSON text. -/
def Db.Readable (crates : Crates) (db : Db) : Prop :=
  ∀ e ∈ db.events, (crates.fromStr e.envelope).isSome = true

/-- The event of another source. -/
def Db.Foreign (db : Db) (source id : String) : Prop :=
  ∃ e ∈ db.events, e.id = id ∧ e.source ≠ source

section tables

variable {crates : Crates} {s t : Db} {source : String}

theorem requests_by_seq (v : Table Request) : v.rows.Pairwise fun a b => a.seq < b.seq :=
  v.fits.imp fun hfit => hfit.1

theorem replies_by_seq (v : Table Reply) : v.rows.Pairwise fun a b => a.seq < b.seq :=
  v.fits.imp fun hfit => hfit.1

theorem updates_by_seq (v : Table RequestUpdate) : v.rows.Pairwise fun a b => a.seq < b.seq :=
  v.fits.imp fun hfit => hfit.1

/-- A request of the source has the same history rows in both states. -/
theorem Db.AgreeFor.history (h : Db.AgreeFor source s t) {r : Request} (hr : r ∈ s.requests)
    (howner : r.source = source) :
    Table.AgreeOn (fun u => u.requestId = r.requestId) s.requestUpdates t.requestUpdates := by
  have hrt : r ∈ t.requests := (h.requests r howner).mp hr
  intro u hu
  constructor
  · intro hs
    exact ((h.updates u).mp ⟨hs, r, hr, hu.symm, howner⟩).1
  · intro ht
    exact ((h.updates u).mpr ⟨ht, r, hrt, hu.symm, howner⟩).1

/-- And the same notifications. -/
theorem Db.AgreeFor.noticesOf (h : Db.AgreeFor source s t) (hs : s.Lineage crates)
    (ht : t.Lineage crates) {r : Request} (hr : r ∈ s.requests) (howner : r.source = source) :
    Table.AgreeOn (fun n => n.requestId = r.requestId) s.requestNotifications
      t.requestNotifications := by
  have hrt : r ∈ t.requests := (h.requests r howner).mp hr
  intro n hn
  constructor
  · intro hmem
    have hof := hs.request_of_notice hmem hr hn
    exact (h.notices n (hof.source_eq.trans howner)).mp hmem
  · intro hmem
    have hof := ht.request_of_notice hmem hrt hn
    exact (h.notices n (hof.source_eq.trans howner)).mpr hmem

theorem Db.AgreeFor.requestAt (h : Db.AgreeFor source s t) (thread key : String) :
    s.requestAt thread source key = t.requestAt thread source key := by
  refine h.requests.find? (fun r hr => hr.2.1) fun a b ha hb hka hkb => ?_
  exact Request.eq_of_requestKey ha hb (hka.1.trans hkb.1.symm) (hka.2.1.trans hkb.2.1.symm)
    (hka.2.2.trans hkb.2.2.symm)

theorem Db.AgreeFor.ownRequest (h : Db.AgreeFor source s t) (requestId : String) :
    s.ownRequest requestId source = t.ownRequest requestId source := by
  refine h.requests.find? (fun r hr => hr.2) fun a b ha hb hka hkb => ?_
  exact Request.eq_of_id ha hb (hka.1.trans hkb.1.symm)

theorem Db.AgreeFor.updateAt (h : Db.AgreeFor source s t) {r : Request} (hr : r ∈ s.requests)
    (howner : r.source = source) (updateId : String) :
    s.updateAt r.requestId updateId = t.updateAt r.requestId updateId := by
  refine (h.history hr howner).find? (fun u hu => hu.1) fun a b ha hb hka hkb => ?_
  exact RequestUpdate.eq_of_id ha hb (hka.1.trans hkb.1.symm) (hka.2.trans hkb.2.symm)

theorem Db.requestById_of_mem {db : Db} {r : Request} (hr : r ∈ db.requests) :
    db.requestById r.requestId = some r :=
  Table.find?_eq_of_unique hr rfl fun _ hq hid => Request.eq_of_id hq hr hid

/-- Notifications of one request stand in the same order, by their revisions. -/
theorem Db.AgreeFor.requestNotices (h : Db.AgreeFor source s t) (hs : s.Lineage crates)
    (ht : t.Lineage crates) {r : Request} (hr : r ∈ s.requests) (howner : r.source = source) :
    s.requestNotices r.requestId = t.requestNotices r.requestId := by
  have hagree := h.noticesOf hs ht hr howner
  have hsorted : ∀ db : Db, (db.requestNotices r.requestId).Pairwise fun a b =>
      a.revision < b.revision := by
    intro db
    have hle : (db.requestNotices r.requestId).Pairwise fun a b => a.revision ≤ b.revision :=
      List.pairwise_insertionSort _ _
    have hne : (db.requestNotices r.requestId).Pairwise fun a b =>
        ¬ (a.requestId = b.requestId ∧ a.revision = b.revision) := by
      refine Table.select_pairwise (fun hab hba => hab ⟨hba.1.symm, hba.2.symm⟩) ?_
      exact db.requestNotifications.fits.imp fun hfit => hfit.2
    refine (hle.and hne).imp_of_mem fun {a b} ha hb hboth => ?_
    have hida := (Table.mem_select.mp ha).2
    have hidb := (Table.mem_select.mp hb).2
    exact lt_of_le_of_ne hboth.1 fun heq => hboth.2 ⟨hida.trans hidb.symm, heq⟩
  have : Std.Irrefl fun a b : RequestNotification => a.revision < b.revision :=
    ⟨fun a => lt_irrefl a.revision⟩
  have : Std.Asymm fun a b : RequestNotification => a.revision < b.revision :=
    ⟨fun _ _ hab hba => lt_asymm hab hba⟩
  refine List.Pairwise.eq_of_mem_iff (hsorted s) (hsorted t) fun n => ?_
  unfold Db.requestNotices
  rw [Table.mem_select, Table.mem_select]
  constructor
  · intro hn
    exact ⟨(hagree n hn.2).mp hn.1, hn.2⟩
  · intro hn
    exact ⟨(hagree n hn.2).mpr hn.1, hn.2⟩

end tables

/-! ## Runs that only read -/

section reading

variable {ε α β : Type} {s t : Db} {source : String}

/-- The same value, and nothing changed. -/
abbrev Same (s t : Db) : α → Db → α → Db → Prop := fun a s' b t' => a = b ∧ s' = s ∧ t' = t

/-- A body that only reads agrees with itself as soon as it answers the same. -/
theorem agree_readOnly {x : Tx Db ε α} (hx : Tx.ReadOnly x) (h : (x.run s).1 = (x.run t).1) :
    Tx.Agree (Same s t) x x s t := by
  have hs := hx s
  have ht := hx t
  unfold Tx.Agree
  rcases hxs : x.run s with ⟨e | a, s'⟩ <;> rcases hxt : x.run t with ⟨e' | b, t'⟩ <;>
    rw [hxs, hxt] at h <;> rw [hxs] at hs <;> rw [hxt] at ht
  · exact Except.error.inj h
  · cases h
  · cases h
  · exact ⟨Except.ok.inj h, hs, ht⟩

/-- Such a body in front of the rest of a handler. -/
theorem agree_after {x : Tx Db ε α} {f g : α → Tx Db ε β} {Q : β → Db → β → Db → Prop}
    (hx : Tx.Agree (Same s t) x x s t) (h : ∀ a, Tx.Agree Q (f a) (g a) s t) :
    Tx.Agree Q (x >>= f) (x >>= g) s t := by
  refine hx.bind fun a s' b t' hsame => ?_
  obtain ⟨rfl, rfl, rfl⟩ := hsame
  exact h a

/-- The same, with what the first run answered. -/
theorem agree_found {x : Tx Db ε α} {f g : α → Tx Db ε β} {Q : β → Db → β → Db → Prop}
    (hx : Tx.Agree (Same s t) x x s t)
    (h : ∀ a, (x.run s).1 = .ok a → Tx.Agree Q (f a) (g a) s t) :
    Tx.Agree Q (x >>= f) (x >>= g) s t := by
  have hknown : Tx.Agree (fun a s' b t' => Same s t a s' b t' ∧ (x.run s).1 = .ok a) x x s t := by
    unfold Tx.Agree at hx ⊢
    rcases hxs : x.run s with ⟨e | a, s'⟩ <;> rcases hxt : x.run t with ⟨e' | b, t'⟩ <;>
      simp only [hxs, hxt] at hx ⊢
    · exact hx
    · exact ⟨hx, trivial⟩
  refine hknown.bind fun a s' b t' hsame => ?_
  obtain ⟨⟨rfl, rfl, rfl⟩, hrun⟩ := hsame
  exact h a hrun

theorem agree_source {app : App} {bearer : String} (howner : app.owner bearer = some source)
    {f g : String → HttpM β} {Q : β → Db → β → Db → Prop}
    (h : Tx.Agree Q (f source) (g source) s t) :
    Tx.Agree Q (app.source bearer >>= f) (app.source bearer >>= g) s t := by
  have hsource : app.source bearer = pure source := by
    unfold App.source
    rw [howner]
    rfl
  rw [hsource]
  exact h

/-- A read of the store reports the same when it answers the same. -/
theorem agree_stored {x : StoreM α} (hx : Tx.ReadOnly x) (h : (x.run s).1 = (x.run t).1) :
    Tx.Agree (Same s t) (stored x) (stored x) s t :=
  (agree_readOnly hx h).mapError storageError

theorem agree_orAbsent {x : StoreM α} (hx : Tx.ReadOnly x) (h : (x.run s).1 = (x.run t).1) :
    Tx.Agree (Same s t) (orAbsent x) (orAbsent x) s t := by
  refine agree_readOnly (readOnly_orAbsent hx) ?_
  unfold orAbsent
  rcases hxs : x.run s with ⟨e | a, s'⟩ <;> rcases hxt : x.run t with ⟨e' | b, t'⟩ <;>
    rw [hxs, hxt] at h <;> simp only [hxs, hxt]
  · obtain rfl := Except.error.inj h
    split <;> rfl
  · cases h
  · cases h
  · obtain rfl := Except.ok.inj h
    rfl

end reading

/-! ## The endpoints that answer from the source's own rows -/

/-- Two runs of a body end with the same value. -/
abbrev Alike {α : Type} : α → Db → α → Db → Prop := fun a _ b _ => a = b

section endpoints

variable {app : App} {bearer source : String} {s t : Db}

theorem requestList_alike (howner : app.owner bearer = some source)
    (h : Db.AgreeFor source s t) (query : List (String × String)) :
    Tx.Agree Alike (requestListHandler app bearer query) (requestListHandler app bearer query)
      s t := by
  refine agree_source howner (Tx.agree_ofExcept fun input _ => ?_)
  refine agree_after (agree_stored (Tx.readOnly_expect _ _) ?_) fun cursor => ?_
  · split <;> rename_i value heq
    · rfl
    · cases hvalue : parseI64 value <;> rfl
  refine agree_after (agree_stored (readOnly_requestPage _ _ _ _ _) ?_) fun page => rfl
  have hrows : s.requestRows input.thread source (cursor.getD 0) input.limit =
      t.requestRows input.thread source (cursor.getD 0) input.limit := by
    unfold Db.requestRows
    rw [Table.AgreeOn.select (h.requests.filter (fun r hr => hr.2.1) Request.seq requests_by_seq)]
  refine Tx.Agree.answer ?_
  unfold requestPage validateIdentifier bailIf
  refine Tx.agree_check Iff.rfl fun _ => Tx.agree_check Iff.rfl fun _ => ?_
  refine Tx.agree_check Iff.rfl fun _ => Tx.agree_check Iff.rfl fun _ => Tx.agree_query ?_
  rw [hrows]
  refine Tx.agree_ofExcept fun values _ => ?_
  split
  · exact Tx.agree_pure rfl
  · exact Tx.agree_pure rfl

/-- A look-up by id finds the same request, or none. -/
theorem requestRecord_alike (crates : Crates) (h : Db.AgreeFor source s t) (requestId : String) :
    ((requestRecordById crates requestId source).run s).1 =
      ((requestRecordById crates requestId source).run t).1 := by
  refine Tx.Agree.answer ?_
  unfold requestRecordById validateIdentifier bailIf
  refine Tx.agree_check Iff.rfl fun _ => Tx.agree_check Iff.rfl fun _ => Tx.agree_query ?_
  rw [h.ownRequest]
  refine Tx.agree_expect Iff.rfl fun a b ha hb => ?_
  rw [ha] at hb
  obtain rfl := Option.some.inj hb
  cases requestValue crates a with
  | error e => exact rfl
  | ok value => exact rfl

theorem requestGet_alike (howner : app.owner bearer = some source) (h : Db.AgreeFor source s t)
    (hs : s.Lineage app.crates) (ht : t.Lineage app.crates) (query : List (String × String))
    (requestId : String) :
    Tx.Agree Alike (requestGetHandler app bearer query requestId)
      (requestGetHandler app bearer query requestId) s t := by
  refine agree_source howner (Tx.agree_ofExcept fun _ _ => ?_)
  refine agree_after (agree_orAbsent (readOnly_requestGetById _ _ _) ?_) fun found => ?_
  · refine Tx.Agree.answer ?_
    unfold requestGetById validateIdentifier bailIf
    refine Tx.agree_check Iff.rfl fun _ => Tx.agree_check Iff.rfl fun _ => Tx.agree_query ?_
    rw [← h.ownRequest]
    refine Tx.agree_expect Iff.rfl fun r r' hr hr' => ?_
    rw [hr] at hr'
    obtain rfl := Option.some.inj hr'
    obtain ⟨hmem, _, hsource⟩ := Table.find?_some hr
    refine Tx.agree_ofExcept fun value _ => Tx.agree_query (Tx.agree_query ?_)
    have hhistory : s.requestHistory r.requestId = t.requestHistory r.requestId :=
      Table.AgreeOn.select ((h.history hmem hsource).filter (fun u hu => hu) RequestUpdate.seq
        updates_by_seq)
    rw [hhistory, h.requestNotices hs ht hmem hsource]
    exact Tx.agree_pure rfl
  · refine Tx.agree_expect Iff.rfl fun a b ha hb => ?_
    rw [ha] at hb
    obtain rfl := Option.some.inj hb
    exact Tx.agree_pure rfl

theorem replies_alike (howner : app.owner bearer = some source) (h : Db.AgreeFor source s t) :
    Tx.Agree Alike (repliesHandler app bearer) (repliesHandler app bearer) s t := by
  refine agree_source howner (agree_after (agree_stored (readOnly_readReplies _) ?_) fun _ => rfl)
  refine Tx.Agree.answer ?_
  unfold readReplies validateIdentifier bailIf
  refine Tx.agree_check Iff.rfl fun _ => ?_
  refine Tx.agree_query (g := pure) (f := pure) ?_
  refine Tx.agree_pure (Table.AgreeOn.select ?_)
  exact h.replies.filter (fun r hr => hr.1) Reply.seq replies_by_seq

theorem ack_alike (howner : app.owner bearer = some source) (h : Db.AgreeFor source s t)
    (contentLength : Option String) (replyId : String) (now : Rat) :
    Tx.Agree Alike (ackHandler app bearer contentLength replyId now)
      (ackHandler app bearer contentLength replyId now) s t := by
  refine agree_source howner (Tx.agree_check Iff.rfl fun _ => ?_)
  refine Tx.Agree.bind (Q := fun _ _ _ _ => True) (Tx.Agree.mapError ?_ _) fun _ _ _ _ _ => rfl
  unfold replyAck validateIdentifier bailIf
  refine Tx.agree_check Iff.rfl fun _ => Tx.agree_check Iff.rfl fun _ => Tx.Agree.atomically ?_
  have hfound : (s.replies.find? fun r => r.id = replyId ∧ r.source = source) =
      t.replies.find? fun r => r.id = replyId ∧ r.source = source := by
    refine h.replies.find? (fun r hr => hr.2) fun a b ha hb hka hkb => ?_
    exact Table.eq_of_not_fits ha hb (fun hfit => hfit.2.1 (hka.1.trans hkb.1.symm))
      fun hfit => hfit.2.1 (hkb.1.trans hka.1.symm)
  refine Tx.agree_query ?_
  rw [hfound]
  exact Tx.agree_expect Iff.rfl fun _ _ _ _ => trivial

theorem bailIf_alike (c : Prop) [Decidable c] (message : String) :
    ((bailIf c message).run s).1 = ((bailIf c message).run t).1 := by
  unfold bailIf Tx.bailIf
  split <;> rfl

theorem validateDetail_alike (detail : Option String) :
    ((validateDetail detail).run s).1 = ((validateDetail detail).run t).1 := by
  cases detail with
  | none => rfl
  | some text => exact bailIf_alike _ _

/-- A request that the look-up by id finds is a row of the source. -/
theorem requestRecord_found {crates : Crates} {requestId : String} {value : RequestValue}
    (h : ((orAbsent (requestRecordById crates requestId source)).run s).1 = .ok (some value)) :
    value.row ∈ s.requests ∧ value.row.source = source := by
  unfold orAbsent at h
  rcases hrun : (requestRecordById crates requestId source).run s with ⟨e | found, t⟩
  · simp only [hrun] at h
    split at h <;> cases h
  · simp only [hrun] at h
    obtain rfl := Option.some.inj (Except.ok.inj h)
    simp only [requestRecordById, Tx.bind_ok, validateIdentifier_ok, Tx.query_ok, Tx.expect_ok,
      Tx.ofExcept_ok] at hrun
    obtain ⟨_, _, ⟨_, rfl⟩, _, _, ⟨_, rfl⟩, row, _, ⟨hrow, rfl⟩, r, _, ⟨rfl, rfl⟩, hvalue, rfl⟩ :=
      hrun
    obtain ⟨hr, _, hsource⟩ := Table.find?_some hrow
    unfold requestValue at hvalue
    split at hvalue
    · cases hvalue
    · obtain rfl := Except.ok.inj hvalue
      exact ⟨hr, hsource⟩

/-- An update of a request that both states hold answers the same. -/
theorem requestUpdate_alike {crates : Crates} (h : Db.AgreeFor source s t)
    (hs : s.Lineage crates) (ht : t.Lineage crates) (hsroom : s.Roomy) (htroom : t.Roomy)
    {r : Request} (hr : r ∈ s.requests) (howner : r.source = source) (updateId text : String)
    (revision : Int) (detail : Option String) (now : Rat) :
    Tx.Agree Alike
      (requestUpdate crates r.thread source r.requestKey updateId text (some revision) detail now)
      (requestUpdate crates r.thread source r.requestKey updateId text (some revision) detail now)
      s t := by
  have hrt : r ∈ t.requests := (h.requests r howner).mp hr
  have hrow : s.requestAt r.thread source r.requestKey = some r :=
    Table.find?_eq_of_unique hr ⟨rfl, howner, rfl⟩ fun q hq hkey =>
      Request.eq_of_requestKey hq hr hkey.1 (hkey.2.1.trans howner.symm) hkey.2.2
  have hcount := Table.AgreeOn.count ((h.history hr howner).filter (fun u hu => hu)
    RequestUpdate.seq updates_by_seq)
  -- with room in the outbox both states admit the transition
  have hrecord : ∀ db : Db, db.Lineage crates → db.Roomy → r ∈ db.requests →
      db.updateAt r.requestId updateId = none → ∀ state, allowedTransition r.state state = true →
      (recordTransition crates r updateId r.revision state detail now).run db =
        (.ok (), (Entry.transition r updateId state detail now).apply crates db) ∧
      ((Entry.transition r updateId state detail now).apply crates db).requestById r.requestId =
        some ((Entry.transition r updateId state detail now).onRequest r) := by
    intro db hdb hroom hmem hnew state hallowed
    have hadmits : db.requestUpdates.Admits (transitionRow db r updateId state detail now) :=
      admits_transitionRow.mpr (Table.find?_none.mp hnew)
    have hnotice : state.notifies = true → db.pendingNotices < maxRequestNotifications ∧
        db.requestNotifications.Admits
          (newNotification crates r updateId (r.revision + 1) state detail now) :=
      fun _ => ⟨hroom.notices, hdb.admits_next hmem _ _ _⟩
    have henabled : (Entry.transition r updateId state detail now).Enabled crates db :=
      ⟨hmem, hallowed, hadmits, hnotice⟩
    have hmoved := (Entry.mem_requests henabled).mpr (Or.inl ⟨r, hmem, rfl⟩)
    have hid := (Request.identity_eq
      (Entry.onRequest_identity (.transition r updateId state detail now) r)).2.1
    have hfound := Db.requestById_of_mem hmoved
    rw [hid] at hfound
    exact ⟨(recordTransition_ok hmem).mpr ⟨hadmits, hnotice, rfl⟩, hfound⟩
  unfold requestUpdate validateIdentifier bailIf
  refine Tx.agree_check Iff.rfl fun _ => Tx.agree_check Iff.rfl fun _ => ?_
  refine Tx.agree_check Iff.rfl fun _ => Tx.agree_check Iff.rfl fun _ => ?_
  refine Tx.agree_expect Iff.rfl fun state state' hstate hstate' => ?_
  rw [hstate] at hstate'
  obtain rfl := Option.some.inj hstate'
  refine Tx.agree_check Iff.rfl fun _ => ?_
  refine agree_after (agree_readOnly (validateDetail_readOnly _) (validateDetail_alike _))
    fun _ => ?_
  refine Tx.Agree.atomically (Tx.agree_query ?_)
  rw [← h.requestAt, hrow]
  refine Tx.agree_expect Iff.rfl fun q q' hq hq' => ?_
  obtain rfl := Option.some.inj hq
  obtain rfl := Option.some.inj hq'
  refine Tx.agree_query ?_
  rw [← h.updateAt hr howner]
  cases hnew : s.updateAt r.requestId updateId with
  | some u =>
      refine Tx.agree_check Iff.rfl fun _ => Tx.agree_query ?_
      rw [Db.requestById_of_mem hr, Db.requestById_of_mem hrt]
      refine Tx.agree_expect Iff.rfl fun q q' hq hq' => ?_
      obtain rfl := Option.some.inj hq
      obtain rfl := Option.some.inj hq'
      exact Tx.agree_ofExcept fun _ _ => Tx.agree_pure rfl
  | none =>
      have hnewt : t.updateAt r.requestId updateId = none := by rw [← h.updateAt hr howner, hnew]
      refine Tx.agree_check Iff.rfl fun hrevision => ?_
      obtain rfl : revision = r.revision := Decidable.of_not_not hrevision
      refine Tx.agree_check Iff.rfl fun hallowed => Tx.agree_query ?_
      rw [hcount]
      refine Tx.agree_check Iff.rfl fun _ => ?_
      have hallowed := Bool.eq_true_of_not_eq_false hallowed
      obtain ⟨hrun, hfound⟩ := hrecord s hs hsroom hr hnew state hallowed
      obtain ⟨hrunt, hfoundt⟩ := hrecord t ht htroom hrt hnewt state hallowed
      have hboth : Tx.Agree (fun _ s' _ t' =>
          s' = (Entry.transition r updateId state detail now).apply crates s ∧
            t' = (Entry.transition r updateId state detail now).apply crates t)
          (recordTransition crates r updateId r.revision state detail now)
          (recordTransition crates r updateId r.revision state detail now) s t := by
        unfold Tx.Agree
        rw [hrun, hrunt]
        exact ⟨rfl, rfl⟩
      refine hboth.bind fun _ s' _ t' hafter => ?_
      obtain ⟨rfl, rfl⟩ := hafter
      refine Tx.agree_query ?_
      rw [hfound, hfoundt]
      refine Tx.agree_expect Iff.rfl fun q q' hq hq' => ?_
      obtain rfl := Option.some.inj hq
      obtain rfl := Option.some.inj hq'
      exact Tx.agree_ofExcept fun _ _ => Tx.agree_pure rfl

theorem requestUpdateHandler_alike (howner : app.owner bearer = some source)
    (h : Db.AgreeFor source s t) (hs : s.Lineage app.crates) (ht : t.Lineage app.crates)
    (hsroom : s.Roomy) (htroom : t.Roomy) (query : List (String × String)) (requestId : String)
    (body : Value) (now : Rat) :
    Tx.Agree Alike (requestUpdateHandler app bearer query requestId body now)
      (requestUpdateHandler app bearer query requestId body now) s t := by
  refine agree_source howner (Tx.agree_ofExcept fun _ _ => ?_)
  refine agree_found (agree_orAbsent (readOnly_requestRecordById _ _ _)
    (requestRecord_alike _ h requestId)) fun found hfound => ?_
  refine Tx.agree_expect Iff.rfl fun value value' hvalue hvalue' => ?_
  subst hvalue
  obtain rfl := Option.some.inj hvalue'
  obtain ⟨hr, hsource⟩ := requestRecord_found hfound
  refine Tx.agree_ofExcept fun input _ => ?_
  have hcall := requestUpdate_alike h hs ht hsroom htroom hr hsource input.updateId input.state
    input.expectedRevision input.detail now
  refine (hcall.mapError storageError).bind fun a s' b t' hsame => ?_
  obtain rfl := hsame
  exact Tx.agree_pure rfl

/-! ## Creating a request -/

/-- The delivery that a creation names, once its query and its body have passed their checks. -/
def SourceCall.tracks (app : App) : SourceCall → Option String
  | .requestCreate query body _ _ =>
      match createBody app query body with
      | .ok input => some input.deliveryId
      | .error _ => none
  | _ => none

theorem Db.eventById_of_mem {db : Db} {e : Event} (he : e ∈ db.events) :
    (db.events.find? fun f => f.id = e.id) = some e :=
  Table.find?_eq_of_unique he rfl fun _ hf hid => Event.eq_of_id hf he hid

/-- An inserted request is read back by its id. -/
theorem insertRequest_read {db : Db} {r : Request} (hadmits : db.requests.Admits r) :
    ∃ u, db.insertRequest? r = some u ∧ u.requestById r.requestId = some r := by
  have hmem : r ∈ ({ db with requests := db.requests.add r } : Db).requests :=
    (Table.mem_add hadmits).mpr (Or.inr rfl)
  exact ⟨_, Option.map_eq_some_iff.mpr ⟨_, Table.insert?_eq_some.mpr ⟨hadmits, rfl⟩, rfl⟩,
    Db.requestById_of_mem hmem⟩

/-- The answers show the same request. -/
abbrev SameView : RequestAnswer → Db → RequestAnswer → Db → Prop :=
  fun a _ b _ => a.value.view = b.value.view ∧ a.duplicate = b.duplicate

/-- A new request is numbered by the whole table, but its number is not shown. -/
theorem requestCreate_alike (crates : Crates) (h : Db.AgreeFor source s t) (hsroom : s.Roomy)
    (htroom : t.Roomy) {e : Event} (he : e ∈ s.events) (howner : e.source = source)
    {uuid : Uuid} (hsfresh : ∀ r ∈ s.requests, r.requestId ≠ uuid.text)
    (htfresh : ∀ r ∈ t.requests, r.requestId ≠ uuid.text) (thread key : String) (payload : Value)
    (expiresAt : Option F64) (now : Rat) :
    Tx.Agree SameView (requestCreate crates thread source key e.id payload expiresAt uuid now)
      (requestCreate crates thread source key e.id payload expiresAt uuid now) s t := by
  have het : e ∈ t.events := (h.events e howner).mp he
  unfold requestCreate validateIdentifier bailIf
  refine Tx.agree_check Iff.rfl fun _ => Tx.agree_check Iff.rfl fun _ => ?_
  refine Tx.agree_check Iff.rfl fun _ => Tx.agree_check Iff.rfl fun _ => ?_
  refine Tx.agree_check Iff.rfl fun _ => ?_
  refine Tx.agree_expect Iff.rfl fun expiry expiry' hexpiry hexpiry' => ?_
  rw [hexpiry] at hexpiry'
  obtain rfl := Option.some.inj hexpiry'
  refine Tx.Agree.atomically (Tx.agree_query ?_)
  rw [Db.eventById_of_mem he, Db.eventById_of_mem het]
  refine Tx.agree_expect Iff.rfl fun f f' hf hf' => ?_
  obtain rfl := Option.some.inj hf
  obtain rfl := Option.some.inj hf'
  refine Tx.agree_check Iff.rfl fun _ => Tx.agree_query ?_
  rw [h.bindings]
  refine Tx.agree_expect Iff.rfl fun b b' hb hb' => ?_
  rw [hb] at hb'
  obtain rfl := Option.some.inj hb'
  refine Tx.agree_check Iff.rfl fun _ => Tx.agree_query ?_
  rw [← h.requestAt]
  cases hold : s.requestAt thread source key with
  | some r =>
      exact Tx.agree_ofExcept fun value _ => Tx.agree_check Iff.rfl fun _ =>
        Tx.agree_pure ⟨rfl, rfl⟩
  | none =>
      have holdt : t.requestAt thread source key = none := by rw [← h.requestAt, hold]
      refine Tx.agree_query (Tx.agree_check ?_ fun _ => ?_)
      · have hs := hsroom.requests
        have ht := htroom.requests
        constructor <;> intro hle <;> omega
      -- the inserted row is the one read back
      have hinsert : ∀ db : Db, (∀ r ∈ db.requests, r.requestId ≠ uuid.text) →
          db.requestAt thread source key = none → ∃ u,
          db.insertRequest? (newRequest db.nextRequestSeq uuid thread source key e.id e.binding
            (canonicalJson crates payload) expiry now) = some u ∧
          u.requestById uuid.text = some (newRequest db.nextRequestSeq uuid thread source key e.id
            e.binding (canonicalJson crates payload) expiry now) := by
        intro db hfresh hnew
        refine insertRequest_read fun r hr => ?_
        have hseq : r.seq < db.nextRequestSeq := Table.lt_nextSeq hr
        exact ⟨hseq, hfresh r hr, Table.find?_none.mp hnew r hr⟩
      obtain ⟨s', hs', hsfound⟩ := hinsert s hsfresh hold
      obtain ⟨t', ht', htfound⟩ := hinsert t htfresh holdt
      refine Tx.agree_attempt hs' ht' (Tx.agree_query ?_)
      rw [hsfound, htfound]
      refine Tx.agree_expect (by simp) fun r r' hr hr' => ?_
      obtain rfl := Option.some.inj hr
      obtain rfl := Option.some.inj hr'
      unfold requestValue
      cases hparse : crates.fromStr (canonicalJson crates payload) with
      | none => simp only [newRequest, hparse]; exact rfl
      | some value => simp only [newRequest, hparse]; exact ⟨rfl, rfl⟩

/-- The event that a look-up answers. -/
theorem event_found {crates : Crates} {id : String} {value : EventValue}
    (h : ((stored (event crates id)).run s).1 = .ok value) :
    value.row ∈ s.events ∧ value.row.id = id := by
  rcases hrun : (stored (event crates id)).run s with ⟨e | found, u⟩
  · rw [hrun] at h
    cases h
  · rw [hrun] at h
    obtain rfl := Except.ok.inj h
    simp only [stored, Tx.mapError_ok, event, Tx.bind_ok, validateIdentifier_ok, Tx.query_ok,
      Tx.expect_ok, Tx.pure_ok] at hrun
    obtain ⟨_, _, ⟨_, rfl⟩, row, _, ⟨hrow, rfl⟩, e, _, ⟨rfl, rfl⟩, _, _, ⟨_, rfl⟩, rfl, _⟩ := hrun
    exact Table.find?_some hrow

/-- The delivery is the source's own: both states go on to create or find the request. -/
theorem requestCreateHandler_own (howner : app.owner bearer = some source)
    (h : Db.AgreeFor source s t) (hsroom : s.Roomy) (htroom : t.Roomy)
    {query : List (String × String)} {body : Value} {input : CreateBody}
    (hinput : createBody app query body = .ok input) {e : Event} (he : e ∈ s.events)
    (hid : e.id = input.deliveryId) (hsource : e.source = source) {uuid : Uuid}
    (hsfresh : ∀ r ∈ s.requests, r.requestId ≠ uuid.text)
    (htfresh : ∀ r ∈ t.requests, r.requestId ≠ uuid.text) (now : Rat) :
    Tx.Agree Alike (requestCreateHandler app bearer query body uuid now)
      (requestCreateHandler app bearer query body uuid now) s t := by
  have het : e ∈ t.events := (h.events e hsource).mp he
  refine agree_source howner (Tx.agree_ofExcept fun input' hinput' => ?_)
  rw [hinput] at hinput'
  obtain rfl := Except.ok.inj hinput'
  rw [← hid]
  have hevent : ((event app.crates e.id).run s).1 = ((event app.crates e.id).run t).1 := by
    refine Tx.Agree.answer ?_
    unfold event validateIdentifier bailIf
    refine Tx.agree_check Iff.rfl fun _ => Tx.agree_query ?_
    rw [Db.eventById_of_mem he, Db.eventById_of_mem het]
    refine Tx.agree_expect Iff.rfl fun f f' hf hf' => ?_
    obtain rfl := Option.some.inj hf
    obtain rfl := Option.some.inj hf'
    refine Tx.agree_expect Iff.rfl fun v v' hv hv' => ?_
    rw [hv] at hv'
    obtain rfl := Option.some.inj hv'
    exact Tx.agree_pure rfl
  refine agree_found (agree_stored (readOnly_event _ _) hevent) fun found hfound => ?_
  obtain ⟨hmem, hfoundid⟩ := event_found hfound
  obtain rfl := Event.eq_of_id hmem he hfoundid
  refine Tx.agree_check Iff.rfl fun _ => ?_
  refine agree_after (agree_stored (Tx.readOnly_query _) ?_) fun all => ?_
  · show Except.ok (s.bindings.select _ _) = Except.ok (t.bindings.select _ _)
    rw [h.bindings]
  refine Tx.agree_expect Iff.rfl fun b b' hb hb' => ?_
  rw [hb] at hb'
  obtain rfl := Option.some.inj hb'
  have hcall := requestCreate_alike app.crates h hsroom htroom hmem hsource hsfresh
    htfresh b.thread input.requestKey input.payload input.expiresAt now
  refine (hcall.mapError storageError).bind fun a s' a' t' hview => ?_
  refine Tx.agree_pure ?_
  rw [hview.1, hview.2]

/-- The delivery of another source is refused under a text of its own. -/
theorem requestCreateHandler_foreign (howner : app.owner bearer = some source)
    (hreadable : s.Readable app.crates) {query : List (String × String)} {body : Value}
    {input : CreateBody} (hinput : createBody app query body = .ok input)
    (hidentifier : isIdentifier input.deliveryId = true)
    (hforeign : s.Foreign source input.deliveryId) (uuid : Uuid) (now : Rat) :
    ((requestCreateHandler app bearer query body uuid now).run s).1 =
      .error ⟨404, "delivery not found"⟩ := by
  obtain ⟨e, he, hid, hother⟩ := hforeign
  obtain ⟨envelope, hparse⟩ := Option.isSome_iff_exists.mp (hreadable e he)
  have hsource : app.source bearer = pure source := by
    unfold App.source
    rw [howner]
    rfl
  have hevent : (stored (event app.crates input.deliveryId)).run s = (.ok ⟨e, envelope⟩, s) := by
    simp only [stored, Tx.mapError_ok, event, Tx.bind_ok, validateIdentifier_ok, Tx.query_ok,
      Tx.expect_ok, Tx.pure_ok]
    refine ⟨(), s, ⟨hidentifier, rfl⟩, some e, s, ⟨?_, rfl⟩, e, s, ⟨rfl, rfl⟩, envelope, s,
      ⟨hparse, rfl⟩, rfl, rfl⟩
    rw [← hid]
    exact Db.eventById_of_mem he
  have hrefuse : (refuseIf (e.source ≠ source) 404 "delivery not found").run s =
      (.error ⟨404, "delivery not found"⟩, s) := by
    unfold refuseIf Tx.bailIf
    rw [if_pos hother]
    rfl
  have hbody : (Tx.ofExcept (createBody app query body) : HttpM CreateBody).run s =
      (.ok input, s) := Tx.ofExcept_ok.mpr ⟨hinput, rfl⟩
  unfold requestCreateHandler
  rw [hsource, Tx.run_bind_of_ok (Tx.run_pure source s), Tx.run_bind_of_ok hbody,
    Tx.run_bind_of_ok hevent, Tx.run_bind_of_error hrefuse]

/-- A delivery that does not exist is reported by the store. -/
theorem requestCreateHandler_absent (howner : app.owner bearer = some source)
    {query : List (String × String)} {body : Value} {input : CreateBody}
    (hinput : createBody app query body = .ok input)
    (hnone : ∀ e ∈ s.events, e.id ≠ input.deliveryId) (uuid : Uuid) (now : Rat) :
    ((requestCreateHandler app bearer query body uuid now).run s).1 =
      .error (if isIdentifier input.deliveryId then ⟨404, "resource not found"⟩
        else ⟨400, "invalid or unavailable target/input"⟩) := by
  have hsource : app.source bearer = pure source := by
    unfold App.source
    rw [howner]
    rfl
  have hbody : (Tx.ofExcept (createBody app query body) : HttpM CreateBody).run s =
      (.ok input, s) := Tx.ofExcept_ok.mpr ⟨hinput, rfl⟩
  have hevent : (stored (event app.crates input.deliveryId)).run s =
      (.error (if isIdentifier input.deliveryId then ⟨404, "resource not found"⟩
        else ⟨400, "invalid or unavailable target/input"⟩), s) := by
    have hfind : (s.events.find? fun e => e.id = input.deliveryId) = none :=
      Table.find?_none.mpr hnone
    by_cases hidentifier : isIdentifier input.deliveryId = true
    · have hrun : (event app.crates input.deliveryId).run s =
          (.error (.bail "event not found"), s) := by
        unfold event
        rw [Tx.run_bind_of_ok (validateIdentifier_ok (u := ()).mpr ⟨hidentifier, rfl⟩),
          Tx.run_query_bind, hfind]
        rfl
      have hcategory : storageError (.bail "event not found") = ⟨404, "resource not found"⟩ := by
        decide
      unfold stored Tx.mapError
      simp only [hrun, hcategory, hidentifier, if_true]
    · have hrun : (event app.crates input.deliveryId).run s =
          (.error (.bail "delivery id must be a nonempty identifier"), s) := by
        unfold event
        exact Tx.run_bind_of_error
          (bailIf_refuses (Bool.eq_false_of_not_eq_true hidentifier) _ s) _
      have hcategory : storageError (.bail "delivery id must be a nonempty identifier") =
          ⟨400, "invalid or unavailable target/input"⟩ := by
        decide
      unfold stored Tx.mapError
      simp only [hrun, hcategory, hidentifier, if_false, Bool.false_eq_true]
  unfold requestCreateHandler
  rw [hsource, Tx.run_bind_of_ok (Tx.run_pure source s), Tx.run_bind_of_ok hbody,
    Tx.run_bind_of_error hevent]

/-- A creation tells two states apart exactly when its delivery is another source's in one of them
and missing in the other. -/
theorem requestCreateHandler_alike_iff (howner : app.owner bearer = some source)
    (hs : Reachable app.crates s) (ht : Reachable app.crates t) (h : Db.AgreeFor source s t)
    (hsroom : s.Roomy) (htroom : t.Roomy) (hsread : s.Readable app.crates)
    (htread : t.Readable app.crates) {query : List (String × String)} {body : Value}
    {input : CreateBody} (hinput : createBody app query body = .ok input) {uuid : Uuid}
    (hsfresh : ∀ r ∈ s.requests, r.requestId ≠ uuid.text)
    (htfresh : ∀ r ∈ t.requests, r.requestId ≠ uuid.text) (now : Rat) :
    ((requestCreateHandler app bearer query body uuid now).run s).1 =
        ((requestCreateHandler app bearer query body uuid now).run t).1 ↔
      (s.Foreign source input.deliveryId ↔ t.Foreign source input.deliveryId) := by
  have hidentifier : ∀ db, Reachable app.crates db → db.Foreign source input.deliveryId →
      isIdentifier input.deliveryId = true := by
    intro db hdb hforeign
    obtain ⟨e, he, hid, _⟩ := hforeign
    rw [← hid]
    exact hdb.eventId_isIdentifier e he
  by_cases hown : ∃ e ∈ s.events, e.id = input.deliveryId ∧ e.source = source
  · obtain ⟨e, he, hid, hsource⟩ := hown
    have het : e ∈ t.events := (h.events e hsource).mp he
    have hnot : ∀ db : Db, e ∈ db.events → ¬ db.Foreign source input.deliveryId := by
      intro db hmem hforeign
      obtain ⟨f, hf, hfid, hother⟩ := hforeign
      obtain rfl := Event.eq_of_id hmem hf (hid.trans hfid.symm)
      exact hother hsource
    refine ⟨fun _ => iff_of_false (hnot s he) (hnot t het), fun _ => ?_⟩
    exact (requestCreateHandler_own howner h hsroom htroom hinput he hid hsource hsfresh htfresh
      now).answer
  -- no event of the source has the id, in either state
  have habsent : ∀ db : Db, (∀ e ∈ db.events, e.source = source → e.id ≠ input.deliveryId) →
      ¬ db.Foreign source input.deliveryId → ∀ e ∈ db.events, e.id ≠ input.deliveryId := by
    intro db howned hforeign e he hid
    by_cases hsource : e.source = source
    · exact howned e he hsource hid
    · exact hforeign ⟨e, he, hid, hsource⟩
  have hsown : ∀ e ∈ s.events, e.source = source → e.id ≠ input.deliveryId :=
    fun e he hsource hid => hown ⟨e, he, hid, hsource⟩
  have htown : ∀ e ∈ t.events, e.source = source → e.id ≠ input.deliveryId :=
    fun e he hsource hid => hown ⟨e, (h.events e hsource).mpr he, hid, hsource⟩
  by_cases hsforeign : s.Foreign source input.deliveryId <;>
    by_cases htforeign : t.Foreign source input.deliveryId
  · refine ⟨fun _ => iff_of_true hsforeign htforeign, fun _ => ?_⟩
    rw [requestCreateHandler_foreign howner hsread hinput (hidentifier s hs hsforeign) hsforeign,
      requestCreateHandler_foreign howner htread hinput (hidentifier t ht htforeign) htforeign]
  · refine ⟨fun hsame => ?_, fun hiff => absurd (hiff.mp hsforeign) htforeign⟩
    rw [requestCreateHandler_foreign howner hsread hinput (hidentifier s hs hsforeign) hsforeign,
      requestCreateHandler_absent howner hinput (habsent t htown htforeign),
      if_pos (hidentifier s hs hsforeign)] at hsame
    exact absurd hsame (by simp)
  · refine ⟨fun hsame => ?_, fun hiff => absurd (hiff.mpr htforeign) hsforeign⟩
    rw [requestCreateHandler_foreign howner htread hinput (hidentifier t ht htforeign) htforeign,
      requestCreateHandler_absent howner hinput (habsent s hsown hsforeign),
      if_pos (hidentifier t ht htforeign)] at hsame
    exact absurd hsame (by simp)
  · refine ⟨fun _ => iff_of_false hsforeign htforeign, fun _ => ?_⟩
    rw [requestCreateHandler_absent howner hinput (habsent s hsown hsforeign),
      requestCreateHandler_absent howner hinput (habsent t htown htforeign)]

/-! ## Every endpoint -/

/-- The calls of the request workflow and of the reply outbox. -/
def SourceCall.IsIngest : SourceCall → Bool
  | .ingest _ _ _ _ => true
  | _ => false

/-- The identifier that a call was given is new. -/
def SourceCall.FreshIn (db : Db) : SourceCall → Prop
  | .requestCreate _ _ uuid _ => ∀ r ∈ db.requests, r.requestId ≠ uuid.text
  | _ => True

/-- Two states that agree on a source's rows answer its call the same way, unless the call names a
delivery that belongs to another source in one of them and does not exist in the other. -/
theorem endpoints_alike_iff {call : SourceCall} (howner : app.owner bearer = some source)
    (hcall : call.IsIngest = false) (hs : Reachable app.crates s) (ht : Reachable app.crates t)
    (h : Db.AgreeFor source s t) (hsroom : s.Roomy) (htroom : t.Roomy)
    (hsread : s.Readable app.crates) (htread : t.Readable app.crates)
    (hsfresh : call.FreshIn s) (htfresh : call.FreshIn t) :
    ((app.serve bearer call).run s).1 = ((app.serve bearer call).run t).1 ↔
      ∀ id, call.tracks app = some id → (s.Foreign source id ↔ t.Foreign source id) := by
  cases call with
  | ingest => cases hcall
  | requestList query =>
      exact ⟨fun _ _ => nofun, fun _ => (requestList_alike howner h query).answer⟩
  | requestGet query requestId =>
      exact ⟨fun _ _ => nofun, fun _ =>
        (requestGet_alike howner h hs.lineage ht.lineage query requestId).answer⟩
  | requestUpdate query requestId body now =>
      exact ⟨fun _ _ => nofun, fun _ => (requestUpdateHandler_alike howner h hs.lineage ht.lineage
        hsroom htroom query requestId body now).answer⟩
  | replies => exact ⟨fun _ _ => nofun, fun _ => (replies_alike howner h).answer⟩
  | ack contentLength replyId now =>
      exact ⟨fun _ _ => nofun, fun _ => (ack_alike howner h contentLength replyId now).answer⟩
  | requestCreate query body uuid now =>
      simp only [SourceCall.tracks, App.serve]
      cases hinput : createBody app query body with
      | error e =>
          refine ⟨fun _ _ => nofun, fun _ => ?_⟩
          refine Tx.Agree.answer (agree_source howner (Tx.agree_ofExcept fun input hok => ?_))
          rw [hinput] at hok
          cases hok
      | ok input =>
          simp only [Option.some.injEq, forall_eq']
          exact requestCreateHandler_alike_iff howner hs ht h hsroom htroom hsread htread hinput
            hsfresh htfresh now

end endpoints

/-! ## A source that probes for a delivery -/

def opsEnvelope : Value :=
  .object [("data", .object []), ("id", .string "page-1"), ("source", .string "ops"),
    ("type", .string "page.opened")]

/-- A receiver whose conversation two sources feed. -/
def sharedApp : App where
  crates := .knowing [opsEnvelope, .object []]
  sources := [("ci", "ci-secret"), ("ops", "ops-secret")]
  asF64 _ := .nan

def sharedOps : List Op := [.bind "deploy" "conversation-1" "shared-local" ["ci", "ops"]]

/-- The other source has delivered an event. -/
def pagedOps : List Op := sharedOps ++ [.ingest "deploy" opsEnvelope (sampleUuid 1) 10]

def quietDb : Db := Db.after sharedApp.crates sharedOps

def pagedDb : Db := Db.after sharedApp.crates pagedOps

/-- The build server asks to track the other source's delivery. -/
def probeBody : Value :=
  .object [("delivery_id", .string (sampleUuid 1).text), ("request_key", .string "probe")]

def probeInput : CreateBody := ⟨(sampleUuid 1).text, "probe", .object [], none⟩

def probe : SourceCall := .requestCreate [] probeBody (sampleUuid 2) 20

theorem probe_input : createBody sharedApp [] probeBody = .ok probeInput := rfl

theorem shared_agree : Db.AgreeFor "ci" pagedDb quietDb where
  bindings := Table.ext (by decide)
  events := by
    have hpaged : ∀ e ∈ pagedDb.events.rows, e.source ≠ "ci" := by decide
    have hquiet : ∀ e ∈ quietDb.events.rows, e.source ≠ "ci" := by decide
    exact fun e hsource =>
      iff_of_false (fun he => hpaged e he hsource) fun he => hquiet e he hsource
  replies := by
    have hpaged : pagedDb.replies.rows = [] := by decide
    have hquiet : quietDb.replies.rows = [] := by decide
    intro p _
    simp [Table.mem_def, hpaged, hquiet]
  requests := by
    have hpaged : pagedDb.requests.rows = [] := by decide
    have hquiet : quietDb.requests.rows = [] := by decide
    intro r _
    simp [Table.mem_def, hpaged, hquiet]
  notices := by
    have hpaged : pagedDb.requestNotifications.rows = [] := by decide
    have hquiet : quietDb.requestNotifications.rows = [] := by decide
    intro n _
    simp [Table.mem_def, hpaged, hquiet]
  updates := by
    have hpaged : pagedDb.requestUpdates.rows = [] := by decide
    have hquiet : quietDb.requestUpdates.rows = [] := by decide
    intro u
    simp [Table.mem_def, hpaged, hquiet]

theorem quietDb_roomy : quietDb.Roomy := ⟨by decide, by decide⟩

theorem pagedDb_roomy : pagedDb.Roomy := ⟨by decide, by decide⟩

theorem quietDb_readable : quietDb.Readable sharedApp.crates := by
  have hread : ∀ e ∈ quietDb.events.rows, (sharedApp.crates.fromStr e.envelope).isSome = true := by
    decide
  exact hread

theorem pagedDb_readable : pagedDb.Readable sharedApp.crates := by
  have hread : ∀ e ∈ pagedDb.events.rows, (sharedApp.crates.fromStr e.envelope).isSome = true := by
    decide
  exact hread

theorem pagedDb_foreign : pagedDb.Foreign "ci" (sampleUuid 1).text := by
  have hmem : ∃ e ∈ pagedDb.events.rows, e.id = (sampleUuid 1).text ∧ e.source ≠ "ci" := by
    decide
  exact hmem

/-- The answers tell a delivery of another source apart from one that does not exist. -/
theorem endpoints_alike_fails :
    ¬ ∀ (app : App) (bearer source : String) (s t : Db) (call : SourceCall),
      app.owner bearer = some source → call.IsIngest = false → Reachable app.crates s →
      Reachable app.crates t → Db.AgreeFor source s t → s.Roomy → t.Roomy →
      s.Readable app.crates → t.Readable app.crates → call.FreshIn s → call.FreshIn t →
      ((app.serve bearer call).run s).1 = ((app.serve bearer call).run t).1 := by
  intro h
  have howner : sharedApp.owner "ci-secret" = some "ci" := by decide
  have hpaged : ∀ r ∈ pagedDb.requests.rows, r.requestId ≠ (sampleUuid 2).text := by
    decide
  have hquiet : ∀ r ∈ quietDb.requests.rows, r.requestId ≠ (sampleUuid 2).text := by
    decide
  have hnone : ∀ e ∈ quietDb.events.rows, e.id ≠ (sampleUuid 1).text := by decide
  have hsame := h sharedApp "ci-secret" "ci" pagedDb quietDb probe howner rfl
    (reachable_after _ _) (reachable_after _ _) shared_agree pagedDb_roomy quietDb_roomy
    pagedDb_readable quietDb_readable hpaged hquiet
  have hforeign := requestCreateHandler_foreign howner pagedDb_readable probe_input
    (by decide) pagedDb_foreign (sampleUuid 2) 20
  have habsent := requestCreateHandler_absent howner probe_input hnone (sampleUuid 2) 20
  have hapart := hforeign.symm.trans (hsame.trans habsent)
  have hidentifier : isIdentifier probeInput.deliveryId = true := by decide
  rw [if_pos hidentifier] at hapart
  exact absurd hapart (by simp)

/-- Two states that differ in another source's delivery: a listing is the same in both. -/
theorem endpoints_alike_iff_sample :
    ((sharedApp.serve "ci-secret" .replies).run pagedDb).1 =
      ((sharedApp.serve "ci-secret" .replies).run quietDb).1 := by
  have howner : sharedApp.owner "ci-secret" = some "ci" := by decide
  have hfresh : ∀ db, SourceCall.replies.FreshIn db := fun _ => trivial
  exact (endpoints_alike_iff howner rfl (reachable_after _ _) (reachable_after _ _) shared_agree
    pagedDb_roomy quietDb_roomy pagedDb_readable quietDb_readable (hfresh _) (hfresh _)).mpr
    (fun _ h => nomatch h)

end CodexMonitor
