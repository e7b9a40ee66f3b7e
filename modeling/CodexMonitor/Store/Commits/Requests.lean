import CodexMonitor.Store.Commits

/-!
# What request calls and maintenance commit

The expiry loop writes a transition a round.  The transfer loop walks a batch it
read before its first write, so its invariant is that the rest of the batch is
still ready: each candidate writes to its own notification only.
-/

namespace CodexMonitor

open Transaction

/-! ## Requests -/

/-- What a successful `requestCreate` did. -/
theorem requestCreate_commits {crates : Crates} {thread source key deliveryId : String}
    {payload : Value} {expiresAt : Option F64} {uuid : Uuid} {now : Rat} {db t : Db}
    {answer : RequestAnswer}
    (h : (requestCreate crates thread source key deliveryId payload expiresAt uuid now).run db
      = (.ok answer, t)) :
    (Op.requestCreate thread source key deliveryId payload expiresAt uuid now).Commits crates
      db t := by
  simp only [requestCreate, Tx.bind_ok, validateIdentifier_ok, bailIf_run_ok, Tx.expect_ok,
    withTx, Tx.atomically_ok, Tx.query_ok] at h
  obtain ⟨_, _, ⟨_, rfl⟩, _, _, ⟨_, rfl⟩, _, _, ⟨_, rfl⟩, _, _, ⟨_, rfl⟩, _, _, ⟨_, rfl⟩,
    expiry, _, ⟨_, rfl⟩, row, _, ⟨hrow, rfl⟩, e, _, ⟨rfl, rfl⟩, _, _, ⟨hsource, rfl⟩, target, _,
    ⟨htarget, rfl⟩, b, _, ⟨rfl, rfl⟩, _, _, ⟨hthread, rfl⟩, _, _, ⟨_, rfl⟩, h⟩ := h
  obtain ⟨he, hid⟩ := Table.find?_some hrow
  obtain ⟨hb, hname⟩ := Table.find?_some htarget
  split at h
  · simp only [Tx.bind_ok, Tx.ofExcept_ok, bailIf_run_ok, Tx.pure_ok] at h
    obtain ⟨_, _, ⟨_, rfl⟩, _, _, ⟨_, rfl⟩, _, rfl⟩ := h
    exact .refl _ _
  · simp only [Tx.bind_ok, Tx.query_ok, bailIf_run_ok, insertRequest_ok, Tx.expect_ok,
      Tx.ofExcept_ok, Tx.pure_ok] at h
    obtain ⟨_, _, ⟨rfl, rfl⟩, _, _, ⟨_, rfl⟩, _, _, ⟨hadmits, rfl⟩, _, _, ⟨_, rfl⟩, _, _,
      ⟨_, rfl⟩, _, _, ⟨_, rfl⟩, _, rfl⟩ := h
    have henabled : (Entry.create (newRequest db.nextRequestSeq uuid thread source key deliveryId
        e.binding (canonicalJson crates payload) expiry now)).Enabled crates db :=
      ⟨hadmits, rfl, rfl, rfl, ⟨uuid, rfl⟩, e, he, hid, Decidable.of_not_not hsource, rfl, b, hb,
        hname, Decidable.of_not_not hthread⟩
    exact .one (.create rfl) henabled

/-- The outbox half of a transition, when it succeeds. -/
theorem insertRequestNotificationTx_ok {crates : Crates} {r : Request} {updateId : String}
    {state : RequestState} {detail : Option String} {now : Rat} {db t : Db} :
    (insertRequestNotificationTx crates r updateId (r.revision + 1) state detail now).run db
        = (.ok (), t) ↔
      (state.notifies = true → db.pendingNotices < maxRequestNotifications ∧
        db.requestNotifications.Admits
          (newNotification crates r updateId (r.revision + 1) state detail now)) ∧
      t = db.addNotice crates r updateId state detail now := by
  unfold insertRequestNotificationTx Db.addNotice
  cases hstate : state.notifies with
  | false =>
      simp only [if_true, Tx.pure_ok, Bool.false_eq_true, if_false, false_implies, true_and]
      exact eq_comm
  | true =>
      simp only [Bool.true_eq_false, if_false, if_true, Tx.bind_ok, Tx.query_ok, bailIf_run_ok,
        insertNotice_ok, true_implies]
      constructor
      · rintro ⟨_, _, ⟨rfl, rfl⟩, _, _, ⟨hroom, rfl⟩, hadmits, rfl⟩
        exact ⟨⟨Nat.lt_of_not_le hroom, hadmits⟩, rfl⟩
      · rintro ⟨⟨hroom, hadmits⟩, rfl⟩
        exact ⟨_, _, ⟨rfl, rfl⟩, (), _, ⟨Nat.not_le.mpr hroom, rfl⟩, hadmits, rfl⟩

/-- A request is the only row with its id. -/
theorem matchingRequests_eq_one {db : Db} {r : Request} (hr : r ∈ db.requests) :
    db.matchingRequests r.requestId r.revision = 1 := by
  unfold Db.matchingRequests Table.count
  have hfits := db.requests.fits
  have hmem : r ∈ db.requests.rows := hr
  generalize db.requests.rows = rows at hfits hmem
  induction rows with
  | nil => cases hmem
  | cons a rows ih =>
      obtain ⟨hhead, htail⟩ := List.pairwise_cons.mp hfits
      rcases List.mem_cons.mp hmem with rfl | hmem
      · have hrest : rows.countP (fun x => x.requestId = r.requestId ∧ x.revision = r.revision)
            = 0 := by
          rw [List.countP_eq_zero]
          intro x hx
          have hne : r.requestId ≠ x.requestId := (hhead x hx).2.1
          simpa using fun heq => absurd heq.symm hne
        rw [List.countP_cons, hrest]
        simp
      · have hne : a.requestId ≠ r.requestId := (hhead r hmem).2.1
        rw [List.countP_cons, ih htail hmem]
        simp [hne]

/-- A transition of a stored request succeeds exactly when its history row and its outbox row
are admitted, and then it is the journal's entry. -/
theorem recordTransition_ok {crates : Crates} {r : Request} {updateId : String}
    {state : RequestState} {detail : Option String} {now : Rat} {db t : Db}
    (hr : r ∈ db.requests) :
    (recordTransition crates r updateId r.revision state detail now).run db = (.ok (), t) ↔
      db.requestUpdates.Admits (transitionRow db r updateId state detail now) ∧
      (state.notifies = true → db.pendingNotices < maxRequestNotifications ∧
        db.requestNotifications.Admits
          (newNotification crates r updateId (r.revision + 1) state detail now)) ∧
      t = (Entry.transition r updateId state detail now).apply crates db := by
  have hone : (db.addUpdate r updateId state detail now).matchingRequests r.requestId
      r.revision = 1 := matchingRequests_eq_one hr
  simp only [recordTransition, Tx.bind_ok, insertUpdate_ok, Tx.query_ok, bailIf_run_ok,
    Tx.write_ok, insertRequestNotificationTx_ok]
  constructor
  · rintro ⟨_, _, ⟨hadmits, rfl⟩, _, _, ⟨_, rfl⟩, _, _, ⟨_, rfl⟩, _, _, rfl, hnotice, rfl⟩
    exact ⟨hadmits, hnotice, rfl⟩
  · rintro ⟨hadmits, hnotice, rfl⟩
    exact ⟨(), _, ⟨hadmits, rfl⟩, _, _, ⟨rfl, rfl⟩, (), _,
      ⟨fun hne => hne hone, rfl⟩, (), _, rfl, hnotice, rfl⟩

theorem validateDetail_readOnly (detail : Option String) :
    Tx.ReadOnly (validateDetail detail) := by
  cases detail with
  | none => exact Tx.readOnly_pure _
  | some detail => exact readOnly_bail _ _

/-- What a successful `requestUpdate` did: it repeated a recorded update, or it made a
transition of the stored request at its current revision. -/
theorem requestUpdate_ok {crates : Crates} {thread source key updateId text : String}
    {expectedRevision : Option Int} {detail : Option String} {now : Rat} {db t : Db}
    {answer : UpdateAnswer}
    (h : (requestUpdate crates thread source key updateId text expectedRevision detail now).run db
      = (.ok answer, t)) :
    ∃ r state, db.requestAt thread source key = some r ∧ updateState? text = some state ∧
      ((answer.duplicate = true ∧ t = db ∧ ∃ u, db.updateAt r.requestId updateId = some u ∧
          u.repeats state expectedRevision detail) ∨
        (answer.duplicate = false ∧ db.updateAt r.requestId updateId = none ∧
          (∀ expected ∈ expectedRevision, expected = r.revision) ∧
          (Entry.transition r updateId state detail now).Enabled crates db ∧
          t = (Entry.transition r updateId state detail now).apply crates db)) := by
  simp only [requestUpdate, Tx.bind_ok, validateIdentifier_ok, Tx.expect_ok, bailIf_run_ok,
    withTx, Tx.atomically_ok, Tx.query_ok] at h
  obtain ⟨_, _, ⟨_, rfl⟩, _, _, ⟨_, rfl⟩, _, _, ⟨_, rfl⟩, _, _, ⟨_, rfl⟩, state, _,
    ⟨hstate, rfl⟩, _, _, ⟨_, rfl⟩, _, _, hdetail, row, _, ⟨hrow, rfl⟩, r, _, ⟨rfl, rfl⟩, prior,
    _, ⟨hprior, rfl⟩, h⟩ := h
  obtain rfl := (validateDetail_readOnly _).ok hdetail
  obtain ⟨hr, _⟩ := Table.find?_some hrow
  refine ⟨r, state, hrow, hstate, ?_⟩
  split at h
  · rename_i u
    simp only [Tx.bind_ok, bailIf_run_ok, Tx.query_ok, Tx.expect_ok, Tx.ofExcept_ok,
      Tx.pure_ok] at h
    obtain ⟨_, _, ⟨hrepeats, rfl⟩, _, _, ⟨_, rfl⟩, _, _, ⟨_, rfl⟩, _, _, ⟨_, rfl⟩, rfl, rfl⟩ := h
    exact Or.inl ⟨rfl, rfl, u, hprior, Decidable.of_not_not hrepeats⟩
  · simp only [Tx.bind_ok, bailIf_run_ok, Tx.query_ok, Tx.expect_ok, Tx.ofExcept_ok,
      Tx.pure_ok] at h
    obtain ⟨_, _, ⟨hexpected, rfl⟩, _, _, ⟨hallowed, rfl⟩, _, _, ⟨_, rfl⟩, _, _, ⟨_, rfl⟩, _, _,
      hrecord, _, _, ⟨_, rfl⟩, _, _, ⟨_, rfl⟩, _, _, ⟨_, rfl⟩, rfl, rfl⟩ := h
    have hexpected : expectedRevision.getD r.revision = r.revision :=
      Decidable.of_not_not hexpected
    rw [hexpected] at hrecord
    obtain ⟨hadmits, hnotice, rfl⟩ := (recordTransition_ok hr).mp hrecord
    have hallowed : allowedTransition r.state state = true :=
      Bool.eq_true_of_not_eq_false hallowed
    refine Or.inr ⟨rfl, hprior, ?_, ⟨hr, hallowed, hadmits, hnotice⟩, rfl⟩
    intro expected hmem
    rw [Option.mem_def.mp hmem] at hexpected
    exact hexpected

theorem requestUpdate_commits {crates : Crates} {thread source key updateId text : String}
    {expectedRevision : Option Int} {detail : Option String} {now : Rat} {db t : Db}
    {answer : UpdateAnswer}
    (h : (requestUpdate crates thread source key updateId text expectedRevision detail now).run db
      = (.ok answer, t)) :
    (Op.requestUpdate thread source key updateId text expectedRevision detail now).Commits crates
      db t := by
  obtain ⟨r, state, hrow, hstate, ⟨_, rfl, _⟩ | ⟨_, _, hrevision, henabled, rfl⟩⟩ :=
    requestUpdate_ok h
  · exact .refl _ _
  · exact .one (.update hstate (Table.find?_some hrow).2 hrevision) henabled

/-! ## Maintenance -/

/-- An open request may always expire. -/
theorem allowedTransition_expired {previous : RequestState} (h : previous.isTerminal = false) :
    allowedTransition previous .expired = true := by
  unfold allowedTransition
  rw [h]
  rfl

/-- The transitions of the expiry loop. -/
def Entry.Expires (now : Rat) (k : Entry) : Prop :=
  ∃ r : Request, r.Due now ∧
    k = .transition r (requestExpiryId r.requestId r.revision) .expired none now

/-- What the transfer loop writes for a candidate of its batch. -/
def Entry.Transfers (uuids : Nat → Uuid) (now : Rat) (batch : List RequestNotification)
    (k : Entry) : Prop :=
  ∃ n ∈ batch, (∃ error, k = .failNotice n error now) ∨ (∃ e, k = .link n e now) ∨
    k = .postpone n now ∨ ∃ e i, e.id = (uuids i).text ∧ k = .deliver n e now

theorem expiryLoop_commits {crates : Crates} {limit : Nat} {now : Rat} {fuel work done : Nat}
    {db t : Db} (h : (expiryLoop crates now limit fuel work).run db = (.ok done, t)) :
    Commits crates (Entry.Expires now) db t := by
  induction fuel generalizing db work with
  | zero =>
      obtain ⟨_, rfl⟩ := Tx.pure_ok.mp h
      exact .refl _ _
  | succ fuel ih =>
      unfold expiryLoop at h
      split at h
      · obtain ⟨_, rfl⟩ := Tx.pure_ok.mp h
        exact .refl _ _
      simp only [Tx.bind_ok, Tx.query_ok] at h
      obtain ⟨due, _, ⟨hdue, rfl⟩, h⟩ := h
      split at h
      · obtain ⟨_, rfl⟩ := Tx.pure_ok.mp h
        exact .refl _ _
      rename_i r
      simp only [Tx.bind_ok, Tx.query_ok] at h
      obtain ⟨_, _, ⟨rfl, rfl⟩, h⟩ := h
      split at h
      · obtain ⟨_, rfl⟩ := Tx.pure_ok.mp h
        exact .refl _ _
      obtain ⟨_, u, hrecord, h⟩ := Tx.bind_ok.mp h
      obtain ⟨hr, hdue⟩ := Table.mem_select.mp (List.mem_of_mem_head? hdue)
      obtain ⟨hadmits, hnotice, rfl⟩ := (recordTransition_ok hr).mp hrecord
      have hexpire : Commits crates (Entry.Expires now) db
          ((Entry.transition r (requestExpiryId r.requestId r.revision) .expired none now).apply
            crates db) :=
        .one ⟨r, hdue, rfl⟩ ⟨hr, allowedTransition_expired hdue.2, hadmits, hnotice⟩
      exact hexpire.trans (ih h)

theorem Db.mem_setNotice {db : Db} {id : String} {a : RequestNotification}
    {f : RequestNotification → RequestNotification} {hf : ∀ n, (f n).key = n.key} :
    a ∈ (db.setNotice id f hf).requestNotifications ↔
      ∃ n ∈ db.requestNotifications,
        (if n.notificationId = id ∧ n.state = .pending then f n else n) = a := by
  show a ∈ db.requestNotifications.update _ f hf ↔ _
  exact Table.mem_update

/-- Writing to one notification leaves the others ready. -/
theorem Db.Ready.setNotice {db : Db} {m : RequestNotification} (h : db.Ready m) {id : String}
    (hne : m.notificationId ≠ id) {f : RequestNotification → RequestNotification}
    {hf : ∀ n, (f n).key = n.key} : (db.setNotice id f hf).Ready m := by
  refine ⟨?_, h.pending, h.unlinked, ?_⟩
  · exact Db.mem_setNotice.mpr ⟨m, h.mem, if_neg fun hm => hne hm.1⟩
  · rintro ⟨earlier, hearlier, hrequest, hrevision, hpending⟩
    obtain ⟨n, hn, rfl⟩ := Db.mem_setNotice.mp hearlier
    have hkey : (if n.notificationId = id ∧ n.state = .pending then f n else n).key = n.key := by
      split
      · exact hf n
      · rfl
    simp only [RequestNotification.key, NoticeKey.mk.injEq] at hkey
    obtain ⟨_, hkrequest, _, hkrevision, _⟩ := hkey
    rw [hkrequest] at hrequest
    rw [hkrevision] at hrevision
    split at hpending
    · rename_i hmatch
      exact h.first ⟨n, hn, hrequest, hrevision, hmatch.2⟩
    · exact h.first ⟨n, hn, hrequest, hrevision, hpending⟩

/-- What one candidate of the batch did: nothing while its binding is paused, else one entry.
The other candidates stay ready. -/
theorem transferOne_ok {crates : Crates} {uuids : Nat → Uuid} {i : Nat} {now : Rat}
    {batch : List RequestNotification} {n : RequestNotification} {work : Nat} {db t : Db}
    (hn : n ∈ batch) (hready : db.Ready n)
    (h : (transferOne (uuids i) now n).run db = (.ok work, t)) :
    Commits crates (Entry.Transfers uuids now batch) db t ∧
      ∀ m, db.Ready m → m.notificationId ≠ n.notificationId → t.Ready m := by
  simp only [transferOne, Tx.bind_ok, Tx.query_ok] at h
  obtain ⟨target, _, ⟨htarget, rfl⟩, h⟩ := h
  have hfail : ∀ error, db.Undeliverable n →
      Commits crates (Entry.Transfers uuids now batch) db
          (db.failNotice n.notificationId error now) ∧
        ∀ m, db.Ready m → m.notificationId ≠ n.notificationId →
          (db.failNotice n.notificationId error now).Ready m := by
    intro error hgone
    refine ⟨?_, fun m hm hne => hm.setNotice hne⟩
    exact .one (k := .failNotice n error now) ⟨n, hn, Or.inl ⟨error, rfl⟩⟩ ⟨hready, hgone⟩
  split at h
  · simp only [Tx.bind_ok, Tx.write_ok, Tx.pure_ok] at h
    obtain ⟨_, _, rfl, _, rfl⟩ := h
    exact hfail _ (Or.inl (Table.find?_none.mp htarget))
  rename_i b
  obtain ⟨hb, hname⟩ := Table.find?_some htarget
  split at h
  · rename_i hremoved
    simp only [Tx.bind_ok, Tx.write_ok, Tx.pure_ok] at h
    obtain ⟨_, _, rfl, _, rfl⟩ := h
    exact hfail _ (Or.inr ⟨b, hb, hname, Or.inl hremoved⟩)
  rename_i hkept
  split at h
  · obtain ⟨_, rfl⟩ := Tx.pure_ok.mp h
    exact ⟨.refl _ _, fun m hm _ => hm⟩
  rename_i hon
  simp only [Tx.bind_ok, Tx.query_ok, Tx.expect_ok] at h
  obtain ⟨row, _, ⟨hrow, rfl⟩, r, _, ⟨rfl, rfl⟩, h⟩ := h
  obtain ⟨hr, hrid⟩ := Table.find?_some hrow
  split at h
  · rename_i hmoved
    simp only [Tx.bind_ok, Tx.write_ok, Tx.pure_ok] at h
    obtain ⟨_, _, rfl, _, rfl⟩ := h
    refine hfail _ (Or.inr ⟨b, hb, hname, Or.inr ?_⟩)
    rcases hmoved with hsource | hthread
    · exact Or.inl hsource
    · exact Or.inr ⟨r, hr, hrid, hthread⟩
  rename_i hstill
  have haccepts : db.Accepts n.originalBinding n.source b :=
    ⟨hb, hname, Bool.eq_true_of_not_eq_false hon, Bool.eq_false_of_not_eq_true hkept,
      Decidable.of_not_not fun hsource => hstill (Or.inl hsource)⟩
  simp only [Tx.bind_ok, Tx.query_ok] at h
  obtain ⟨existing, _, ⟨hexisting, rfl⟩, h⟩ := h
  split at h
  · rename_i e
    simp only [Tx.bind_ok, Tx.write_ok, Tx.pure_ok] at h
    obtain ⟨_, _, rfl, _, rfl⟩ := h
    obtain ⟨he, hbinding, hsource, heventId⟩ := Table.find?_some hexisting
    refine ⟨?_, fun m hm hne => hm.setNotice hne⟩
    exact .one (k := .link n e now) ⟨n, hn, Or.inr (Or.inl ⟨e, rfl⟩)⟩
      ⟨hready, ⟨b, haccepts⟩, he, hbinding, hsource, heventId⟩
  simp only [Tx.bind_ok, Tx.query_ok] at h
  obtain ⟨_, _, ⟨rfl, rfl⟩, _, _, ⟨rfl, rfl⟩, h⟩ := h
  split at h
  · simp only [Tx.bind_ok, Tx.write_ok, Tx.pure_ok] at h
    obtain ⟨_, _, rfl, _, rfl⟩ := h
    refine ⟨?_, fun m hm hne => hm.setNotice hne⟩
    exact .one (k := .postpone n now) ⟨n, hn, Or.inr (Or.inr (Or.inl rfl))⟩ hready
  · rename_i hroom
    simp only [Tx.bind_ok, insertEvent_ok, Tx.write_ok, Tx.pure_ok] at h
    obtain ⟨_, _, ⟨hadmits, rfl⟩, _, _, rfl, _, rfl⟩ := h
    have hopen : db.openEvents n.originalBinding < maxPending :=
      Nat.lt_of_not_le fun hfull => hroom (Or.inl hfull)
    have hrecent : db.recentEvents n.originalBinding now < rateLimit :=
      Nat.lt_of_not_le fun hfull => hroom (Or.inr hfull)
    have htrace : ∃ n < traceLimit, db.traceEvents crates none = some n :=
      ⟨0, Nat.succ_pos 15, rfl⟩
    refine ⟨?_, fun m hm hne => ?_⟩
    · exact .one (k := .deliver n (newEvent db.nextEventSeq (uuids i) n.originalBinding n.source
          n.eventId n.envelope .pending now n.attempts) now)
        ⟨n, hn, Or.inr (Or.inr (Or.inr ⟨_, i, rfl, rfl⟩))⟩
        ⟨hready, ⟨b, haccepts⟩, ⟨hadmits, rfl, uuids i, rfl, rfl⟩, rfl, rfl, rfl, rfl, rfl, rfl,
          rfl, hopen, hrecent, htrace⟩
    · have hstored : ((Entry.store (newEvent db.nextEventSeq (uuids i) n.originalBinding n.source
          n.eventId n.envelope .pending now n.attempts)).apply crates db).Ready m :=
        ⟨hm.mem, hm.pending, hm.unlinked, hm.first⟩
      exact hstored.setNotice hne

/-- The loop over a batch of ready notifications with distinct ids. -/
theorem transferLoop_commits {crates : Crates} {limit : Nat} {uuids : Nat → Uuid} {now : Rat}
    {all batch : List RequestNotification} {i work done : Nat} {db t : Db}
    (hall : ∀ n ∈ batch, n ∈ all) (hready : ∀ n ∈ batch, db.Ready n)
    (hdistinct : batch.Pairwise fun a b => a.notificationId ≠ b.notificationId)
    (h : (transferLoop uuids now limit batch i work).run db = (.ok done, t)) :
    Commits crates (Entry.Transfers uuids now all) db t := by
  induction batch generalizing db i work with
  | nil =>
      obtain ⟨_, rfl⟩ := Tx.pure_ok.mp h
      exact .refl _ _
  | cons n rest ih =>
      unfold transferLoop at h
      split at h
      · obtain ⟨_, rfl⟩ := Tx.pure_ok.mp h
        exact .refl _ _
      obtain ⟨hhead, htail⟩ := List.pairwise_cons.mp hdistinct
      obtain ⟨_, u, hone, hrest⟩ := Tx.bind_ok.mp h
      obtain ⟨hcommits, hothers⟩ :=
        transferOne_ok (hall n List.mem_cons_self) (hready n List.mem_cons_self) hone
      refine hcommits.trans
        (ih (fun m hm => hall m (List.mem_cons_of_mem _ hm)) (fun m hm => ?_) htail hrest)
      exact hothers m (hready m (List.mem_cons_of_mem _ hm)) (hhead m hm).symm

/-- The batch the transfer loop starts from. -/
theorem candidates_ready {db : Db} {now : Rat} {limit work : Nat} :
    (∀ n ∈ db.candidates now limit work, db.Ready n) ∧
      (db.candidates now limit work).Pairwise fun a b =>
        a.notificationId ≠ b.notificationId := by
  unfold Db.candidates
  constructor
  · intro n hn
    obtain ⟨hmem, hpending, hunlinked, _, _, hfirst⟩ :=
      Table.mem_select.mp (List.mem_of_mem_take hn)
    exact ⟨hmem, hpending, hunlinked, hfirst⟩
  · have hrows : db.requestNotifications.rows.Pairwise fun a b =>
        a.notificationId ≠ b.notificationId := db.requestNotifications.fits.imp fun h => h.1
    exact (Table.select_pairwise Ne.symm hrows).sublist (List.take_sublist _ _)

/-- A run of maintenance expires requests and then transfers candidates of the database in
between. -/
theorem requestMaintenance_phases {crates : Crates} {limit : Nat} {uuids : Nat → Uuid}
    {now : Rat} {done : Nat} {db t : Db}
    (h : (requestMaintenance crates limit uuids now).run db = (.ok done, t)) :
    ∃ d work, Commits crates (Entry.Expires now) db d ∧
      Commits crates (Entry.Transfers uuids now (d.candidates now limit work)) d t := by
  simp only [requestMaintenance, Tx.bind_ok, bailIf_run_ok, Tx.query_ok] at h
  obtain ⟨_, _, ⟨_, rfl⟩, _, _, ⟨rfl, rfl⟩, h⟩ := h
  split at h
  · obtain ⟨_, rfl⟩ := Tx.pure_ok.mp h
    exact ⟨db, 0, .refl _ _, .refl _ _⟩
  obtain ⟨work, d, hexpiry, h⟩ := Tx.bind_ok.mp (Tx.atomically_ok.mp h)
  refine ⟨d, work, expiryLoop_commits hexpiry, ?_⟩
  split at h
  · obtain ⟨_, rfl⟩ := Tx.pure_ok.mp h
    exact .refl _ _
  · simp only [Tx.bind_ok, Tx.query_ok] at h
    obtain ⟨_, _, ⟨rfl, rfl⟩, h⟩ := h
    exact transferLoop_commits (fun _ hn => hn) candidates_ready.1 candidates_ready.2 h

theorem requestMaintenance_commits {crates : Crates} {limit : Nat} {uuids : Nat → Uuid}
    {now : Rat} {done : Nat} {db t : Db}
    (h : (requestMaintenance crates limit uuids now).run db = (.ok done, t)) :
    (Op.requestMaintenance limit uuids now).Commits crates db t := by
  obtain ⟨d, work, hexpiry, htransfer⟩ := requestMaintenance_phases h
  refine (hexpiry.mono ?_).trans (htransfer.mono ?_)
  · rintro k ⟨r, hdue, rfl⟩
    exact .expiry hdue
  · rintro k ⟨n, _, ⟨error, rfl⟩ | ⟨e, rfl⟩ | rfl | ⟨e, i, hid, rfl⟩⟩
    · exact .failNotice
    · exact .link
    · exact .postpone
    · exact .deliver i hid

end CodexMonitor
