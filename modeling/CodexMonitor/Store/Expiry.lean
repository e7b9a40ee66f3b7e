import CodexMonitor.Store.Transfer

/-!
# Expiry makes progress, unless an update id is taken

The expiry loop writes its transitions into the same table as client updates, under
an update id of its own that a client may have used before.  Nothing else can refuse
a round: the outbox row of the next revision is always free, and the room in the
outbox is checked first.  So a run of maintenance succeeds exactly when none of the
requests it expires has an update under its own expiry id.
-/

namespace CodexMonitor

open Transaction

/-- No update of the request has the id under which it would expire. -/
def Db.ExpiryFree (db : Db) (r : Request) : Prop :=
  ∀ u ∈ db.requestUpdates.rows,
    ¬ (u.requestId = r.requestId ∧ u.updateId = requestExpiryId r.requestId r.revision)

instance (db : Db) (r : Request) : Decidable (db.ExpiryFree r) :=
  inferInstanceAs (Decidable (∀ u ∈ db.requestUpdates.rows, _))

/-- The requests a maintenance run expires: the first due ones, as many as the limit and the
outbox have room for. -/
def Db.expiring (db : Db) (limit : Nat) (now : Rat) : List Request :=
  (db.dueRequests now).take (min limit (maxRequestNotifications - db.pendingNotices))

section expiry

variable {crates : Crates} {db : Db} {now : Rat}

/-- Requests stand in the table in `seq` order. -/
theorem Db.dueRequests_eq (db : Db) (now : Rat) :
    db.dueRequests now = db.requests.rows.filter (Request.Due now) := by
  refine Table.select_of_pairwise (db.requests.fits.imp fun h => ?_)
  exact Nat.le_of_lt h.1

/-- The entry that expires a request. -/
def Request.expiry (r : Request) (now : Rat) : Entry :=
  .transition r (requestExpiryId r.requestId r.revision) .expired none now

/-- The outbox row of the next revision of a request is always free. -/
theorem Db.Lineage.admits_next (hdb : db.Lineage crates) {r : Request} (hr : r ∈ db.requests)
    (updateId : String) (state : RequestState) (detail : Option String) :
    db.requestNotifications.Admits
      (newNotification crates r updateId (r.revision + 1) state detail now) := by
  intro n hn
  obtain ⟨q, hq, hof⟩ := hdb.notice_of n hn
  obtain ⟨u, hu⟩ := hdb.request_named q hq
  obtain ⟨v, hv⟩ := hdb.request_named r hr
  have hnonneg := hdb.request_nonneg r hr
  have hother : ¬ (n.requestId = r.requestId ∧ n.revision = r.revision + 1) := by
    rintro ⟨hid, hrevision⟩
    have hle := (hdb.request_of_notice hn hr hid).revision_le
    omega
  refine ⟨fun hid => hother ?_, hother⟩
  have hid : requestNotificationId u.text n.revision =
      requestNotificationId v.text (r.revision + 1) := by
    rw [← hu, ← hv, ← hof.notificationId_eq]
    exact hid
  obtain ⟨htext, hrevision⟩ := requestNotificationId_inj
    (le_trans Int.one_nonneg hof.revision_pos) (by omega) hid
  refine ⟨?_, hrevision⟩
  rw [hof.requestId_eq, hu, htext, hv]

/-- The history row of a new update id is always admitted. -/
theorem admits_transitionRow {r : Request} {updateId : String} {state : RequestState}
    {detail : Option String} :
    db.requestUpdates.Admits (transitionRow db r updateId state detail now) ↔
      ∀ u ∈ db.requestUpdates.rows, ¬ (u.requestId = r.requestId ∧ u.updateId = updateId) := by
  constructor
  · intro h u hu
    exact (h u hu).2
  · intro h u hu
    have hseq : u.seq < db.nextUpdateSeq := Table.lt_nextSeq hu
    exact ⟨hseq, h u hu⟩

/-- With room in the outbox a due request expires exactly when its expiry id is free. -/
theorem expiry_ok_iff (hdb : db.Lineage crates) {r : Request} (hr : r ∈ db.requests)
    (hroom : db.pendingNotices < maxRequestNotifications) {t : Db} :
    (recordTransition crates r (requestExpiryId r.requestId r.revision) r.revision .expired none
        now).run db = (.ok (), t) ↔
      db.ExpiryFree r ∧ t = (r.expiry now).apply crates db := by
  rw [recordTransition_ok hr, admits_transitionRow]
  constructor
  · rintro ⟨hfree, _, rfl⟩
    exact ⟨hfree, rfl⟩
  · rintro ⟨hfree, rfl⟩
    exact ⟨hfree, fun _ => ⟨hroom, hdb.admits_next hr _ _ _⟩, rfl⟩

theorem expiry_enabled (hdb : db.Lineage crates) {r : Request} (hr : r ∈ db.requests)
    (hdue : r.Due now) (hroom : db.pendingNotices < maxRequestNotifications)
    (hfree : db.ExpiryFree r) : (r.expiry now).Enabled crates db :=
  ⟨hr, allowedTransition_expired hdue.2, admits_transitionRow.mpr hfree,
    fun _ => ⟨hroom, hdb.admits_next hr _ _ _⟩⟩

/-! ## One round -/

/-- Rewriting one row takes it out of a filtered list. -/
theorem filter_map_dropped (id : String) {rows : List Request} {f : Request → Request}
    {p : Request → Bool} (hdrop : ∀ q ∈ rows, q.requestId = id → p (f q) = false)
    (hkeep : ∀ q ∈ rows, q.requestId ≠ id → f q = q) :
    (rows.map f).filter p = (rows.filter p).filter fun q => q.requestId ≠ id := by
  induction rows with
  | nil => rfl
  | cons q rows ih =>
      have ih := ih (fun a ha => hdrop a (List.mem_cons_of_mem _ ha))
        (fun a ha => hkeep a (List.mem_cons_of_mem _ ha))
      by_cases hid : q.requestId = id
      · have hq := hdrop q List.mem_cons_self hid
        rw [List.map_cons, List.filter_cons_of_neg (by simp [hq]), ih]
        by_cases hp : p q = true
        · rw [List.filter_cons_of_pos hp, List.filter_cons_of_neg (by simp [hid])]
        · rw [List.filter_cons_of_neg hp]
      · have hq := hkeep q List.mem_cons_self hid
        rw [List.map_cons, hq]
        by_cases hp : p q = true
        · rw [List.filter_cons_of_pos hp, List.filter_cons_of_pos hp,
            List.filter_cons_of_pos (by simp [hid]), ih]
        · rw [List.filter_cons_of_neg hp, List.filter_cons_of_neg hp, ih]

/-- Expiring the first due request leaves the rest of them due. -/
theorem dueRequests_expired {r : Request} {rest : List Request}
    (hdue : db.dueRequests now = r :: rest) (h : (r.expiry now).Enabled crates db) :
    ((r.expiry now).apply crates db).dueRequests now = rest := by
  have hfits : (db.dueRequests now).Pairwise fun a b => a.requestId ≠ b.requestId := by
    rw [Db.dueRequests_eq]
    exact (db.requests.fits.imp fun hfit => hfit.2.1).filter _
  rw [hdue] at hfits
  have hrest : ∀ q ∈ rest, q.requestId ≠ r.requestId := fun q hq heq =>
    (List.pairwise_cons.mp hfits).1 q hq heq.symm
  rw [Db.dueRequests_eq, Entry.rows_requests h]
  have hrows : db.requests.rows.map (r.expiry now).onRequest ++
      ((r.expiry now).newRequest?).toList = db.requests.rows.map (r.expiry now).onRequest :=
    List.append_nil _
  rw [hrows, filter_map_dropped r.requestId ?_ ?_, ← Db.dueRequests_eq, hdue,
    List.filter_cons_of_neg (by simp)]
  · rw [List.filter_eq_self]
    intro q hq
    simpa using hrest q hq
  · intro q hq hid
    obtain rfl := Request.eq_of_id hq h.1 hid
    have hexpired : ((q.expiry now).onRequest q).state = .expired := by
      simp [Request.expiry, Entry.onRequest]
    simp [Request.Due, hexpired, RequestState.isTerminal]
  · intro q _ hid
    simp [Request.expiry, Entry.onRequest, hid]

/-- An expiry puts one notification into the outbox. -/
theorem pendingNotices_expired {r : Request} (h : (r.expiry now).Enabled crates db) :
    ((r.expiry now).apply crates db).pendingNotices = db.pendingNotices + 1 := by
  have hrows : ((r.expiry now).apply crates db).requestNotifications.rows =
      db.requestNotifications.rows ++ [expiryNotice crates now r] := by
    rw [Entry.rows_notices h]
    exact congrArg (· ++ _) (List.map_id _)
  unfold Db.pendingNotices Table.count
  rw [hrows, List.countP_append]
  rfl

/-- An expiry writes no history for other requests. -/
theorem expiryFree_expired {r q : Request} (h : (r.expiry now).Enabled crates db)
    (hne : q.requestId ≠ r.requestId) :
    ((r.expiry now).apply crates db).ExpiryFree q ↔ db.ExpiryFree q := by
  have hrows := Entry.rows_updates h
  unfold Db.ExpiryFree
  rw [hrows]
  constructor
  · intro hfree u hu
    exact hfree u (List.mem_append_left _ hu)
  · intro hfree u hu
    rcases List.mem_append.mp hu with hold | hnew
    · exact hfree u hold
    · obtain rfl := List.mem_singleton.mp hnew
      rintro ⟨hid, _⟩
      exact hne hid.symm

/-- An expired request stays expired. -/
theorem Entry.expired_kept {k : Entry} {id : String} (h : k.Enabled crates db)
    (hexpired : ∃ q ∈ db.requests, q.requestId = id ∧ q.state = .expired) :
    ∃ q ∈ (k.apply crates db).requests, q.requestId = id ∧ q.state = .expired := by
  obtain ⟨q, hq, hid, hstate⟩ := hexpired
  refine ⟨k.onRequest q, (Entry.mem_requests h).mpr (Or.inl ⟨q, hq, rfl⟩),
    (Request.identity_eq (k.onRequest_identity q)).2.1.trans hid, ?_⟩
  cases k with
  | transition r updateId state detail now =>
      simp only [Entry.onRequest]
      split
      · rename_i hmatch
        obtain rfl := Request.eq_of_id hq h.1 hmatch.1
        have hallowed := h.2.1
        rw [hstate] at hallowed
        cases hallowed
      · exact hstate
  | _ => exact hstate

/-! ## The loop -/

/-- A round that finds nothing to do, or no room for it, ends the loop. -/
theorem expiryLoop_stop {limit fuel work : Nat} (hwork : work < limit)
    (h : db.dueRequests now = [] ∨ maxRequestNotifications ≤ db.pendingNotices) :
    (expiryLoop crates now limit (fuel + 1) work).run db = (.ok work, db) := by
  unfold expiryLoop
  rw [if_neg (Nat.not_le.mpr hwork), Tx.run_query_bind]
  cases hdue : (db.dueRequests now).head? with
  | none => exact Tx.run_pure _ _
  | some r =>
      have hfull : maxRequestNotifications ≤ db.pendingNotices := by
        rcases h with hnone | hfull
        · rw [hnone] at hdue
          cases hdue
        · exact hfull
      simp only
      rw [Tx.run_query_bind, if_pos hfull]
      exact Tx.run_pure _ _

/-- A round that finds a due request and room goes on exactly when its expiry id is free. -/
theorem expiryLoop_round (hdb : db.Lineage crates) {limit fuel work done : Nat} {t : Db}
    (hwork : work < limit) {r : Request} {rest : List Request}
    (hdue : db.dueRequests now = r :: rest)
    (hroom : db.pendingNotices < maxRequestNotifications) :
    (expiryLoop crates now limit (fuel + 1) work).run db = (.ok done, t) ↔
      db.ExpiryFree r ∧ (expiryLoop crates now limit fuel (work + 1)).run
        ((r.expiry now).apply crates db) = (.ok done, t) := by
  have hr : r ∈ db.requests ∧ r.Due now :=
    Db.mem_dueRequests.mp (hdue ▸ List.mem_cons_self)
  conv_lhs => unfold expiryLoop
  rw [if_neg (Nat.not_le.mpr hwork), Tx.run_query_bind, hdue]
  simp only [List.head?_cons]
  rw [Tx.run_query_bind, if_neg (Nat.not_le.mpr hroom), Tx.bind_ok]
  constructor
  · rintro ⟨_, u, hrecord, h⟩
    obtain ⟨hfree, rfl⟩ := (expiry_ok_iff hdb hr.1 hroom).mp hrecord
    exact ⟨hfree, h⟩
  · rintro ⟨hfree, h⟩
    exact ⟨(), _, (expiry_ok_iff hdb hr.1 hroom).mpr ⟨hfree, rfl⟩, h⟩

theorem expiring_cons {limit : Nat} {r : Request} {rest : List Request}
    (hdue : db.dueRequests now = r :: rest)
    (hroom : db.pendingNotices < maxRequestNotifications)
    (h : (r.expiry now).Enabled crates db) :
    db.expiring (limit + 1) now = r :: ((r.expiry now).apply crates db).expiring limit now := by
  unfold Db.expiring
  rw [dueRequests_expired hdue h, pendingNotices_expired h, hdue]
  have hcount : min (limit + 1) (maxRequestNotifications - db.pendingNotices) =
      min limit (maxRequestNotifications - (db.pendingNotices + 1)) + 1 := by
    omega
  rw [hcount, List.take_succ_cons]

theorem expiring_eq_nil {limit : Nat}
    (h : db.dueRequests now = [] ∨ maxRequestNotifications ≤ db.pendingNotices) :
    db.expiring limit now = [] := by
  unfold Db.expiring
  rcases h with hnone | hfull
  · rw [hnone, List.take_nil]
  · rw [Nat.sub_eq_zero_of_le hfull, Nat.min_zero, List.take_zero]

/-- The loop succeeds exactly when the requests it expires have free expiry ids. -/
theorem expiryLoop_ok_iff (hdb : db.Lineage crates) {limit fuel work : Nat}
    (hwork : fuel + work = limit) :
    (∃ done t, (expiryLoop crates now limit fuel work).run db = (.ok done, t)) ↔
      ∀ r ∈ db.expiring fuel now, db.ExpiryFree r := by
  induction fuel generalizing db work with
  | zero =>
      constructor
      · intro _ r hr
        simp [Db.expiring] at hr
      · exact fun _ => ⟨work, db, Tx.pure_ok.mpr ⟨rfl, rfl⟩⟩
  | succ fuel ih =>
      have hlimit : work < limit := by omega
      by_cases hstop : db.dueRequests now = [] ∨ maxRequestNotifications ≤ db.pendingNotices
      · rw [expiring_eq_nil hstop]
        exact ⟨fun _ _ hr => (List.not_mem_nil hr).elim,
          fun _ => ⟨_, _, expiryLoop_stop hlimit hstop⟩⟩
      obtain ⟨hsome, hroom⟩ := not_or.mp hstop
      have hroom := Nat.lt_of_not_le hroom
      obtain ⟨r, rest, hdue⟩ := List.exists_cons_of_ne_nil hsome
      have hr : r ∈ db.requests ∧ r.Due now :=
        Db.mem_dueRequests.mp (hdue ▸ List.mem_cons_self)
      by_cases hfree : db.ExpiryFree r
      · have hk := expiry_enabled hdb hr.1 hr.2 hroom hfree
        have ih := @ih ((r.expiry now).apply crates db) (hdb.apply hk) (work + 1) (by omega)
        rw [expiring_cons hdue hroom hk]
        simp only [expiryLoop_round hdb hlimit hdue hroom, hfree, true_and, ih]
        have hothers : ∀ q ∈ ((r.expiry now).apply crates db).expiring fuel now,
            q.requestId ≠ r.requestId := by
          intro q hq heq
          have hmem := List.mem_of_mem_take hq
          obtain ⟨hq', hqdue⟩ := Db.mem_dueRequests.mp hmem
          obtain ⟨p, hp, hpid, hexpired⟩ : ∃ p ∈ ((r.expiry now).apply crates db).requests,
              p.requestId = r.requestId ∧ p.state = .expired := by
            refine ⟨_, (Entry.mem_requests hk).mpr (Or.inl ⟨r, hr.1, rfl⟩), ?_, ?_⟩
            · exact (Request.identity_eq (Entry.onRequest_identity _ r)).2.1
            · simp [Request.expiry, Entry.onRequest]
          obtain rfl := Request.eq_of_id hq' hp (heq.trans hpid.symm)
          have hopen := hqdue.2
          rw [hexpired] at hopen
          cases hopen
        constructor
        · intro h q hq
          rcases List.mem_cons.mp hq with rfl | hq
          · exact hfree
          · exact (expiryFree_expired hk (hothers q hq)).mp (h q hq)
        · intro h q hq
          exact (expiryFree_expired hk (hothers q hq)).mpr (h q (List.mem_cons_of_mem _ hq))
      · constructor
        · rintro ⟨done, t, h⟩
          exact absurd ((expiryLoop_round hdb hlimit hdue hroom).mp h).1 hfree
        · intro h
          refine absurd (h r ?_) hfree
          unfold Db.expiring
          rw [hdue]
          have hcount : min (fuel + 1) (maxRequestNotifications - db.pendingNotices) =
              min fuel (maxRequestNotifications - db.pendingNotices - 1) + 1 := by
            omega
          rw [hcount, List.take_succ_cons]
          exact List.mem_cons_self

/-- What the loop was to expire is expired when it succeeds. -/
theorem expiryLoop_expires (hdb : db.Lineage crates) {limit fuel work done : Nat} {t : Db}
    (hwork : fuel + work = limit)
    (h : (expiryLoop crates now limit fuel work).run db = (.ok done, t)) :
    ∀ r ∈ db.expiring fuel now,
      ∃ q ∈ t.requests, q.requestId = r.requestId ∧ q.state = .expired := by
  induction fuel generalizing db work with
  | zero =>
      intro r hr
      simp [Db.expiring] at hr
  | succ fuel ih =>
      have hlimit : work < limit := by omega
      by_cases hstop : db.dueRequests now = [] ∨ maxRequestNotifications ≤ db.pendingNotices
      · rw [expiring_eq_nil hstop]
        exact fun _ hr => (List.not_mem_nil hr).elim
      obtain ⟨hsome, hroom⟩ := not_or.mp hstop
      have hroom := Nat.lt_of_not_le hroom
      obtain ⟨r, rest, hdue⟩ := List.exists_cons_of_ne_nil hsome
      have hr : r ∈ db.requests ∧ r.Due now :=
        Db.mem_dueRequests.mp (hdue ▸ List.mem_cons_self)
      obtain ⟨hfree, hrest⟩ := (expiryLoop_round hdb hlimit hdue hroom).mp h
      have hk := expiry_enabled hdb hr.1 hr.2 hroom hfree
      rw [expiring_cons hdue hroom hk]
      intro q hq
      rcases List.mem_cons.mp hq with rfl | hq
      · refine (expiryLoop_commits hrest).invariant (P := fun d => ∃ p ∈ d.requests,
          p.requestId = q.requestId ∧ p.state = .expired)
          (fun k _ d hd => Entry.expired_kept hd) ?_
        refine ⟨_, (Entry.mem_requests hk).mpr (Or.inl ⟨q, hr.1, rfl⟩), ?_, ?_⟩
        · exact (Request.identity_eq (Entry.onRequest_identity _ q)).2.1
        · simp [Request.expiry, Entry.onRequest]
      · exact ih (hdb.apply hk) (by omega) hrest q hq

end expiry

/-! ## The transfer cannot fail -/

section transfer

variable {crates : Crates} {db : Db} {now : Rat}

/-- An event under a fresh identifier, where no event stands yet, is admitted. -/
theorem Db.Lineage.admits_newEvent (hdb : db.Lineage crates) {uuid : Uuid}
    (hfresh : ∀ e ∈ db.events, e.id ≠ uuid.text) {binding source eventId : String}
    (hnone : db.eventAt binding source eventId = none) (envelope : String) (state : EventState)
    (now : Rat) (attempts : Int) :
    db.events.Admits
      (newEvent db.nextEventSeq uuid binding source eventId envelope state now attempts) := by
  intro e he
  have hseq : e.seq < db.nextEventSeq := Table.lt_nextSeq he
  have hid := hfresh e he
  refine ⟨hseq, hid, ?_, Table.find?_none.mp hnone e he⟩
  intro hclient
  obtain ⟨u, hu, huclient⟩ := hdb.event_named e he
  refine hid (hu.trans ?_)
  have htext : "codex-monitor:" ++ u.text = "codex-monitor:" ++ uuid.text :=
    huclient.symm.trans hclient
  have hlist := congrArg String.toList htext
  simp only [String.toList_append, List.append_cancel_left_eq] at hlist
  exact String.toList_inj.mp hlist

/-- A candidate whose route is not paused is always transferred, and it counts. -/
theorem transferOne_total (hdb : db.Lineage crates) {n : RequestNotification}
    (hready : db.Ready n) {uuid : Uuid}
    (hopen : ¬ db.bindings.Any fun b =>
      b.name = n.originalBinding ∧ b.enabled = false ∧ b.removed = false)
    (hfresh : ∀ e ∈ db.events, e.id ≠ uuid.text) :
    ∃ t, (transferOne uuid now n).run db = (.ok 1, t) := by
  obtain ⟨r, hr, hof⟩ := hdb.notice_of n hready.mem
  obtain ⟨b, hb, hname, hthread, hsource⟩ := hdb.request_routed r hr
  have hname : b.name = n.originalBinding := hname.trans hof.binding_eq.symm
  have htarget : (db.bindings.find? fun b => b.name = n.originalBinding) = some b :=
    Table.find?_eq_of_unique hb hname fun c hc hcname =>
      Binding.eq_of_name hc hb (hcname.trans hname.symm)
  have hrow : db.requestById n.requestId = some r :=
    Table.find?_eq_of_unique hr hof.requestId_eq.symm fun q hq hqid =>
      Request.eq_of_id hq hr (hqid.trans hof.requestId_eq)
  have hstill : ¬ (n.source ∉ b.sources ∨ r.thread ≠ b.thread) := by
    rintro (hmissing | hmoved)
    · rw [hof.source_eq] at hmissing
      exact hmissing hsource
    · exact hmoved hthread.symm
  unfold transferOne
  rw [Tx.run_query_bind, htarget]
  by_cases hremoved : b.removed = true
  · simp only [if_pos hremoved]
    exact ⟨_, rfl⟩
  have hon : ¬ b.enabled = false := fun hoff =>
    hopen ⟨b, hb, hname, hoff, Bool.eq_false_of_not_eq_true hremoved⟩
  simp only [if_neg hremoved, if_neg hon]
  rw [Tx.run_query_bind, hrow, Tx.run_expect_bind, if_neg hstill, Tx.run_query_bind]
  cases hexisting : db.eventAt n.originalBinding n.source n.eventId with
  | some e => exact ⟨_, rfl⟩
  | none =>
      simp only
      rw [Tx.run_query_bind, Tx.run_query_bind]
      split
      · exact ⟨_, rfl⟩
      · have hadmits := hdb.admits_newEvent hfresh hexisting n.envelope .pending now n.attempts
        rw [Tx.run_bind_of_ok (insertEvent_ok (u := ()).mpr ⟨hadmits, rfl⟩)]
        exact ⟨_, rfl⟩

/-- The loop over a batch of ready candidates succeeds: the `i`-th identifier is still fresh when
its turn comes, since every candidate before it counted. -/
theorem transferLoop_total {limit : Nat} {uuids : Nat → Uuid}
    (hinj : ∀ i < limit, ∀ j < limit, (uuids i).text = (uuids j).text → i = j)
    {batch : List RequestNotification} {i work : Nat} (hdb : db.Lineage crates)
    (hready : ∀ n ∈ batch, db.Ready n)
    (hdistinct : batch.Pairwise fun a b => a.notificationId ≠ b.notificationId)
    (hopen : ∀ n ∈ batch, ¬ db.bindings.Any fun b =>
      b.name = n.originalBinding ∧ b.enabled = false ∧ b.removed = false)
    (hfresh : ∀ j < limit, i ≤ j → ∀ e ∈ db.events, e.id ≠ (uuids j).text) (hcount : i ≤ work) :
    ∃ done t, (transferLoop uuids now limit batch i work).run db = (.ok done, t) := by
  induction batch generalizing db i work with
  | nil => exact ⟨work, db, rfl⟩
  | cons n rest ih =>
      unfold transferLoop
      split
      · exact ⟨work, db, rfl⟩
      rename_i hlimit
      have hi : i < limit := Nat.lt_of_le_of_lt hcount (Nat.lt_of_not_le hlimit)
      obtain ⟨hhead, htail⟩ := List.pairwise_cons.mp hdistinct
      obtain ⟨t, hone⟩ : ∃ t, (transferOne (uuids i) now n).run db = (.ok 1, t) :=
        transferOne_total hdb (hready n List.mem_cons_self) (hopen n List.mem_cons_self)
          (hfresh i hi (Nat.le_refl i))
      obtain ⟨hcommits, hothers⟩ : Commits crates (Entry.Transfers (fun _ => uuids i) now [n]) db t ∧
          ∀ m, db.Ready m → m.notificationId ≠ n.notificationId → t.Ready m :=
        @transferOne_ok crates (fun _ => uuids i) i now [n] n 1 db t List.mem_cons_self
          (hready n List.mem_cons_self) hone
      obtain ⟨hlineage, hbindings, hevents⟩ := hcommits.invariant (P := fun u =>
        u.Lineage crates ∧ u.bindings = db.bindings ∧
          ∀ e ∈ u.events, e ∈ db.events ∨ e.id = (uuids i).text) (by
        rintro k ⟨m, _, hk⟩ u henabled ⟨hl, hb, he⟩
        refine ⟨hl.apply henabled, ?_, ?_⟩
        · obtain ⟨error, rfl⟩ | ⟨e, rfl⟩ | rfl | ⟨e, j, _, rfl⟩ := hk
          all_goals exact hb
        · intro f hf
          rcases (Entry.mem_events henabled).mp hf with ⟨g, hg, rfl⟩ | hnew
          · obtain ⟨error, rfl⟩ | ⟨e, rfl⟩ | rfl | ⟨e, j, _, rfl⟩ := hk
            all_goals exact he g hg
          · obtain ⟨error, rfl⟩ | ⟨e, rfl⟩ | rfl | ⟨e, j, hid, rfl⟩ := hk
            · cases hnew
            · cases hnew
            · cases hnew
            · obtain rfl := Option.some.inj hnew
              exact Or.inr hid) ⟨hdb, rfl, fun e he => Or.inl he⟩
      rw [Tx.run_bind_of_ok hone]
      refine ih hlineage (fun m hm => ?_) htail (fun m hm => ?_) (fun j hj hij e he => ?_)
        (Nat.succ_le_succ hcount)
      · exact hothers m (hready m (List.mem_cons_of_mem _ hm)) (hhead m hm).symm
      · rw [hbindings]
        exact hopen m (List.mem_cons_of_mem _ hm)
      · rcases hevents e he with hold | hid
        · exact hfresh j hj (Nat.le_of_succ_le hij) e hold
        · rw [hid]
          intro htext
          have hsame := hinj i hi j hj htext
          omega

end transfer

/-! ## The whole run -/

section run

variable {crates : Crates} {db : Db} {limit : Nat} {uuids : Nat → Uuid} {now : Rat}

/-- A run of maintenance succeeds exactly when the requests it expires have free expiry ids. -/
theorem requestMaintenance_ok_iff (hdb : db.Lineage crates)
    (hlimit : 1 ≤ limit ∧ limit ≤ maxRequestMaintenance)
    (hinj : ∀ i < limit, ∀ j < limit, (uuids i).text = (uuids j).text → i = j)
    (hfresh : ∀ i < limit, ∀ e ∈ db.events, e.id ≠ (uuids i).text) :
    (∃ done t, (requestMaintenance crates limit uuids now).run db = (.ok done, t)) ↔
      ∀ r ∈ db.expiring limit now, db.ExpiryFree r := by
  have hloop : (∃ done t, (expiryLoop crates now limit limit 0).run db = (.ok done, t)) ↔
      ∀ r ∈ db.expiring limit now, db.ExpiryFree r :=
    expiryLoop_ok_iff hdb (Nat.add_zero limit)
  rw [← hloop]
  constructor
  · rintro ⟨done, t, h⟩
    simp only [requestMaintenance, Tx.bind_ok, bailIf_run_ok, Tx.query_ok] at h
    obtain ⟨_, _, ⟨_, rfl⟩, needed, _, ⟨hneeded, rfl⟩, h⟩ := h
    split at h
    · -- nothing is due, so the loop ends at once
      rename_i hidle
      rw [hidle] at hneeded
      have hnone : db.dueRequests now = [] :=
        Table.select_eq_nil.mpr fun r hr hdue =>
          of_decide_eq_false hneeded (Or.inl ⟨r, hr, hdue⟩)
      obtain ⟨fuel, rfl⟩ := Nat.exists_eq_add_of_le hlimit.1
      rw [Nat.add_comm]
      exact ⟨_, _, expiryLoop_stop (Nat.succ_pos fuel) (Or.inl hnone)⟩
    · obtain ⟨work, d, hexpiry, _⟩ := Tx.bind_ok.mp (Tx.atomically_ok.mp h)
      exact ⟨work, d, hexpiry⟩
  · rintro ⟨work, d, hexpiry⟩
    unfold requestMaintenance
    rw [Tx.run_bind_of_ok (bailIf_run_ok (u := ()).mpr ⟨not_not.mpr hlimit, rfl⟩),
      Tx.run_query_bind]
    split
    · exact ⟨0, db, rfl⟩
    have hexpiring : Expiring crates now db d :=
      ((expiryLoop_commits hexpiry).refine (V := fun _ => True) (by
        rintro k ⟨r, hdue, rfl⟩ c hk hc
        exact ⟨trivial, hc.expire hdue hk⟩) (.refl hdb)).2
    suffices hbody : ∃ done t, (maintenanceTx crates limit uuids now).run db = (.ok done, t) by
      obtain ⟨done, t, hbody⟩ := hbody
      exact ⟨done, t, Tx.atomically_ok.mpr hbody⟩
    unfold maintenanceTx
    rw [Tx.run_bind_of_ok hexpiry]
    split
    · exact ⟨work, d, rfl⟩
    rw [Tx.run_query_bind]
    refine transferLoop_total hinj hexpiring.lineage candidates_ready.1 candidates_ready.2 ?_ ?_
      (Nat.zero_le work)
    · intro n hn
      obtain ⟨_, _, _, _, hopen, _⟩ := Table.mem_select.mp (List.mem_of_mem_take hn)
      exact hopen
    · intro j hj _ e he
      rw [hexpiring.events_eq] at he
      exact hfresh j hj e he

/-- A run that succeeds has expired what the limit and the outbox have room for. -/
theorem requestMaintenance_expiring (hdb : db.Lineage crates) {done : Nat} {t : Db}
    (h : (requestMaintenance crates limit uuids now).run db = (.ok done, t)) :
    ∀ r ∈ db.expiring limit now, ∃ q ∈ t.requests, q.requestId = r.requestId ∧
      q.state = .expired := by
  intro r hexpiring
  simp only [requestMaintenance, Tx.bind_ok, bailIf_run_ok, Tx.query_ok] at h
  obtain ⟨_, _, ⟨_, rfl⟩, needed, _, ⟨hneeded, rfl⟩, h⟩ := h
  split at h
  · rename_i hidle
    rw [hidle] at hneeded
    obtain ⟨hmem, hdue⟩ := Db.mem_dueRequests.mp (List.mem_of_mem_take hexpiring)
    exact absurd (Or.inl ⟨r, hmem, hdue⟩) (of_decide_eq_false hneeded)
  obtain ⟨work, d, hexpiry, h⟩ := Tx.bind_ok.mp (Tx.atomically_ok.mp h)
  have hexpired := expiryLoop_expires hdb (Nat.add_zero limit) hexpiry r hexpiring
  split at h
  · obtain ⟨_, rfl⟩ := Tx.pure_ok.mp h
    exact hexpired
  · simp only [Tx.bind_ok, Tx.query_ok] at h
    obtain ⟨_, _, ⟨rfl, rfl⟩, h⟩ := h
    have hcommits : Commits crates (Entry.Transfers uuids now _) _ t :=
      transferLoop_commits (fun _ hn => hn) candidates_ready.1 candidates_ready.2 h
    exact hcommits.invariant (P := fun u => ∃ q ∈ u.requests,
      q.requestId = r.requestId ∧ q.state = .expired)
      (fun k _ u hk => Entry.expired_kept hk) hexpired

/-- With room in the outbox for all that is due, only the limit counts. -/
theorem expiring_of_room
    (hroom : db.pendingNotices + (db.dueRequests now).length ≤ maxRequestNotifications) :
    db.expiring limit now = (db.dueRequests now).take limit := by
  unfold Db.expiring
  by_cases hlimit : limit ≤ maxRequestNotifications - db.pendingNotices
  · rw [Nat.min_eq_left hlimit]
  · rw [List.take_of_length_le (by omega), List.take_of_length_le (by omega)]

/-- Within the limit and with room in the outbox everything due expires. -/
theorem requestMaintenance_expires (hdb : db.Lineage crates) {done : Nat} {t : Db}
    (h : (requestMaintenance crates limit uuids now).run db = (.ok done, t))
    (hcount : (db.dueRequests now).length ≤ limit)
    (hroom : db.pendingNotices + (db.dueRequests now).length ≤ maxRequestNotifications) :
    ∀ r ∈ db.dueRequests now, ∃ q ∈ t.requests, q.requestId = r.requestId ∧ q.state = .expired := by
  intro r hr
  refine requestMaintenance_expiring hdb h r ?_
  rw [expiring_of_room hroom, List.take_of_length_le hcount]
  exact hr

/-- The run succeeds, and within the limit and with room in the outbox everything due expires. -/
def Progresses (crates : Crates) (db : Db) (limit : Nat) (uuids : Nat → Uuid) (now : Rat) : Prop :=
  ∃ done t, (requestMaintenance crates limit uuids now).run db = (.ok done, t) ∧
    ((db.dueRequests now).length ≤ limit →
      db.pendingNotices + (db.dueRequests now).length ≤ maxRequestNotifications →
      ∀ r ∈ db.dueRequests now, ∃ q ∈ t.requests, q.requestId = r.requestId ∧ q.state = .expired)

/-- **Expiry makes progress** from a reachable database exactly when no request of the batch has
an update under its own expiry id.  New identifiers are distinct and fresh. -/
theorem expiry_progresses_iff (h : Reachable crates db)
    (hlimit : 1 ≤ limit ∧ limit ≤ maxRequestMaintenance)
    (hinj : ∀ i < limit, ∀ j < limit, (uuids i).text = (uuids j).text → i = j)
    (hfresh : ∀ i < limit, ∀ e ∈ db.events, e.id ≠ (uuids i).text) :
    Progresses crates db limit uuids now ↔ ∀ r ∈ db.expiring limit now, db.ExpiryFree r := by
  rw [← requestMaintenance_ok_iff h.lineage hlimit hinj hfresh]
  constructor
  · rintro ⟨done, t, hrun, _⟩
    exact ⟨done, t, hrun⟩
  · rintro ⟨done, t, hrun⟩
    exact ⟨done, t, hrun, requestMaintenance_expires h.lineage hrun⟩

end run

/-! ## An expiry id taken in advance -/

/-- A client acknowledges the request under the id its expiry at revision 1 would use. -/
def sampleTakenOps : List Op :=
  sampleOps ++
    [.requestCreate "conversation-1" "ci" "job-1" (sampleUuid 1).text (.object [])
      (some (.finite 50)) (sampleUuid 3) 12,
    .requestUpdate "conversation-1" "ci" "job-1" (requestExpiryId (sampleUuid 3).text 1)
      "acknowledged" none none 13]

/-- Maintenance fails once the request is due. -/
theorem expiry_progresses_fails :
    ¬ ∀ (crates : Crates) (db : Db), Reachable crates db → ∀ limit : Nat,
      1 ≤ limit ∧ limit ≤ maxRequestMaintenance → ∀ (uuids : Nat → Uuid) (now : Rat),
      (∀ i < limit, ∀ j < limit, (uuids i).text = (uuids j).text → i = j) →
      (∀ i < limit, ∀ e ∈ db.events.rows, e.id ≠ (uuids i).text) →
        Progresses crates db limit uuids now := by
  intro h
  obtain ⟨done, t, hrun, _⟩ := h sampleCrates _ (reachable_after sampleCrates sampleTakenOps) 1
    (by decide) (fun _ => sampleUuid 7) 60 (by omega) (by decide +kernel)
  have hfailed : ((requestMaintenance sampleCrates 1 (fun _ => sampleUuid 7) 60).run
      (Db.after sampleCrates sampleTakenOps)).1.isOk = false := by
    decide +kernel
  rw [hrun] at hfailed
  cases hfailed

/-- The sample's request expires when its update ids are ordinary. -/
theorem expiry_progresses_iff_sample :
    Progresses sampleCrates (Db.after sampleCrates sampleRequestOps) 1 (fun _ => sampleUuid 7)
      60 :=
  (expiry_progresses_iff (reachable_after _ _) (by decide) (by omega)
    (show ∀ i < 1, ∀ e ∈ (Db.after sampleCrates sampleRequestOps).events.rows,
      e.id ≠ (sampleUuid 7).text by decide +kernel)).mpr (by decide +kernel)

end CodexMonitor
