import CodexMonitor.Store.History

/-!
# Repeating and racing updates

An update call carries an id of the client's choice.  Once a call has succeeded,
its repetition is recognised for ever, whatever happened to the request since:
the history row that answers it is never changed, and it is looked up before the
revision, the transition and the capacity are checked.  Calls that name a revision
are compare-and-swaps of the request's cell, so at most one of them is applied.
-/

namespace CodexMonitor

open Transaction Versioned

/-- The arguments of an update that its checks accept. -/
structure ValidUpdate (thread source key updateId : String) (detail : Option String) : Prop where
  thread_ok : isIdentifier thread = true
  source_ok : isIdentifier source = true
  key_ok : isIdentifier key = true
  updateId_ok : isIdentifier updateId = true
  detail_ok : ∀ s : Db, (validateDetail detail).run s = (.ok (), s)

theorem validateDetail_ok {detail : Option String} {s t : Db}
    (h : (validateDetail detail).run s = (.ok (), t)) (u : Db) :
    (validateDetail detail).run u = (.ok (), u) := by
  cases detail with
  | none => exact Tx.pure_ok.mpr ⟨rfl, rfl⟩
  | some detail => exact validateText_ok.mpr ⟨(validateText_ok.mp h).1, rfl⟩

/-- A successful update had valid arguments and could answer with its request. -/
theorem requestUpdate_valid {crates : Crates} {thread source key updateId text : String}
    {expectedRevision : Option Int} {detail : Option String} {now : Rat} {db t : Db}
    {answer : UpdateAnswer}
    (h : (requestUpdate crates thread source key updateId text expectedRevision detail now).run db
      = (.ok answer, t)) :
    ValidUpdate thread source key updateId detail ∧
      ∃ r ∈ t.requests, requestValue crates r = .ok answer.value ∧
        ∃ q, db.requestAt thread source key = some q ∧ r.requestId = q.requestId := by
  simp only [requestUpdate, Tx.bind_ok, validateIdentifier_ok, Tx.expect_ok, bailIf_run_ok,
    withTx, Tx.atomically_ok, Tx.query_ok] at h
  obtain ⟨_, _, ⟨hthread, rfl⟩, _, _, ⟨hsource, rfl⟩, _, _, ⟨hkey, rfl⟩, _, _, ⟨hid, rfl⟩, state,
    _, ⟨_, rfl⟩, _, _, ⟨_, rfl⟩, _, _, hdetail, _, _, ⟨hrow, rfl⟩, q, _, ⟨rfl, rfl⟩, _,
    _, ⟨_, rfl⟩, h⟩ := h
  obtain rfl := (validateDetail_readOnly _).ok hdetail
  refine ⟨⟨hthread, hsource, hkey, hid, validateDetail_ok hdetail⟩, ?_⟩
  split at h
  · simp only [Tx.bind_ok, bailIf_run_ok, Tx.query_ok, Tx.expect_ok, Tx.ofExcept_ok,
      Tx.pure_ok] at h
    obtain ⟨_, _, ⟨_, rfl⟩, _, _, ⟨hfound, rfl⟩, r, _, ⟨rfl, rfl⟩, _, _, ⟨hvalue, rfl⟩, rfl,
      rfl⟩ := h
    obtain ⟨hr, hrid⟩ := Table.find?_some hfound
    exact ⟨r, hr, hvalue, q, hrow, hrid⟩
  · simp only [Tx.bind_ok, bailIf_run_ok, Tx.query_ok, Tx.expect_ok, Tx.ofExcept_ok,
      Tx.pure_ok] at h
    obtain ⟨_, _, ⟨_, rfl⟩, _, _, ⟨_, rfl⟩, _, _, ⟨_, rfl⟩, _, _, ⟨_, rfl⟩, _, _, _, _, _,
      ⟨hfound, rfl⟩, r, _, ⟨rfl, rfl⟩, _, _, ⟨hvalue, rfl⟩, rfl, rfl⟩ := h
    obtain ⟨hr, hrid⟩ := Table.find?_some hfound
    exact ⟨r, hr, hvalue, q, hrow, hrid⟩

/-- A call whose update is already recorded answers with the request as it stands. -/
theorem requestUpdate_repeated {crates : Crates} {thread source key updateId text : String}
    {expectedRevision : Option Int} {detail : Option String} {now : Rat} {db : Db} {r : Request}
    {u : RequestUpdate} {state : RequestState} {value : RequestValue}
    (hvalid : ValidUpdate thread source key updateId detail)
    (hstate : updateState? text = some state)
    (hnonneg : ∀ revision ∈ expectedRevision, 0 ≤ revision)
    (hr : r ∈ db.requests) (hname : r.thread = thread ∧ r.source = source ∧ r.requestKey = key)
    (hu : u ∈ db.requestUpdates) (hurequest : u.requestId = r.requestId)
    (huid : u.updateId = updateId) (hrepeats : u.repeats state expectedRevision detail)
    (hvalue : requestValue crates r = .ok value) :
    (requestUpdate crates thread source key updateId text expectedRevision detail now).run db
      = (.ok ⟨value, true, updateId⟩, db) := by
  have hrow : db.requestAt thread source key = some r := by
    refine Table.find?_eq_of_unique hr hname fun q hq hqname => ?_
    exact Request.eq_of_requestKey hq hr (hqname.1.trans hname.1.symm)
      (hqname.2.1.trans hname.2.1.symm) (hqname.2.2.trans hname.2.2.symm)
  have hprior : db.updateAt r.requestId updateId = some u := by
    refine Table.find?_eq_of_unique hu ⟨hurequest, huid⟩ fun v hv hvid => ?_
    exact RequestUpdate.eq_of_id hv hu (hvid.1.trans hurequest.symm) (hvid.2.trans huid.symm)
  have hagain : db.requestById r.requestId = some r :=
    Table.find?_eq_of_unique hr rfl fun q hq hqid => Request.eq_of_id hq hr hqid
  have hexpected : ¬ (expectedRevision.any fun revision => revision < 0) = true :=
    not_any_iff.mpr fun revision hmem => not_lt.mpr (hnonneg revision hmem)
  simp only [requestUpdate, Tx.bind_ok, validateIdentifier_ok, Tx.expect_ok, bailIf_run_ok,
    withTx, Tx.atomically_ok, Tx.query_ok]
  refine ⟨(), db, ⟨hvalid.thread_ok, rfl⟩, (), db, ⟨hvalid.source_ok, rfl⟩, (), db,
    ⟨hvalid.key_ok, rfl⟩, (), db, ⟨hvalid.updateId_ok, rfl⟩, state, db, ⟨hstate, rfl⟩, (), db,
    ⟨hexpected, rfl⟩, (), db, hvalid.detail_ok db, some r, db, ⟨hrow, rfl⟩, r, db, ⟨rfl, rfl⟩,
    some u, db, ⟨hprior, rfl⟩, ?_⟩
  simp only [Tx.bind_ok, bailIf_run_ok, Tx.query_ok, Tx.expect_ok, Tx.ofExcept_ok, Tx.pure_ok]
  exact ⟨(), db, ⟨fun hno => hno hrepeats, rfl⟩, some r, db, ⟨hagain, rfl⟩, r, db, ⟨rfl, rfl⟩,
    value, db, ⟨hvalue, rfl⟩, rfl, rfl⟩

/-! ## Along a run -/

/-- A history row is never changed. -/
theorem Leads.update {crates : Crates} {db db' : Db} (h : Leads crates db db') {u : RequestUpdate}
    (hu : u ∈ db.requestUpdates) : u ∈ db'.requestUpdates :=
  Leads.invariant (P := fun d => u ∈ d.requestUpdates) h
    (fun _ _ hk hd => (Entry.mem_updates hk).mpr (Or.inl hd)) hu

theorem Leads.recorded {crates : Crates} {db db' : Db} (h : Leads crates db db')
    (hdb : db.Recorded) : db'.Recorded :=
  Leads.invariant h (fun _ _ hk hd => hd.apply hk) hdb

/-- What a call answers depends on the columns of the request that stay. -/
theorem requestValue_of_identity {crates : Crates} {r q : Request} {value : RequestValue}
    (h : requestValue crates r = .ok value) (hidentity : q.identity = r.identity) :
    ∃ value', requestValue crates q = .ok value' := by
  unfold requestValue at h ⊢
  rw [(Request.identity_eq hidentity).2.2.2.2.2.2.2.1]
  split at h
  · cases h
  · exact ⟨_, rfl⟩

theorem step_requestUpdate {crates : Crates} {thread source key updateId text : String}
    {expectedRevision : Option Int} {detail : Option String} {now : Rat} {db t : Db}
    {answer : UpdateAnswer}
    (h : (requestUpdate crates thread source key updateId text expectedRevision detail now).run db
      = (.ok answer, t)) :
    (Op.requestUpdate thread source key updateId text expectedRevision detail now).step crates db
      = t := by
  have hexec : ((Op.requestUpdate thread source key updateId text expectedRevision detail now).exec
      crates).run db = (.ok (), t) := by
    unfold Op.exec
    exact Tx.bind_ok.mpr ⟨answer, t, h, Tx.pure_ok.mpr ⟨rfl, rfl⟩⟩
  unfold Op.step
  rw [hexec]

/-- What a successful update leaves behind: the request and the row that records the call. -/
theorem requestUpdate_recorded {crates : Crates} {thread source key updateId text : String}
    {expectedRevision : Option Int} {detail : Option String} {now : Rat} {db t : Db}
    {answer : UpdateAnswer}
    (h : (requestUpdate crates thread source key updateId text expectedRevision detail now).run db
      = (.ok answer, t)) :
    ∃ r ∈ t.requests, r.thread = thread ∧ r.source = source ∧ r.requestKey = key ∧
      requestValue crates r = .ok answer.value ∧
      ∃ u ∈ t.requestUpdates, u.requestId = r.requestId ∧ u.updateId = updateId ∧
        ∃ state, updateState? text = some state ∧ u.state = state ∧ u.detail = detail ∧
          ∀ revision ∈ expectedRevision, u.expectedRevision = revision := by
  obtain ⟨_, r, hr, hvalue, q, hq, hrid⟩ := requestUpdate_valid h
  obtain ⟨q', state, hrow, hstate, hcases⟩ := requestUpdate_ok h
  obtain rfl : q = q' := Option.some.inj (hq.symm.trans hrow)
  obtain ⟨hqmem, hthread, hsource, hkey⟩ := Table.find?_some hrow
  -- the answered row is the request the call named
  have hname : r.thread = thread ∧ r.source = source ∧ r.requestKey = key := by
    rcases hcases with ⟨_, rfl, _⟩ | ⟨_, _, _, henabled, rfl⟩
    · obtain rfl := Request.eq_of_id hr hqmem hrid
      exact ⟨hthread, hsource, hkey⟩
    · have hafter : (Entry.transition q updateId state detail now).onRequest q ∈
          ((Entry.transition q updateId state detail now).apply crates db).requests :=
        (Entry.mem_requests henabled).mpr (Or.inl ⟨q, hqmem, rfl⟩)
      have hidentity := Request.identity_eq (Entry.onRequest_identity
        (.transition q updateId state detail now) q)
      obtain rfl := Request.eq_of_id hr hafter (hrid.trans hidentity.2.1.symm)
      exact ⟨hidentity.2.2.1.trans hthread, hidentity.2.2.2.1.trans hsource,
        hidentity.2.2.2.2.1.trans hkey⟩
  refine ⟨r, hr, hname.1, hname.2.1, hname.2.2, hvalue, ?_⟩
  rcases hcases with ⟨_, rfl, u, hu, hustate, hexpected, hdetail⟩ |
    ⟨_, _, hrevision, henabled, rfl⟩
  · obtain ⟨humem, hurequest, huid⟩ := Table.find?_some hu
    exact ⟨u, humem, hurequest.trans hrid.symm, huid, state, hstate, hustate, hdetail, hexpected⟩
  · refine ⟨transitionRow db q updateId state detail now,
      (Entry.mem_updates henabled).mpr (Or.inr rfl), hrid.symm, rfl, state, hstate, rfl, rfl, ?_⟩
    intro revision hmem
    exact (hrevision revision hmem).symm

/-! ## The contract of an update -/

section contract

variable {crates : Crates} {db : Db}

/-- (a) A call that succeeded is a repetition for ever: with the recorded expected revision or
none it answers `duplicate` and leaves every table unchanged. -/
def RetriesRepeat (crates : Crates) (db : Db) : Prop :=
  ∀ thread source key updateId state expectedRevision detail now answer t,
    (requestUpdate crates thread source key updateId state expectedRevision detail now).run db
      = (.ok answer, t) →
    ∃ u ∈ t.requestUpdates, u.requestId = answer.value.row.requestId ∧ u.updateId = updateId ∧
      (∀ revision ∈ expectedRevision, u.expectedRevision = revision) ∧
      ∀ db', Leads crates t db' → ∀ expected now',
        expected = none ∨ expected = some u.expectedRevision →
        ∃ answer', answer'.duplicate = true ∧
          (requestUpdate crates thread source key updateId state expected detail now').run db'
            = (.ok answer', db')

/-- (b) Of two calls on one request that name the same revision, the later one is not applied. -/
def OneWriterWins (crates : Crates) (db : Db) : Prop :=
  ∀ thread source key expected updateId state detail now answer t,
    (requestUpdate crates thread source key updateId state (some expected) detail now).run db
      = (.ok answer, t) → answer.duplicate = false →
    ∀ db', Leads crates t db' → ∀ updateId' state' detail' now' answer' t',
      (requestUpdate crates thread source key updateId' state' (some expected) detail' now').run db'
        = (.ok answer', t') → answer'.duplicate = true

/-- (c) A rejected call leaves every table unchanged. -/
def RejectionsSilent (crates : Crates) (db : Db) : Prop :=
  ∀ thread source key updateId state expectedRevision detail now error t,
    (requestUpdate crates thread source key updateId state expectedRevision detail now).run db
      = (.error error, t) → t = db

theorem Reachable.retriesRepeat (h : Reachable crates db) : RetriesRepeat crates db := by
  intro thread source key updateId text expectedRevision detail now answer t hrun
  obtain ⟨hvalid, _⟩ := requestUpdate_valid hrun
  obtain ⟨r, hr, hthread, hsource, hkey, hvalue, u, hu, hurequest, huid, state, hstate, hustate,
    hudetail, hexpected⟩ := requestUpdate_recorded hrun
  have hrow : answer.value.row = r := by
    unfold requestValue at hvalue
    split at hvalue
    · cases hvalue
    · obtain hvalue := Except.ok.inj hvalue
      rw [← hvalue]
  have ht : Reachable crates t := by
    rw [← step_requestUpdate hrun]
    exact Leads.step h _
  refine ⟨u, hu, ?_, huid, hexpected, ?_⟩
  · rw [hrow]
    exact hurequest
  intro db' hleads expected now' hretry
  obtain ⟨q, hq, hidentity, _⟩ := hleads.request ht.recorded hr
  obtain ⟨value, hqvalue⟩ := requestValue_of_identity hvalue hidentity
  have hcolumns := Request.identity_eq hidentity
  have hu' : u ∈ db'.requestUpdates := hleads.update hu
  have hnonneg : 0 ≤ u.expectedRevision := by
    obtain ⟨i, hi⟩ := List.mem_iff_getElem?.mp (Db.mem_history.mpr ⟨hu, rfl⟩)
    have hnumbered := (ht.recorded.numbered _ i u hi).1
    omega
  refine ⟨⟨value, true, updateId⟩, rfl, ?_⟩
  refine requestUpdate_repeated hvalid hstate ?_ hq ?_ hu' ?_ huid ?_ hqvalue
  · intro revision hmem
    rcases hretry with rfl | rfl
    · cases hmem
    · obtain rfl := Option.some.inj hmem
      exact hnonneg
  · exact ⟨hcolumns.2.2.1.trans hthread, hcolumns.2.2.2.1.trans hsource,
      hcolumns.2.2.2.2.1.trans hkey⟩
  · exact hurequest.trans hcolumns.2.1.symm
  · refine ⟨hustate, ?_, hudetail⟩
    intro revision hmem
    rcases hretry with rfl | rfl
    · cases hmem
    · exact Option.some.inj hmem

/-- An applied call that names a revision swaps the request's cell at that version. -/
theorem requestUpdate_swap {thread source key updateId text : String} {expected : Int}
    {detail : Option String} {now : Rat} {t : Db} {answer : UpdateAnswer} (hdb : db.Recorded)
    (h : (requestUpdate crates thread source key updateId text (some expected) detail now).run db
      = (.ok answer, t)) (happlied : answer.duplicate = false) :
    ∃ r ∈ db.requests, (r.thread = thread ∧ r.source = source ∧ r.requestKey = key) ∧
      ∃ q ∈ t.requests, q.identity = r.identity ∧
        Cell.Swap Allowed expected.toNat (db.cellOf r) (t.cellOf q) := by
  obtain ⟨r, state, hrow, _, ⟨hduplicate, _⟩ | ⟨_, _, hrevision, henabled, rfl⟩⟩ :=
    requestUpdate_ok h
  · rw [happlied] at hduplicate
    cases hduplicate
  · obtain ⟨hr, hname⟩ := Table.find?_some hrow
    obtain rfl : expected = r.revision := hrevision expected rfl
    refine ⟨r, hr, hname, _, (Entry.mem_requests henabled).mpr (Or.inl ⟨r, hr, rfl⟩), ?_, ?_⟩
    · exact Entry.onRequest_identity _ r
    · exact Entry.transition_swap henabled (hdb.revision_eq r hr)

theorem Reachable.oneWriterWins (h : Reachable crates db) : OneWriterWins crates db := by
  intro thread source key expected updateId text detail now answer t hrun happlied db' hleads
    updateId' text' detail' now' answer' t' hrun'
  by_contra hduplicate
  have happlied' : answer'.duplicate = false := Bool.eq_false_of_not_eq_true hduplicate
  have ht : Reachable crates t := by
    rw [← step_requestUpdate hrun]
    exact Leads.step h _
  obtain ⟨r, hr, hname, q, hq, hidentity, hswap⟩ := requestUpdate_swap h.recorded hrun happlied
  obtain ⟨r', hr', hname', q', hq', hidentity', hswap'⟩ :=
    requestUpdate_swap (hleads.recorded ht.recorded) hrun' happlied'
  -- both calls name the same request, whose cell ran on in between
  obtain ⟨p, hp, hpidentity, hsteps⟩ := hleads.request ht.recorded hq
  have hcolumns := Request.identity_eq (hpidentity.trans hidentity)
  have hsame : p = r' :=
    Request.eq_of_requestKey hp hr'
      (hcolumns.2.2.1.trans (hname.1.trans hname'.1.symm))
      (hcolumns.2.2.2.1.trans (hname.2.1.trans hname'.2.1.symm))
      (hcolumns.2.2.2.2.1.trans (hname.2.2.trans hname'.2.2.symm))
  subst hsame
  exact hswap.not_again hsteps hswap'

theorem rejectionsSilent (crates : Crates) (db : Db) : RejectionsSilent crates db := by
  intro thread source key updateId state expectedRevision detail now error t hrun
  have hsame := requestUpdate_harmless crates thread source key updateId state expectedRevision
    detail now db error (by rw [hrun])
  rw [hrun] at hsame
  exact hsame

/-- **Update idempotence and optimistic concurrency.**  In every reachable database a successful
update is repeated by every retry after any further run, of the updates of a request that name one
revision at most one is applied, and a rejected update changes nothing. -/
theorem requestUpdate_contract (h : Reachable crates db) :
    RetriesRepeat crates db ∧ OneWriterWins crates db ∧ RejectionsSilent crates db :=
  ⟨h.retriesRepeat, h.oneWriterWins, rejectionsSilent crates db⟩

/-- The acknowledged request of the sample: its update is applied once, and a racing one that
names the same revision is rejected. -/
theorem requestUpdate_contract_sample :
    ((requestUpdate sampleCrates "conversation-1" "ci" "job-1" "done" "completed" (some 1) none
        14).run (Db.after sampleCrates sampleRequestOps)).1.toOption.map UpdateAnswer.duplicate
        = some false ∧
      OneWriterWins sampleCrates (Db.after sampleCrates sampleRequestOps) :=
  ⟨by decide +kernel, (requestUpdate_contract (reachable_after _ _)).2.1⟩

end contract

end CodexMonitor
