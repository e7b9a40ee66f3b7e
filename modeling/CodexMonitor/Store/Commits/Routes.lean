import CodexMonitor.Store.Commits

/-!
# What routes, watches and intake commit

A successful call of `bind`, `routeAction`, `watchCreate`, `watchAction`, `ingest`
or `commitSample` is taken apart statement by statement; what is left is the
journal's entry under its condition, or nothing for a repeated event.
-/

namespace CodexMonitor

open Transaction

/-! ## Routes and watches -/

theorem validateSources_ok {sources : List String} {db t : Db} {u : Unit}
    (h : (validateSources sources).run db = (.ok u, t)) :
    db = t ∧ "managed/file" ∉ sources := by
  induction sources generalizing db with
  | nil => exact ⟨(Tx.pure_ok.mp h).2, List.not_mem_nil⟩
  | cons source sources ih =>
      simp only [validateSources, Tx.bind_ok, validateIdentifier_ok, bailIf_run_ok] at h
      obtain ⟨_, _, ⟨_, rfl⟩, _, _, ⟨hne, rfl⟩, hrest⟩ := h
      obtain ⟨rfl, hnot⟩ := ih hrest
      refine ⟨rfl, fun hmem => ?_⟩
      rcases List.mem_cons.mp hmem with heq | hmem
      · exact hne heq.symm
      · exact hnot hmem

theorem bind_commits {crates : Crates} {name thread endpoint : String} {sources : List String}
    {db t : Db} {b : Binding}
    (h : (bind crates name thread endpoint sources).run db = (.ok b, t)) :
    (Op.bind name thread endpoint sources).Commits crates db t := by
  simp only [bind, Tx.bind_ok, validateIdentifier_ok, bailIf_run_ok, withTx, Tx.atomically_ok,
    insertBinding_ok, Tx.pure_ok] at h
  obtain ⟨_, _, ⟨_, rfl⟩, _, _, ⟨_, rfl⟩, _, _, ⟨_, rfl⟩, _, _, hendpoint, _, _, ⟨_, rfl⟩,
    _, _, hsources, _, _, ⟨hadmits, rfl⟩, _, rfl⟩ := h
  obtain rfl := (validateEndpoint_readOnly _ _).ok hendpoint
  obtain ⟨rfl, hmanaged⟩ := validateSources_ok hsources
  exact .one .bind ⟨hadmits, rfl, rfl, hmanaged⟩

/-- The two writes of a removal are one step of the journal's entry. -/
theorem settleRoute_eq (db : Db) (name : String) (retired : Bool) (now : Rat) :
    db.settleRoute name retired now =
      if retired then (if retired then db.killPending name now else db).failNotices name now
      else if retired then db.killPending name now else db := by
  cases retired <;> rfl

theorem routeAction_commits {crates : Crates} {name action : String} {now : Rat} {db t : Db}
    {receipt : RouteReceipt} (h : (routeAction name action now).run db = (.ok receipt, t)) :
    (Op.routeAction name action now).Commits crates db t := by
  simp only [routeAction, Tx.bind_ok, validateIdentifier_ok, Tx.expect_ok, withTx,
    Tx.atomically_ok, Tx.query_ok, bailIf_run_ok, Tx.write_ok, Tx.pure_ok] at h
  obtain ⟨_, _, ⟨_, rfl⟩, a, _, ⟨ha, rfl⟩, row, _, ⟨hrow, rfl⟩, b, _, ⟨rfl, rfl⟩, _, _,
    ⟨hretired, rfl⟩, _, _, rfl, _, _, rfl, _, _, rfl, _, _, rfl, _, rfl⟩ := h
  obtain ⟨hb, hname⟩ := Table.find?_some hrow
  have henabled : (Entry.route name a now).Enabled crates db := by
    refine ⟨b, hb, hname, fun hremoved => ?_⟩
    by_contra hne
    exact hretired ⟨hremoved, hne⟩
  have hone := Op.Commits.one (.route ha) henabled
  simp only [Entry.apply, settleRoute_eq] at hone
  exact hone

/-- What a successful `watchCreate` has checked, and the one entry it wrote. -/
theorem watchCreate_ok {crates : Crates} {thread name path endpoint : String}
    {interval debounce : F64} {condition : Option Value} {uuid : Uuid} {now : Rat} {db t : Db}
    {w : Watch}
    (h : (watchCreate crates thread name path interval endpoint debounce condition uuid now).run db
      = (.ok w, t)) :
    ∃ every delay, path.toList.head? = some '/' ∧ interval.within minInterval = some every ∧
      debounce.within 0 = some delay ∧
      w = ⟨uuid.text, thread, name, path, every, endpoint, delay,
        condition.map (canonicalJson crates), "managed-" ++ uuid.text, true, false, 0, none, now,
        now⟩ ∧
      ¬ 0 < db.managedWatches.count (fun v =>
        v.thread = thread ∧ v.name = name ∧ v.removed = false) ∧
      db.managedWatches.count (fun v => v.removed = false) < maxWatches ∧
      db.managedWatches.count (fun v => v.thread = thread ∧ v.removed = false) <
        maxWatchesPerThread ∧
      ∃ b, (Entry.createWatch b w).Enabled crates db ∧
        t = (Entry.createWatch b w).apply crates db := by
  simp only [watchCreate, Tx.bind_ok, validateIdentifier_ok, bailIf_run_ok, Tx.expect_ok] at h
  obtain ⟨_, _, ⟨_, rfl⟩, _, _, ⟨_, rfl⟩, _, _, ⟨_, rfl⟩, _, _, ⟨habsolute, rfl⟩, every, _,
    ⟨hevery, rfl⟩, delay, _, ⟨hdelay, rfl⟩, _, _, hendpoint, h⟩ := h
  obtain rfl := (validateEndpoint_readOnly _ _).ok hendpoint
  simp only [withTx, Tx.atomically_ok, Tx.bind_ok, Tx.query_ok, bailIf_run_ok, insertBinding_ok,
    insertWatch_ok, Tx.pure_ok, and_assoc, exists_and_left, exists_eq_left', exists_const] at h
  obtain ⟨hfree, htotal, hthread, hbinding, hwatch, rfl, rfl⟩ := h
  exact ⟨every, delay, Decidable.of_not_not habsolute, hevery, hdelay, rfl, hfree,
    Nat.lt_of_not_le htotal, Nat.lt_of_not_le hthread, _,
    ⟨hbinding, hwatch, rfl, rfl, rfl, rfl, rfl, rfl, rfl⟩, rfl⟩

theorem watchCreate_commits {crates : Crates} {thread name path endpoint : String}
    {interval debounce : F64} {condition : Option Value} {uuid : Uuid} {now : Rat} {db t : Db}
    {w : Watch}
    (h : (watchCreate crates thread name path interval endpoint debounce condition uuid now).run db
      = (.ok w, t)) :
    (Op.watchCreate thread name path interval endpoint debounce condition uuid now).Commits crates
      db t := by
  obtain ⟨_, _, _, _, _, _, _, _, _, _, henabled, rfl⟩ := watchCreate_ok h
  exact .one .createWatch henabled

/-- What a successful `watchAction` did: one entry for a live watch of that name. -/
theorem watchAction_ok (crates : Crates) {thread name action : String} {now : Rat} {db t : Db}
    {v : Watch} (h : (watchAction thread name action now).run db = (.ok v, t)) :
    isIdentifier thread = true ∧ isIdentifier name = true ∧
    ∃ w a, (db.liveWatches thread name).head? = some w ∧
      LifecycleAction.ofString? action = some a ∧ w.thread = thread ∧ w.name = name ∧
      (Entry.watch w a now).Enabled crates db ∧ t = (Entry.watch w a now).apply crates db := by
  simp only [watchAction, Tx.bind_ok, validateIdentifier_ok, Tx.expect_ok, withTx,
    Tx.atomically_ok, Tx.query_ok, Tx.write_ok] at h
  obtain ⟨_, _, ⟨hthreadOk, rfl⟩, _, _, ⟨hnameOk, rfl⟩, a, _, ⟨ha, rfl⟩, rows, _, ⟨hrows, rfl⟩,
    w, _, ⟨hw, rfl⟩, _, _, rfl, _, _, rfl, _, _, ⟨_, rfl⟩, _, rfl⟩ := h
  subst hrows
  obtain ⟨hmem, hthread, hname, hremoved⟩ := Table.mem_select.mp (List.mem_of_mem_head? hw)
  exact ⟨hthreadOk, hnameOk, w, a, hw, ha, hthread, hname, ⟨hmem, hremoved⟩, rfl⟩

/-- A live watch is paused, resumed or removed whenever the arguments pass the checks. -/
theorem watchAction_run (crates : Crates) {thread name action : String} {now : Rat} {db : Db}
    {w : Watch} {a : LifecycleAction} (hthread : isIdentifier thread = true)
    (hname : isIdentifier name = true) (ha : LifecycleAction.ofString? action = some a)
    (hw : (db.liveWatches thread name).head? = some w) :
    ∃ v, (watchAction thread name action now).run db =
      (.ok v, (Entry.watch w a now).apply crates db) := by
  have hmem : w ∈ db.managedWatches := (Table.mem_select.mp (List.mem_of_mem_head? hw)).1
  have hwritten : ∃ v, ((Entry.watch w a now).apply crates db).managedWatches.find?
      (fun v => v.id = w.id) = some v := by
    refine Option.ne_none_iff_exists'.mp fun hnone => ?_
    refine Table.find?_none.mp hnone
      { w with enabled := a = .resume, removed := a = .remove, epoch := w.epoch + 1, updated := now }
      ?_ rfl
    show _ ∈ db.managedWatches.rows.map _
    exact List.mem_map.mpr ⟨w, hmem, if_pos rfl⟩
  obtain ⟨v, hv⟩ := hwritten
  refine ⟨v, ?_⟩
  simp only [watchAction, Tx.bind_ok, validateIdentifier_ok, Tx.expect_ok, withTx,
    Tx.atomically_ok, Tx.query_ok, Tx.write_ok]
  exact ⟨(), db, ⟨hthread, rfl⟩, (), db, ⟨hname, rfl⟩, a, db, ⟨ha, rfl⟩, _, db, ⟨rfl, rfl⟩, w, db,
    ⟨hw, rfl⟩, (), _, rfl, (), _, rfl, some v, _, ⟨hv, rfl⟩, rfl, rfl⟩

theorem watchAction_commits {crates : Crates} {thread name action : String} {now : Rat}
    {db t : Db} {v : Watch} (h : (watchAction thread name action now).run db = (.ok v, t)) :
    (Op.watchAction thread name action now).Commits crates db t := by
  obtain ⟨_, _, w, a, _, ha, hthread, hname, henabled, rfl⟩ := watchAction_ok crates h
  exact .one (.watch ha hthread hname) henabled

/-! ## Intake -/

/-- What a successful intake body did: it recognised a stored event, or it stored one. -/
theorem ingestTx_ok {crates : Crates} {binding : String} {envelope : Value} {uuid : Uuid}
    {now : Rat} {db t : Db} {receipt : Receipt}
    (h : (ingestTx crates binding envelope uuid now).run db = (.ok receipt, t)) :
    t = db ∨ ∃ e : Event, e.Ingested crates binding envelope uuid now ∧
      (Entry.store e).Enabled crates db ∧ t = (Entry.store e).apply crates db := by
  simp only [ingestTx, Tx.bind_ok, Tx.query_ok, Tx.expect_ok, bailIf_run_ok] at h
  obtain ⟨⟨source, eventId, encoded⟩, _, hvalid, _, _, ⟨rfl, rfl⟩, b, _, ⟨hb, rfl⟩, _, _,
    ⟨hsource, rfl⟩, _, _, ⟨rfl, rfl⟩, h⟩ := h
  obtain ⟨rfl, hget, hid, rfl, _, _⟩ := validateEnvelope_ok hvalid
  obtain ⟨hmem, hname⟩ := Table.find?_some hb
  split at h
  · simp only [Tx.bind_ok, bailIf_run_ok, Tx.pure_ok] at h
    obtain ⟨_, _, ⟨_, rfl⟩, _, rfl⟩ := h
    exact Or.inl rfl
  · obtain ⟨hon, hkept, hroom, hadmits, rfl, rfl⟩ := storeEvent_ok h
    refine Or.inr ⟨_, ⟨hname, hget, hid, rfl, rfl, rfl, rfl⟩, ?_, rfl⟩
    have hstate : initialState envelope = .pending ∨ initialState envelope = .ignored := by
      unfold initialState
      split
      · exact Or.inr rfl
      · exact Or.inl rfl
    exact ⟨⟨hadmits, rfl, uuid, rfl, rfl⟩, hstate, rfl,
      ⟨b, hmem, rfl, hon, hkept, Decidable.of_not_not hsource⟩, envelope.getStr "trace_id", hroom⟩

theorem ingest_commits {crates : Crates} {binding : String} {envelope : Value} {uuid : Uuid}
    {now : Rat} {db t : Db} {receipt : Receipt}
    (h : (ingest crates binding envelope uuid now).run db = (.ok receipt, t)) :
    (Op.ingest binding envelope uuid now).Commits crates db t := by
  simp only [ingest, Tx.bind_ok, validateIdentifier_ok, withTx, Tx.atomically_ok] at h
  obtain ⟨_, _, ⟨_, rfl⟩, h⟩ := h
  rcases ingestTx_ok h with rfl | ⟨e, he, henabled, rfl⟩
  · exact .refl _ _
  · exact .one (.ingest he) henabled

theorem commitSample_commits {crates : Crates} {id : String} {epoch : Int} {checkpoint : Value}
    {event : Option Value} {uuid : Uuid} {now stamp : Rat} {db t : Db}
    {receipt : Option Receipt}
    (h : (commitSample crates id epoch checkpoint event uuid now stamp).run db
      = (.ok receipt, t)) :
    (Op.commitSample id epoch checkpoint event uuid now stamp).Commits crates db t := by
  simp only [commitSample, Tx.bind_ok, validateIdentifier_ok, bailIf_run_ok, withTx,
    Tx.atomically_ok, Tx.query_ok, Tx.expect_ok, Tx.write_ok, Tx.pure_ok] at h
  obtain ⟨_, _, ⟨_, rfl⟩, _, _, ⟨_, rfl⟩, _, _, ⟨_, rfl⟩, _, _, ⟨rfl, rfl⟩, w, _, ⟨hw, rfl⟩,
    _, _, ⟨hepoch, rfl⟩, _, _, ⟨hopen, rfl⟩, _, u, hsample, _, _, rfl, _, rfl⟩ := h
  obtain ⟨hmem, rfl⟩ := Table.find?_some hw
  obtain rfl : w.epoch = epoch := Decidable.of_not_not hepoch
  have hon : w.enabled = true := Bool.eq_true_of_not_eq_false fun hoff => hopen (Or.inl hoff)
  have hkept : w.removed = false := Bool.eq_false_of_not_eq_true fun hgone => hopen (Or.inr hgone)
  -- the sample's event, if any, is stored first; the watch's row is still there afterwards
  have hmove : ∀ u : Db, w ∈ u.managedWatches →
      (Op.commitSample w.id w.epoch checkpoint event uuid now stamp).Commits crates db u →
      (Op.commitSample w.id w.epoch checkpoint event uuid now stamp).Commits crates db
        (u.setCheckpoint w.id w.epoch (canonicalJson crates checkpoint) stamp) := by
    intro u hu hcommits
    exact hcommits.trans (Op.Commits.one .checkpoint ⟨hu, hon, hkept⟩)
  cases event with
  | none =>
      obtain ⟨_, rfl⟩ := Tx.pure_ok.mp hsample
      exact hmove _ hmem (.refl _ _)
  | some envelope =>
      simp only [ingestSample, Tx.bind_ok, Tx.pure_ok] at hsample
      obtain ⟨_, _, hingest, _, rfl⟩ := hsample
      rcases ingestTx_ok hingest with rfl | ⟨e, he, henabled, rfl⟩
      · exact hmove _ hmem (.refl _ _)
      · exact hmove _ hmem (.one (.sample he) henabled)

end CodexMonitor
