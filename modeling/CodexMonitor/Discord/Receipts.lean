import CodexMonitor.Discord.Posting

/-!
# A delivered message is done

A row that waits for its request is pending in the database, and no two rows of a batch
are for one message.  So a row that is marked delivered is never marked otherwise and
never posted again, however often the gateway restarts.
-/

namespace CodexMonitor

namespace Discord

/-- The rows of a batch are pending in the database. -/
def Unsettled (db : Adapter) (rows : List Pending) : Prop :=
  ∀ row ∈ rows, ∃ q ∈ db.pending, q.id = row.id ∧ q.state = .pending

/-- The invariant of the batch: its rows are pending, and for different messages. -/
structure System.Batched (s : System) : Prop where
  unsettled : ∀ p, s.process = some p → Unsettled s.db p.work.rows
  distinct : ∀ p, s.process = some p → (p.work.rows.map Pending.id).Nodup

/-- The delivery is marked delivered under the receipt. -/
def Adapter.Done (db : Adapter) (id receipt : String) : Prop :=
  ∃ q ∈ db.pending, q.id = id ∧ q.state = .delivered ∧ q.receipt = some receipt

/-- The requests for a message. -/
def System.requests (s : System) (id : String) : List Post := s.posts.filter fun post => post.id = id

section batched

variable {g : Gateway} {d : Deployment} {s t : System} {p : Process} {db db' : Adapter}
  {row : Pending} {rows : List Pending} {id receipt : String}

/-- A delivery that is done is not in a batch. -/
theorem Unsettled.not_done (h : Unsettled db rows) (hrow : row ∈ rows)
    (hdone : db.Done id receipt) : row.id ≠ id := by
  intro hid
  obtain ⟨q, hq, hqid, hpending⟩ := h row hrow
  obtain ⟨q', hq', hqid', hdelivered, _⟩ := hdone
  obtain rfl := Pending.eq_of_id hq hq' (hqid.trans (hid.trans hqid'.symm))
  rw [hpending] at hdelivered
  cases hdelivered

theorem Unsettled.edit {j : String} {f : Pending → Pending} {hf : ∀ r : Pending, (f r).id = r.id}
    (h : Unsettled db rows) (hrows : ∀ row ∈ rows, row.id ≠ j) :
    Unsettled (db.edit j f hf) rows := by
  intro row hrow
  obtain ⟨q, hq, hid, hpending⟩ := h row hrow
  have hne : q.id ≠ j := by
    rw [hid]
    exact hrows row hrow
  have hmem : (if q.id = j then f q else q) ∈ (db.edit j f hf).pending :=
    Adapter.mem_edit_of_mem hq
  rw [if_neg hne] at hmem
  exact ⟨q, hmem, hid, hpending⟩

theorem Adapter.Done.edit {j : String} {f : Pending → Pending}
    {hf : ∀ r : Pending, (f r).id = r.id} (h : db.Done id receipt) (hne : j ≠ id) :
    (db.edit j f hf).Done id receipt := by
  obtain ⟨q, hq, hid, hstate, hreceipt⟩ := h
  have hj : q.id ≠ j := by
    rw [hid]
    exact hne.symm
  have hmem : (if q.id = j then f q else q) ∈ (db.edit j f hf).pending :=
    Adapter.mem_edit_of_mem hq
  rw [if_neg hj] at hmem
  exact ⟨q, hmem, hid, hstate, hreceipt⟩

/-- An update that keeps the state and the receipt of the row. -/
theorem Adapter.Done.edit_same {j : String} {f : Pending → Pending}
    {hf : ∀ r : Pending, (f r).id = r.id} (h : db.Done id receipt)
    (hsame : ∀ r, (f r).state = r.state ∧ (f r).receipt = r.receipt) :
    (db.edit j f hf).Done id receipt := by
  obtain ⟨q, hq, hid, hstate, hreceipt⟩ := h
  refine ⟨_, Adapter.mem_edit_of_mem hq, ?_⟩
  split
  · exact ⟨(hf q).trans hid, (hsame q).1.trans hstate, (hsame q).2.trans hreceipt⟩
  · exact ⟨hid, hstate, hreceipt⟩

/-! ## Steps -/

/-- What a step does to the batch and to the deliveries that are done. -/
structure Settles (s t : System) : Prop where
  batched : t.Batched
  done : ∀ id receipt, s.db.Done id receipt → t.db.Done id receipt
  requests : ∀ id receipt, s.db.Done id receipt → t.requests id = s.requests id

theorem due_batch {limit : Nat} {now : Rat} : Unsettled db (db.due limit now) ∧
    ((db.due limit now).map Pending.id).Nodup := by
  constructor
  · intro row hrow
    obtain ⟨hmem, hstate⟩ := mem_due hrow
    exact ⟨row, hmem, rfl, hstate⟩
  · have hids : (db.pending.select
        (fun p => p.state = .pending ∧ (limit = 0 ∨ p.attempts < limit) ∧ p.nextAt ≤ now)
        fun a b => IdLe a.id b.id).Pairwise fun a b => a.id ≠ b.id :=
      Table.select_pairwise Ne.symm db.pending.fits
    unfold Adapter.due
    rw [List.Nodup, List.pairwise_map]
    exact hids.sublist (List.take_sublist _ _)

/-- A step that changes no delivery and posts nothing. -/
theorem Settles.of_same (hpending : t.db.pending = s.db.pending) (hposts : t.posts = s.posts)
    (hrows : ∀ q, t.process = some q →
      Unsettled s.db q.work.rows ∧ (q.work.rows.map Pending.id).Nodup) : Settles s t := by
  refine ⟨⟨fun q hq => ?_, fun q hq => (hrows q hq).2⟩, ?_, ?_⟩
  · unfold Unsettled
    rw [hpending]
    exact (hrows q hq).1
  · intro id receipt hdone
    unfold Adapter.Done
    rw [hpending]
    exact hdone
  · intro id receipt _
    unfold System.requests
    rw [hposts]

/-- No batch is open. -/
theorem unsettled_nil : Unsettled db [] ∧ (([] : List Pending).map Pending.id).Nodup :=
  ⟨List.forall_mem_nil _, .nil⟩

/-- A step of the worker that settles the first row of a batch, or none. -/
theorem Settles.of_edit {work : Work} {j : String} {f : Pending → Pending}
    {hf : ∀ r : Pending, (f r).id = r.id} (hwork : Unsettled s.db work.rows)
    (hdistinct : (work.rows.map Pending.id).Nodup) (hrows : ∀ row ∈ work.rows, row.id ≠ j)
    (hdone : ∀ id receipt, s.db.Done id receipt → (s.db.edit j f hf).Done id receipt) :
    Settles s { s with db := s.db.edit j f hf, process := some { p with work := work } } := by
  refine ⟨⟨fun q hq => ?_, fun q hq => ?_⟩, hdone, fun _ _ _ => rfl⟩
  · cases hq
    exact hwork.edit hrows
  · cases hq
    exact hdistinct

theorem workStep_settles (h : s.Batched) (hp : s.process = some p) {a : WorkAct}
    (hstep : g.workStep s p a = some t) : Settles s t := by
  have hunsettled := h.unsettled p hp
  have hdistinct := h.distinct p hp
  cases a with
  | selectRaw | selectUnseen now =>
      simp only [Gateway.workStep] at hstep
      split at hstep
      · cases hstep
        refine .of_same rfl rfl fun q hq => ?_
        cases hq
        exact unsettled_nil
      · cases hstep
  | prepared w =>
      simp only [Gateway.workStep] at hstep
      split at hstep
      · split at hstep
        · cases hstep
          refine .of_same rfl rfl fun q hq => ?_
          cases hq
          exact unsettled_nil
        · cases hstep
          refine ⟨⟨fun q hq => ?_, fun q hq => ?_⟩, ?_, fun _ _ _ => rfl⟩
          · cases hq
            exact unsettled_nil.1
          · cases hq
            exact List.nodup_nil
          · intro id receipt hdone
            obtain ⟨q, hq, hrest⟩ := hdone
            exact ⟨q, Table.mem_add_of_mem hq, hrest⟩
      · cases hstep
  | selectDue now =>
      simp only [Gateway.workStep] at hstep
      split at hstep
      · split at hstep
        · cases hstep
          refine .of_same rfl rfl fun q hq => ?_
          cases hq
          exact unsettled_nil
        · cases hstep
          refine .of_same rfl rfl fun q hq => ?_
          cases hq
          exact due_batch
      · cases hstep
  | posted =>
      simp only [Gateway.workStep] at hstep
      split at hstep
      · rename_i row rows hwork
        rw [hwork] at hunsettled hdistinct
        split at hstep
        · cases hstep
          refine .of_same rfl rfl fun q hq => ?_
          cases hq
          exact ⟨hunsettled, hdistinct⟩
        · cases hstep
          refine ⟨⟨fun q hq => ?_, fun q hq => ?_⟩, fun _ _ hdone => hdone, ?_⟩
          · cases hq
            exact hunsettled
          · cases hq
            exact hdistinct
          · intro id receipt hdone
            have hne := hunsettled.not_done List.mem_cons_self hdone
            unfold System.requests Gateway.postOf
            simp only [List.filter_append, List.filter_cons, List.filter_nil]
            rw [if_neg (by simpa using hne), List.append_nil]
      · cases hstep
  | gaveUp =>
      simp only [Gateway.workStep] at hstep
      split at hstep
      · rename_i row rows hwork
        rw [hwork] at hunsettled hdistinct
        cases hstep
        refine .of_same rfl rfl fun q hq => ?_
        cases hq
        exact ⟨hunsettled, hdistinct⟩
      · cases hstep
  | noted now =>
      simp only [Gateway.workStep] at hstep
      split at hstep
      · rename_i row receipt rows hwork
        rw [hwork] at hunsettled hdistinct
        have hrest : Unsettled s.db rows :=
          fun row' hrow' => hunsettled row' (List.mem_cons_of_mem _ hrow')
        have hnodup : row.id ∉ rows.map Pending.id ∧ (rows.map Pending.id).Nodup :=
          List.nodup_cons.mp hdistinct
        have hothers : ∀ row' ∈ rows, row'.id ≠ row.id := fun row' hrow' hid =>
          hnodup.1 (List.mem_map.mpr ⟨row', hrow', hid⟩)
        have hpending : ∀ id receipt, s.db.Done id receipt → row.id ≠ id :=
          fun id receipt hdone => hunsettled.not_done List.mem_cons_self hdone
        cases hstep
        cases receipt with
        | none =>
            exact .of_edit hrest hnodup.2 hothers fun id receipt hdone =>
              hdone.edit (hpending id receipt hdone)
        | some receipt =>
            exact .of_edit hrest hnodup.2 hothers fun id receipt hdone =>
              hdone.edit (hpending id receipt hdone)
      · cases hstep
  | looked w =>
      simp only [Gateway.workStep] at hstep
      split at hstep
      · cases hstep
        split
        · exact .of_edit (List.forall_mem_nil _) List.nodup_nil (List.forall_mem_nil _)
            fun id receipt hdone => hdone.edit_same fun _ => ⟨rfl, rfl⟩
        · refine .of_same rfl rfl fun q hq => ?_
          cases hq
          exact unsettled_nil
        · exact .of_edit (List.forall_mem_nil _) List.nodup_nil (List.forall_mem_nil _)
            fun id receipt hdone => hdone.edit_same fun _ => ⟨rfl, rfl⟩
      · cases hstep
  | faltered =>
      cases hstep
      refine .of_same rfl rfl fun q hq => ?_
      cases hq
      exact unsettled_nil

theorem step_settles (h : s.Batched) {a : Act} (hstep : d.step s a = some t) : Settles s t := by
  have hsame : ∀ q p : Process, s.process = some p → q.work.rows = p.work.rows →
      Unsettled s.db q.work.rows ∧ (q.work.rows.map Pending.id).Nodup := by
    intro q p hp hrows
    rw [hrows]
    exact ⟨h.unsettled p hp, h.distinct p hp⟩
  cases a with
  | written channel m | opened sid v | dispatched sid v | called op =>
      obtain ⟨_, hstep⟩ := Option.ite_none_right_eq_some.mp hstep
      cases hstep
      exact .of_same rfl rfl fun q hq => hsame q q hq rfl
  | arrived n uuid now answered =>
      have hprocess := fun q hq => arrived_process (q := q) hstep hq
      obtain ⟨post, _, rfl⟩ := Option.map_eq_some_iff.mp hstep
      refine .of_same rfl rfl fun q hq => ?_
      obtain ⟨p, hp, rfl | ⟨serial, receipt, rfl⟩⟩ := hprocess q hq
      · exact hsame q q hp rfl
      · exact hsame _ p hp (answer_rows p serial receipt)
  | started since =>
      simp only [Deployment.step] at hstep
      split at hstep
      · obtain ⟨_, hstep⟩ := Option.ite_none_right_eq_some.mp hstep
        cases hstep
        refine .of_same rfl rfl fun q hq => ?_
        cases hq
        exact unsettled_nil
      · cases hstep
  | crashed =>
      cases hstep
      refine .of_same rfl rfl fun q hq => ?_
      cases hq
  | link a =>
      obtain ⟨p, hp, hstep⟩ := Option.bind_eq_some_iff.mp hstep
      have hlinks := linkStep_links hp hstep
      refine .of_same hlinks.pending hlinks.posts fun q hq => ?_
      obtain ⟨q', hq', hwork, _⟩ := hlinks.process
      obtain rfl := Option.some.inj (hq'.symm.trans hq)
      exact hsame q' p hp (congrArg Work.rows hwork)
  | work a =>
      obtain ⟨p, hp, hstep⟩ := Option.bind_eq_some_iff.mp hstep
      exact workStep_settles h hp hstep

theorem initial_batched (h : s.Initial) : s.Batched := by
  refine ⟨?_, ?_⟩
  · intro p hp
    rw [h.process] at hp
    cases hp
  · intro p hp
    rw [h.process] at hp
    cases hp

/-- **A delivered message is never posted again.**  Once a row is marked delivered under a receipt,
then after any further steps, restarts among them, it is still marked so, and the requests for its
message are the ones there were. -/
theorem delivered_final (d : Deployment) (s t u : System) (id receipt : String)
    (hstart : s.Initial) (hleads : d.Leads s t) (hlater : d.Leads t u)
    (hdone : t.db.Done id receipt) :
    u.db.Done id receipt ∧ u.requests id = t.requests id := by
  have hbatched : t.Batched :=
    Runs.Leads.invariant (fun _ _ _ h hstep => (step_settles h hstep).batched) hleads
      (initial_batched hstart)
  have hall : u.Batched ∧ u.db.Done id receipt ∧ u.requests id = t.requests id := by
    refine Runs.Leads.invariant
      (P := fun u => u.Batched ∧ u.db.Done id receipt ∧ u.requests id = t.requests id) ?_ hlater
      ⟨hbatched, hdone, rfl⟩
    intro v a w hv hstep
    obtain ⟨hb, hd, hrequests⟩ := hv
    have hsettles := step_settles hb hstep
    exact ⟨hsettles.batched, hsettles.done id receipt hd,
      (hsettles.requests id receipt hd).trans hrequests⟩
  exact hall.2

end batched

/-- After the delivery of the sample the process is started again. -/
theorem delivered_final_sample :
    ∃ t u receipt, sampleDeployment.Leads (sampleStart []) t ∧ sampleDeployment.Leads t u ∧
      u.db.Done "66666666666666666" receipt ∧
        u.requests "66666666666666666" = t.requests "66666666666666666" := by
  obtain ⟨t, hleads, _, _, ⟨row, hrow, hid, hstate, hsome⟩, hagain⟩ := lateActs_run
  obtain ⟨receipt, hreceipt⟩ := Option.isSome_iff_exists.mp hsome
  obtain ⟨u, hu⟩ := Option.isSome_iff_exists.mp hagain
  have hlater : sampleDeployment.Leads t u := Runs.leads_run hu
  have hfinal := delivered_final sampleDeployment (sampleStart []) t u "66666666666666666" receipt
    sampleStart_initial hleads hlater ⟨row, hrow, hid, hstate, hreceipt⟩
  exact ⟨t, u, receipt, hleads, hlater, hfinal.1, hfinal.2⟩

end Discord

end CodexMonitor
