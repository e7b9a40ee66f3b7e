import CodexMonitor.Discord.System

/-!
# A cycle of the worker as a run

`Gateway.cycle` says what one cycle leaves in the tables when the outside answers as a
world does.  The machine takes the same cycle step by step, and the answers to its
requests come from the receiver, or never come.  Where the world's answers are of that
kind the machine can take exactly that cycle, so what holds of every run of the
machine holds of what the worker's loops compute.
-/

namespace CodexMonitor

namespace Discord

/-- The world answers the requests for some rows, made one after the other, as the receiver does
from a state on; a request may be lost, or arrive and its answer be lost. -/
inductive Deployment.Answers (d : Deployment) (w : World) : List Pending → Db → Prop
  | done (db : Db) : d.Answers w [] db
  | stale {row : Pending} {rows : List Pending} {db : Db} (hstale : d.gateway.request row = none)
      (hrest : d.Answers w rows db) : d.Answers w (row :: rows) db
  | lost {row : Pending} {rows : List Pending} {db : Db} {payload : Value}
      (hrequest : d.gateway.request row = some payload)
      (hlost : Gateway.receiptOf (w.post row.target payload) = none)
      (hrest : d.Answers w rows db) : d.Answers w (row :: rows) db
  | taken {row : Pending} {rows : List Pending} {db : Db} {payload : Value}
      (hrequest : d.gateway.request row = some payload) (uuid : Uuid) (now : Rat) (answered : Bool)
      (hanswer : Gateway.receiptOf (w.post row.target payload) =
        if answered then
          Gateway.receiptOf (d.receive (d.gateway.postOf 0 row payload) uuid now db).1
        else none)
      (hrest : d.Answers w rows (d.receive (d.gateway.postOf 0 row payload) uuid now db).2) :
      d.Answers w (row :: rows) db

/-- The worker is somewhere else in its cycle, over other tables. -/
def System.working (s : System) (p : Process) (db : Adapter) (work : Work) : System :=
  { s with db := db, process := some { p with work := work } }

section cycle

variable {d : Deployment} {w : World} {s : System} {p : Process} {db : Adapter}

/-! ## The steps of a cycle -/

theorem step_working {work : Work} {a : WorkAct} {t : System}
    (h : d.gateway.workStep (s.working p db work) { p with work := work } a = some t) :
    d.Leads (s.working p db work) t :=
  Runs.Leads.tail (a := .work a) .refl h

/-- A row that `read` accepts is prepared. -/
theorem prepared_runs {row : RawRow} {rows : List RawRow} {m : Value} {command : Command}
    (hread : d.gateway.read row.payload = .ok (m, command)) :
    d.Leads (s.working p db (.preparing (row :: rows)))
      (s.working p (d.gateway.prepareRow w m command db) (.preparing rows)) := by
  refine step_working (a := .prepared w) ?_
  simp only [Gateway.workStep, hread]
  rfl

/-- A row that `read` does not accept ends the cycle. -/
theorem refused_runs (w : World) {row : RawRow} {rows : List RawRow} {e : Failure}
    (hread : d.gateway.read row.payload = .error e) :
    d.Leads (s.working p db (.preparing (row :: rows))) (s.working p db .resting) := by
  refine step_working (a := .prepared w) ?_
  simp only [Gateway.workStep, hread]
  rfl

/-- The loop of `prepare`, from its first row to its last or to one that ends the cycle. -/
theorem prepareRows_runs (rows : List RawRow) :
    ((d.gateway.prepareRows w rows db).result = .ok () →
      d.Leads (s.working p db (.preparing rows))
        (s.working p (d.gateway.prepareRows w rows db).db (.preparing []))) ∧
    ((d.gateway.prepareRows w rows db).result ≠ .ok () →
      d.Leads (s.working p db (.preparing rows))
        (s.working p (d.gateway.prepareRows w rows db).db .resting)) := by
  induction rows generalizing db with
  | nil => exact ⟨fun _ => .refl, fun h => absurd rfl h⟩
  | cons row rows ih =>
      cases hread : d.gateway.read row.payload with
      | error e =>
          have hstuck : d.gateway.prepareRows w (row :: rows) db = ⟨.error e, db, []⟩ := by
            rw [Gateway.prepareRows, hread]
          rw [hstuck]
          refine ⟨fun h => ?_, fun _ => refused_runs w hread⟩
          cases h
      | ok found =>
          obtain ⟨m, command⟩ := found
          rw [prepareRows_cons hread]
          obtain ⟨hok, herror⟩ := @ih (d.gateway.prepareRow w m command db)
          refine ⟨fun h => ?_, fun h => ?_⟩
          · exact (prepared_runs hread).trans (hok h)
          · exact (prepared_runs hread).trans (herror h)

/-- The outcome of an attempt is written, and the loop goes on. -/
theorem noted_runs {row : Pending} {rows : List Pending} {receipt : Option String}
    (hreceipt : ((d.gateway.request row).bind fun payload =>
      Gateway.receiptOf (w.post row.target payload)) = receipt) :
    d.Leads (s.working p db (.noting row receipt rows))
      (s.working p (d.gateway.deliverRow w row db) (.posting rows)) := by
  refine step_working (a := .noted (w.failedAt row.id)) ?_
  simp only [Gateway.workStep, Gateway.deliverRow, hreceipt]
  rfl

/-- The request for a row is on its way. -/
def System.posting (s : System) (post : Post) : System :=
  { s with posts := s.posts ++ [post], flying := s.flying ++ [post] }

theorem posted_runs {row : Pending} {rows : List Pending} {payload : Value}
    (hrequest : d.gateway.request row = some payload) :
    d.Leads (s.working p db (.posting (row :: rows)))
      ((s.posting (d.gateway.postOf s.posts.length row payload)).working p db
        (.waiting s.posts.length row rows)) := by
  refine step_working (a := .posted) ?_
  simp only [Gateway.workStep, hrequest]
  rfl

/-- The last request arrives while the process waits for it. -/
theorem arrived_last (s : System) (p : Process) (db : Adapter) (row : Pending)
    (rows : List Pending) (post : Post) (uuid : Uuid) (now : Rat) (answered : Bool)
    (hserial : post.serial = s.posts.length) :
    d.step ((s.posting post).working p db (.waiting s.posts.length row rows))
        (.arrived s.flying.length uuid now answered) =
      some (System.working
        { s with
          posts := s.posts ++ [post]
          receiver := (d.receive post uuid now s.receiver).2 } p db
        (if answered then
          .noting row (Gateway.receiptOf (d.receive post uuid now s.receiver).1) rows
        else .waiting s.posts.length row rows)) := by
  have hpost : (s.flying ++ [post])[s.flying.length]? = some post := by simp
  have hrest : (s.flying ++ [post]).eraseIdx s.flying.length = s.flying := by
    simp [List.eraseIdx_append_of_length_le]
  simp only [Deployment.step, System.posting, System.working, hpost, hrest, Option.map_some]
  cases answered with
  | true => simp [Process.answer, hserial]
  | false => simp

/-- The loop of `deliver`. -/
theorem deliverRows_runs {rows : List Pending} {receiver : Db} (h : d.Answers w rows receiver)
    (hs : s.receiver = receiver) :
    ∃ t : System, d.Leads (s.working p db (.posting rows))
      (t.working p (d.gateway.deliverRows w rows db) (.posting [])) := by
  induction h generalizing s db with
  | done receiver => exact ⟨s, .refl⟩
  | @stale row rows receiver hstale hrest ih =>
      obtain ⟨t, ht⟩ := @ih s (d.gateway.deliverRow w row db) hs
      refine ⟨t, .trans (t := s.working p db (.noting row none rows)) ?_ (.trans ?_ ht)⟩
      · refine step_working (a := .posted) ?_
        simp only [Gateway.workStep, hstale]
        rfl
      · refine noted_runs ?_
        rw [hstale]
        rfl
  | @lost row rows receiver payload hrequest hlost hrest ih =>
      let post := d.gateway.postOf s.posts.length row payload
      obtain ⟨t, ht⟩ := @ih (s.posting post) (d.gateway.deliverRow w row db) hs
      refine ⟨t, (posted_runs hrequest).trans
        (.trans (t := (s.posting post).working p db (.noting row none rows)) ?_ (.trans ?_ ht))⟩
      · exact step_working (a := .gaveUp) rfl
      · refine noted_runs ?_
        rw [hrequest]
        exact hlost
  | @taken row rows receiver payload hrequest uuid now answered hanswer hrest ih =>
      let post := d.gateway.postOf s.posts.length row payload
      let receipt := Gateway.receiptOf (d.receive post uuid now receiver).1
      let u : System := { s with
        posts := s.posts ++ [post]
        receiver := (d.receive post uuid now receiver).2 }
      obtain ⟨t, ht⟩ := @ih u (d.gateway.deliverRow w row db) rfl
      have harrived : d.step ((s.posting post).working p db (.waiting s.posts.length row rows))
          (.arrived s.flying.length uuid now answered) =
            some (u.working p db
              (if answered then .noting row receipt rows
                else .waiting s.posts.length row rows)) := by
        subst hs
        exact arrived_last s p db row rows post uuid now answered rfl
      have hnoted : d.Leads
          (u.working p db (.noting row (if answered then receipt else none) rows))
          (u.working p (d.gateway.deliverRow w row db) (.posting rows)) := by
        refine noted_runs ?_
        rw [hrequest]
        exact hanswer
      have hposted := Runs.Leads.tail (posted_runs hrequest) harrived
      refine ⟨t, hposted.trans (.trans ?_ (hnoted.trans ht))⟩
      cases answered with
      | true => exact .refl
      | false => exact step_working (a := .gaveUp) rfl

/-- The loop of `seen`. -/
theorem seenRows_runs (rows : List (Pending × String)) :
    d.Leads (s.working p db (.looking rows))
      (s.working p (d.gateway.seenRows w rows db) (.looking [])) := by
  induction rows generalizing db with
  | nil => exact .refl
  | cons entry rows ih =>
      obtain ⟨row, channel⟩ := entry
      rw [Gateway.seenRows]
      refine .trans ?_ ih
      exact step_working (a := .looked w) rfl

/-! ## The cycle -/

theorem working_self (hp : s.process = some p) (hrest : p.work = .resting) :
    s.working p s.db .resting = s := by
  unfold System.working
  rw [← hrest, ← hp]

/-- After the loop of `prepare`. -/
theorem delivered_runs (hattempts : ¬ 2 ^ 63 ≤ d.gateway.maxAttempts)
    (hanswers : d.Answers w (db.due d.gateway.maxAttempts w.now) s.receiver) :
    ∃ t : System, d.Leads (s.working p db (.preparing []))
      (t.working p ((d.gateway.deliver w db).andThen (d.gateway.seen w)).db .resting) := by
  have hdeliver : (d.gateway.deliver w db).andThen (d.gateway.seen w) =
      ⟨.ok (), (d.gateway.seen w (d.gateway.deliver w db).db).db,
        (d.gateway.deliver w db).deeds ++
          (d.gateway.seen w (d.gateway.deliver w db).db).deeds⟩ := by
    refine andThen_of_ok _ ?_
    rw [Gateway.deliver, if_neg hattempts]
  have hselected : d.Leads (s.working p db (.preparing []))
      (s.working p db (.posting (db.due d.gateway.maxAttempts w.now))) := by
    refine step_working (a := .selectDue w.now) ?_
    simp only [Gateway.workStep, if_neg hattempts]
    rfl
  obtain ⟨t, ht⟩ := @deliverRows_runs d w s p db _ _ hanswers rfl
  have hafter : (d.gateway.deliver w db).db =
      d.gateway.deliverRows w (db.due d.gateway.maxAttempts w.now) db := by
    rw [Gateway.deliver, if_neg hattempts]
  have hlooking : ∀ db' : Adapter, d.Leads (t.working p db' (.posting []))
      (t.working p (d.gateway.seen w db').db .resting) := by
    intro db'
    have hunseen : d.Leads (t.working p db' (.posting []))
        (t.working p db' (.looking (db'.unseen w.now))) :=
      step_working (a := .selectUnseen w.now) rfl
    refine (hunseen.trans (seenRows_runs (w := w) _)).trans ?_
    exact step_working (a := .faltered) rfl
  refine ⟨t, hselected.trans (ht.trans ?_)⟩
  rw [hdeliver, ← hafter]
  exact hlooking _

/-- **A cycle is a run of the machine.**  When the world answers the deliveries that are due as the
receiver does, or not at all, the machine can take exactly the cycle: from a process that rests to
the same process, with the tables that `cycle` computes. -/
theorem cycle_runs (d : Deployment) (w : World) (s : System) (p : Process)
    (hp : s.process = some p) (hrest : p.work = .resting)
    (hanswers : d.Answers w
      ((d.gateway.prepare w s.db).db.due d.gateway.maxAttempts w.now) s.receiver) :
    ∃ t, d.Leads s t ∧ t.db = (d.gateway.cycle w s.db).db ∧ t.process = some p := by
  have hselected : d.Leads (s.working p s.db .resting)
      (s.working p s.db (.preparing s.db.batch)) := step_working (a := .selectRaw) rfl
  have hprepare := @prepareRows_runs d w s p s.db s.db.batch
  have hback : { p with work := .resting } = p := by rw [← hrest]
  suffices h : ∃ t : System, d.Leads (s.working p s.db .resting)
      (t.working p (d.gateway.cycle w s.db).db .resting) by
    obtain ⟨t, ht⟩ := h
    rw [working_self hp hrest] at ht
    exact ⟨_, ht, rfl, congrArg some hback⟩
  by_cases hok : (d.gateway.prepare w s.db).result = .ok ()
  · have hcycle : (d.gateway.cycle w s.db).db =
        ((d.gateway.deliver w (d.gateway.prepare w s.db).db).andThen (d.gateway.seen w)).db := by
      rw [Gateway.cycle, andThen_assoc, andThen_of_ok _ hok]
    have hprepared := hselected.trans (hprepare.1 hok)
    by_cases hattempts : 2 ^ 63 ≤ d.gateway.maxAttempts
    · -- the query of `deliver` does not take the limit, and the cycle ends
      have hdb : ((d.gateway.deliver w (d.gateway.prepare w s.db).db).andThen
          (d.gateway.seen w)).db = (d.gateway.prepare w s.db).db := by
        rw [Gateway.deliver, if_pos hattempts]
        rfl
      refine ⟨s, hprepared.trans ?_⟩
      rw [hcycle, hdb]
      refine step_working (a := .selectDue w.now) ?_
      simp only [Gateway.workStep, if_pos hattempts]
      rfl
    · obtain ⟨t, ht⟩ := delivered_runs (p := p) hattempts hanswers
      refine ⟨t, hprepared.trans ?_⟩
      rw [hcycle]
      exact ht
  · have hcycle : d.gateway.cycle w s.db = d.gateway.prepare w s.db := by
      rw [Gateway.cycle, andThen_of_error _ hok, andThen_of_error _ hok]
    refine ⟨s, hselected.trans ?_⟩
    rw [hcycle]
    exact hprepare.2 hok

end cycle

/-- The accepted message waits, and the worker rests. -/
def restingStart : System :=
  { sampleStart [acceptedMessage] with
    process := some ⟨"60000000000000000", .empty, none, [], .resting⟩ }

/-- Posts are answered as the receiver answers the first of them. -/
def receivingWorld : World :=
  { sampleWorld with
    post := fun target payload =>
      (sampleDeployment.receive ⟨0, "", target, canonicalJson sampleGateway.crates payload⟩
        (sampleUuid 1) 20 restingStart.receiver).1 }

/-- The message is prepared and delivered in one cycle. -/
theorem cycle_runs_sample :
    ∃ t, sampleDeployment.Leads restingStart t ∧
      t.db = (sampleGateway.cycle receivingWorld restingStart.db).db ∧
      ∃ row ∈ t.db.pending.rows, row.state = .delivered ∧ row.receipt.isSome = true := by
  have hone : ((sampleGateway.prepare receivingWorld restingStart.db).db.due
      sampleGateway.maxAttempts receivingWorld.now).length = 1 := by
    decide +kernel
  have hrequests : ∀ row ∈ (sampleGateway.prepare receivingWorld restingStart.db).db.due
      sampleGateway.maxAttempts receivingWorld.now, (sampleGateway.request row).isSome = true := by
    decide +kernel
  obtain ⟨row, hrow⟩ := List.length_eq_one_iff.mp hone
  rw [hrow] at hrequests
  obtain ⟨payload, hpayload⟩ := Option.isSome_iff_exists.mp
    (hrequests row (List.mem_singleton.mpr rfl))
  have hanswers : sampleDeployment.Answers receivingWorld
      ((sampleGateway.prepare receivingWorld restingStart.db).db.due
        sampleGateway.maxAttempts receivingWorld.now) restingStart.receiver := by
    rw [hrow]
    exact .taken hpayload (sampleUuid 1) 20 true rfl (.done _)
  obtain ⟨t, hleads, hdb, _⟩ := cycle_runs sampleDeployment receivingWorld restingStart _ rfl rfl
    hanswers
  refine ⟨t, hleads, hdb, ?_⟩
  rw [hdb]
  decide +kernel

end Discord

end CodexMonitor
