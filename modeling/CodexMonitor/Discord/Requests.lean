import CodexMonitor.Discord.Durability

/-!
# Requests for a message

The text of a delivery is written once, with the delivery.  A batch is taken from the
database and nobody else changes a delivery, so every request for a message, after a
refusal, a lost answer or a crash, carries the text of its row to the binding of its
row.
-/

namespace CodexMonitor

namespace Discord

/-! ## Rows and requests -/

/-- The deliveries of a batch that are not settled yet. -/
def Work.rows : Work → List Pending
  | .posting rows => rows
  | .waiting _ row rows => row :: rows
  | .noting row _ rows => row :: rows
  | .resting | .preparing _ | .looking _ => []

/-- A delivery of the database with the id, the target and the text of a row. -/
def Adapter.Has (db : Adapter) (row : Pending) : Prop :=
  ∃ q ∈ db.pending, q.id = row.id ∧ q.target = row.target ∧ q.payload = row.payload

/-- The request carries the text of the row. -/
def Gateway.Carries (g : Gateway) (row : Pending) (post : Post) : Prop :=
  post.id = row.id ∧ post.target = row.target ∧
    ∃ v, g.crates.fromStr row.payload = some v ∧ post.body = canonicalJson g.crates v

/-- The invariant of the requests: each carries the text of a row, and the batch is of rows. -/
structure Gateway.Carried (g : Gateway) (s : System) : Prop where
  posts : ∀ post ∈ s.posts, ∃ row ∈ s.db.pending, g.Carries row post
  serials : ∀ post ∈ s.posts, s.posts[post.serial]? = some post
  flying : ∀ post ∈ s.flying, post ∈ s.posts
  rows : ∀ p, s.process = some p → ∀ row ∈ p.work.rows, s.db.Has row
  waiting : ∀ p n row rows, s.process = some p → p.work = .waiting n row rows →
    ∃ post, s.posts[n]? = some post ∧ post.id = row.id

section carried

variable {g : Gateway} {d : Deployment} {s t : System} {p : Process} {db db' : Adapter}
  {row row' : Pending} {post : Post}

theorem Gateway.Carries.same (h : g.Carries row post) (hid : row'.id = row.id)
    (htarget : row'.target = row.target) (hpayload : row'.payload = row.payload) :
    g.Carries row' post := by
  unfold Gateway.Carries
  rw [hid, htarget, hpayload]
  exact h

theorem Adapter.Has.keeps (h : db.Has row) (hkeeps : db.Keeps db') : db'.Has row := by
  obtain ⟨q, hq, hid, htarget, hpayload⟩ := h
  obtain ⟨q', hq', hid', htarget', hpayload'⟩ := hkeeps.prepared q hq
  exact ⟨q', hq', hid'.trans hid, htarget'.trans htarget, hpayload'.trans hpayload⟩

theorem mem_due {limit : Nat} {now : Rat} (h : row ∈ db.due limit now) :
    row ∈ db.pending ∧ row.state = .pending := by
  obtain ⟨hmem, hstate, _⟩ := Table.mem_select.mp (List.mem_of_mem_take h)
  exact ⟨hmem, hstate⟩

theorem request_parsed {payload : Value} (h : g.request row = some payload) :
    g.crates.fromStr row.payload = some payload := by
  obtain ⟨v, hv, h⟩ := Option.bind_eq_some_iff.mp h
  obtain ⟨_, h⟩ := Option.ite_none_right_eq_some.mp h
  obtain rfl := Option.some.inj h
  exact hv

/-- An answer leaves the worker where it is, or is what it waits for. -/
theorem answer_work (p : Process) (serial : Nat) (receipt : Option String) :
    (p.answer serial receipt).work = p.work ∨ ∃ n row rows, p.work = .waiting n row rows ∧
      (p.answer serial receipt).work = .noting row receipt rows := by
  unfold Process.answer
  split
  · rename_i n row rows hwork
    split
    · exact .inr ⟨n, row, rows, hwork, rfl⟩
    · exact .inl rfl
  · exact .inl rfl

theorem answer_rows (p : Process) (serial : Nat) (receipt : Option String) :
    (p.answer serial receipt).work.rows = p.work.rows := by
  obtain hsame | ⟨n, row, rows, hwork, hnoting⟩ := answer_work p serial receipt
  · rw [hsame]
  · rw [hwork, hnoting]
    rfl

theorem answer_raws (p : Process) (serial : Nat) (receipt : Option String) :
    (p.answer serial receipt).work.raws = p.work.raws := by
  obtain hsame | ⟨n, row, rows, hwork, hnoting⟩ := answer_work p serial receipt
  · rw [hsame]
  · rw [hwork, hnoting]
    rfl

theorem answer_waiting {serial n : Nat} {receipt : Option String} {rows : List Pending}
    (h : (p.answer serial receipt).work = .waiting n row rows) : p.work = .waiting n row rows := by
  obtain hsame | ⟨_, _, _, _, hnoting⟩ := answer_work p serial receipt
  · rwa [← hsame]
  · rw [hnoting] at h
    cases h

/-- A step that posts nothing. -/
theorem Gateway.Carried.same (h : g.Carried s) (hkeeps : s.db.Keeps t.db)
    (hposts : t.posts = s.posts) (hflying : ∀ post ∈ t.flying, post ∈ s.flying)
    (hrows : ∀ q, t.process = some q → ∀ row ∈ q.work.rows, s.db.Has row)
    (hwaiting : ∀ q n row rows, t.process = some q → q.work = .waiting n row rows →
      ∃ p, s.process = some p ∧ p.work = .waiting n row rows) : g.Carried t := by
  refine ⟨?_, ?_, ?_, ?_, ?_⟩
  · intro post hpost
    rw [hposts] at hpost
    obtain ⟨row, hrow, hcarries⟩ := h.posts post hpost
    obtain ⟨row', hrow', hid, htarget, hpayload⟩ := hkeeps.prepared row hrow
    exact ⟨row', hrow', hcarries.same hid htarget hpayload⟩
  · rw [hposts]
    exact h.serials
  · intro post hpost
    rw [hposts]
    exact h.flying post (hflying post hpost)
  · intro q hq row hrow
    exact (hrows q hq row hrow).keeps hkeeps
  · intro q n row rows hq hwork
    obtain ⟨p, hp, hwait⟩ := hwaiting q n row rows hq hwork
    rw [hposts]
    exact h.waiting p n row rows hp hwait

/-- A step of the worker that posts nothing. -/
theorem Gateway.Carried.works (h : g.Carried s) {work : Work} (hkeeps : s.db.Keeps db')
    (hrows : ∀ row ∈ work.rows, s.db.Has row)
    (hwaiting : ∀ n row rows, work ≠ .waiting n row rows) :
    g.Carried { s with db := db', process := some { p with work := work } } := by
  refine h.same hkeeps rfl (fun _ hpost => hpost) ?_ ?_
  · intro q hq
    cases hq
    exact hrows
  · intro q n row rows hq hwork
    cases hq
    exact absurd hwork (hwaiting n row rows)

/-- The request for the first row of a batch. -/
theorem Gateway.Carried.posted (h : g.Carried s) {rows : List Pending} {payload : Value}
    (hrows : ∀ row' ∈ row :: rows, s.db.Has row') (hrequest : g.request row = some payload) :
    g.Carried { s with
      posts := s.posts ++ [g.postOf s.posts.length row payload]
      flying := s.flying ++ [g.postOf s.posts.length row payload]
      process := some { p with work := .waiting s.posts.length row rows } } := by
  obtain ⟨q, hq, hid, htarget, hpayload⟩ := hrows row List.mem_cons_self
  refine ⟨?_, ?_, ?_, ?_, ?_⟩
  · intro post hpost
    obtain hpost | hpost := List.mem_append.mp hpost
    · exact h.posts post hpost
    · obtain rfl := List.mem_singleton.mp hpost
      refine ⟨q, hq, hid.symm, htarget.symm, payload, ?_, rfl⟩
      rw [hpayload]
      exact request_parsed hrequest
  · intro post hpost
    obtain hpost | hpost := List.mem_append.mp hpost
    · have hold := h.serials post hpost
      have hlt := (List.getElem?_eq_some_iff.mp hold).1
      rw [List.getElem?_append_left hlt]
      exact hold
    · obtain rfl := List.mem_singleton.mp hpost
      exact List.getElem?_concat_length
  · intro post hpost
    obtain hpost | hpost := List.mem_append.mp hpost
    · exact List.mem_append_left _ (h.flying post hpost)
    · exact List.mem_append_right _ hpost
  · intro p' hp' row' hrow'
    cases hp'
    exact hrows row' hrow'
  · intro p' n row' rows' hp' heq
    cases hp'
    cases heq
    exact ⟨_, List.getElem?_concat_length, rfl⟩

theorem workStep_carried (h : g.Carried s) (hp : s.process = some p) {a : WorkAct}
    (hstep : g.workStep s p a = some t) : g.Carried t := by
  have hkeeps := (workStep_writes hstep).keeps
  have hrows := h.rows p hp
  cases a with
  | selectRaw | selectUnseen now =>
      simp only [Gateway.workStep] at hstep
      split at hstep
      · cases hstep
        exact h.works hkeeps (List.forall_mem_nil _) fun n row rows heq => by cases heq
      · cases hstep
  | prepared w =>
      simp only [Gateway.workStep] at hstep
      split at hstep
      · split at hstep
        · cases hstep
          exact h.works hkeeps (List.forall_mem_nil _) fun n row rows heq => by cases heq
        · cases hstep
          exact h.works hkeeps (List.forall_mem_nil _) fun n row rows heq => by cases heq
      · cases hstep
  | selectDue now =>
      simp only [Gateway.workStep] at hstep
      split at hstep
      · split at hstep
        · cases hstep
          exact h.works hkeeps (List.forall_mem_nil _) fun n row rows heq => by cases heq
        · cases hstep
          refine h.works hkeeps ?_ fun n row rows heq => by cases heq
          exact fun row hrow => ⟨row, (mem_due hrow).1, rfl, rfl, rfl⟩
      · cases hstep
  | posted =>
      simp only [Gateway.workStep] at hstep
      split at hstep
      · rename_i row rows hwork
        rw [hwork] at hrows
        split at hstep
        · cases hstep
          exact h.works hkeeps hrows fun n row rows heq => by cases heq
        · rename_i payload hrequest
          cases hstep
          exact h.posted hrows hrequest
      · cases hstep
  | gaveUp =>
      simp only [Gateway.workStep] at hstep
      split at hstep
      · rename_i row rows hwork
        rw [hwork] at hrows
        cases hstep
        exact h.works hkeeps hrows fun n row rows heq => by cases heq
      · cases hstep
  | noted now =>
      simp only [Gateway.workStep] at hstep
      split at hstep
      · rename_i row receipt rows hwork
        rw [hwork] at hrows
        cases hstep
        refine h.works hkeeps ?_ fun n row rows heq => by cases heq
        exact fun row' hrow' => hrows row' (List.mem_cons_of_mem _ hrow')
      · cases hstep
  | looked w =>
      simp only [Gateway.workStep] at hstep
      split at hstep
      · cases hstep
        exact h.works hkeeps (List.forall_mem_nil _) fun n row rows heq => by cases heq
      · cases hstep
  | faltered =>
      cases hstep
      exact h.works hkeeps (List.forall_mem_nil _) fun n row rows heq => by cases heq

theorem step_carried (h : d.gateway.Carried s) {a : Act} (hstep : d.step s a = some t) :
    d.gateway.Carried t := by
  have hkeeps := step_keeps hstep
  cases a with
  | written channel m | opened sid v | dispatched sid v | called op =>
      obtain ⟨_, hstep⟩ := Option.ite_none_right_eq_some.mp hstep
      cases hstep
      exact ⟨h.posts, h.serials, h.flying, h.rows, h.waiting⟩
  | arrived n uuid now answered =>
      have hprocess := fun q hq => arrived_process (q := q) hstep hq
      obtain ⟨post, _, rfl⟩ := Option.map_eq_some_iff.mp hstep
      refine h.same hkeeps rfl (fun post hpost => List.mem_of_mem_eraseIdx hpost) ?_ ?_
      · intro q hq row hrow
        obtain ⟨p, hp, rfl | ⟨serial, receipt, rfl⟩⟩ := hprocess q hq
        · exact h.rows q hp row hrow
        · rw [answer_rows] at hrow
          exact h.rows p hp row hrow
      · intro q n row rows hq hwork
        obtain ⟨p, hp, rfl | ⟨serial, receipt, rfl⟩⟩ := hprocess q hq
        · exact ⟨q, hp, hwork⟩
        · exact ⟨p, hp, answer_waiting hwork⟩
  | started since =>
      simp only [Deployment.step] at hstep
      split at hstep
      · obtain ⟨_, hstep⟩ := Option.ite_none_right_eq_some.mp hstep
        cases hstep
        refine h.same hkeeps rfl (fun _ hpost => hpost) ?_ ?_
        · intro q hq
          cases hq
          exact List.forall_mem_nil _
        · intro q n row rows hq hwork
          cases hq
          cases hwork
      · cases hstep
  | crashed =>
      cases hstep
      refine h.same hkeeps rfl (fun _ hpost => hpost) ?_ ?_
      · intro q hq
        cases hq
      · intro q n row rows hq
        cases hq
  | link a =>
      obtain ⟨p, hp, hstep⟩ := Option.bind_eq_some_iff.mp hstep
      have hlinks := linkStep_links hp hstep
      obtain ⟨q, hq, hwork, _⟩ := hlinks.process
      refine h.same hkeeps hlinks.posts ?_ ?_ ?_
      · rw [hlinks.flying]
        exact fun _ hpost => hpost
      · intro q' hq' row hrow
        obtain rfl := Option.some.inj (hq.symm.trans hq')
        rw [hwork] at hrow
        exact h.rows p hp row hrow
      · intro q' n row rows hq' hwaiting
        obtain rfl := Option.some.inj (hq.symm.trans hq')
        rw [hwork] at hwaiting
        exact ⟨p, hp, hwaiting⟩
  | work a =>
      obtain ⟨p, hp, hstep⟩ := Option.bind_eq_some_iff.mp hstep
      exact workStep_carried h hp hstep

theorem initial_carried (h : s.Initial) : g.Carried s := by
  refine ⟨?_, ?_, ?_, ?_, ?_⟩
  · rw [h.posts]
    exact List.forall_mem_nil _
  · rw [h.posts]
    exact List.forall_mem_nil _
  · rw [h.flying]
    exact List.forall_mem_nil _
  · intro p hp
    rw [h.process] at hp
    cases hp
  · intro p n row rows hp
    rw [h.process] at hp
    cases hp

theorem leads_carried (hstart : s.Initial) (hleads : d.Leads s t) : d.gateway.Carried t :=
  Runs.Leads.invariant (P := d.gateway.Carried) (fun _ _ _ h hstep => step_carried h hstep) hleads
    (initial_carried hstart)

/-- **Every request for a message is the same.**  Whatever failed or crashed between them, two
requests for one message go to the same binding with the same text, which is that of its row. -/
theorem requests_agree (d : Deployment) (s t : System) (p q : Post) (hstart : s.Initial)
    (hleads : d.Leads s t) (hp : p ∈ t.posts) (hq : q ∈ t.posts) (hid : p.id = q.id) :
    p.target = q.target ∧ p.body = q.body ∧
      ∃ row ∈ t.db.pending, d.gateway.Carries row p ∧ d.gateway.Carries row q := by
  have h := leads_carried hstart hleads
  obtain ⟨row, hrow, hcarries⟩ := h.posts p hp
  obtain ⟨row', hrow', hcarries'⟩ := h.posts q hq
  obtain rfl := Pending.eq_of_id hrow hrow' (hcarries.1.symm.trans (hid.trans hcarries'.1))
  refine ⟨hcarries.2.1.trans hcarries'.2.1.symm, ?_, row, hrow, hcarries, hcarries'⟩
  obtain ⟨_, _, v, hv, hbody⟩ := hcarries
  obtain ⟨_, _, w, hw, hbody'⟩ := hcarries'
  obtain rfl := Option.some.inj (hv.symm.trans hw)
  exact hbody.trans hbody'.symm

/-- The accepted message is prepared and posted, the process crashes, and it is posted again. -/
def repostActs : List Act :=
  arrivalActs ++
    [.work .selectRaw, .work (.prepared sampleWorld), .work (.selectDue 0), .work .posted,
      .crashed, .started none, .work .selectRaw, .work (.selectDue 0), .work .posted]

theorem requests_agree_sample :
    ∃ t p q, sampleDeployment.Leads (sampleStart []) t ∧ p ∈ t.posts ∧ q ∈ t.posts ∧ p ≠ q ∧
      p.target = q.target ∧ p.body = q.body := by
  have hrun : (Runs.run? sampleDeployment.step repostActs (sampleStart [])).any
      (fun t => ∃ p ∈ t.posts, ∃ q ∈ t.posts, p.id = q.id ∧ p ≠ q) = true := by
    decide +kernel
  obtain ⟨t, ht, hposts⟩ := Option.any_eq_true _ _ |>.mp hrun
  obtain ⟨p, hp, q, hq, hid, hne⟩ := of_decide_eq_true hposts
  have hleads : sampleDeployment.Leads (sampleStart []) t := Runs.leads_run ht
  have hagree := requests_agree sampleDeployment (sampleStart []) t p q sampleStart_initial hleads
    hp hq hid
  exact ⟨t, p, q, hleads, hp, hq, hne, hagree.1, hagree.2.1⟩

/-! ## What is posted -/

/-- The message waited in the table of raw messages at a moment between `s` and `t`. -/
def Deployment.Waited (d : Deployment) (s t : System) (raw : RawRow) : Prop :=
  ∃ u, d.Leads s u ∧ d.Leads u t ∧ raw ∈ u.db.raw

/-- The row is for the command that a raw message parses to, and goes to the binding of its role. -/
structure Gateway.Commanded (g : Gateway) (raw : RawRow) (row : Pending) (m : Value)
    (command : Command) : Prop where
  message : g.crates.fromStr raw.payload = some m
  parsed : parse g.config m = some command
  id_eq : row.id = text m "id"
  target_eq : row.target = destination g.config g.source command.role
  payload_eq : ∃ found, row.payload =
    canonicalJson g.crates (g.payload m command (g.withImages command.body found))

/-- The rows that were there in `s`, and those of commands. -/
def Deployment.Origin (d : Deployment) (s t : System) (row : Pending) : Prop :=
  s.db.Prepared row.id ∨
    ∃ raw m command, d.Waited s t raw ∧ d.gateway.Commanded raw row m command

/-- The invariant of the rows: each has its origin, and the worker has messages in hand that
waited. -/
structure Deployment.Sourced (d : Deployment) (s t : System) : Prop where
  leads : d.Leads s t
  raws : ∀ raw ∈ t.raws, d.Waited s t raw
  rows : ∀ row ∈ t.db.pending, d.Origin s t row

theorem Deployment.Waited.step {raw : RawRow} {u : System} {a : Act} (h : d.Waited s t raw)
    (hstep : d.step t a = some u) : d.Waited s u raw := by
  obtain ⟨v, hs, ht, hraw⟩ := h
  exact ⟨v, hs, ht.tail hstep, hraw⟩

theorem Deployment.Origin.step {u : System} {a : Act} (h : d.Origin s t row)
    (hstep : d.step t a = some u) : d.Origin s u row := by
  obtain hold | ⟨raw, m, command, hwaited, hcommanded⟩ := h
  · exact .inl hold
  · exact .inr ⟨raw, m, command, hwaited.step hstep, hcommanded⟩

theorem Deployment.Origin.same (h : d.Origin s t row) (hid : row'.id = row.id)
    (htarget : row'.target = row.target) (hpayload : row'.payload = row.payload) :
    d.Origin s t row' := by
  obtain hold | ⟨raw, m, command, hwaited, hcommanded⟩ := h
  · left
    rwa [hid]
  · refine .inr ⟨raw, m, command, hwaited, hcommanded.message, hcommanded.parsed,
      hid.trans hcommanded.id_eq, htarget.trans hcommanded.target_eq, ?_⟩
    rw [hpayload]
    exact hcommanded.payload_eq

theorem edit_rows {id : String} {f : Pending → Pending} {hf : ∀ r : Pending, (f r).id = r.id}
    {P : Pending → Prop} (hrow : ∀ r, (f r).target = r.target ∧ (f r).payload = r.payload) :
    ∀ row ∈ (db.edit id f hf).pending, db.Has row ∨ P row := by
  intro row hmem
  left
  obtain ⟨q, hq, hid, ⟨_, rfl⟩ | ⟨_, rfl⟩⟩ := Adapter.mem_edit hmem
  · obtain ⟨htarget, hpayload⟩ := hrow q
    exact ⟨q, hq, hid.symm, htarget.symm, hpayload.symm⟩
  · exact ⟨row, hq, rfl, rfl, rfl⟩

/-- A row was there before, or is for a message that the worker has in hand. -/
theorem Gateway.Writes.rows {raws : List RawRow} (h : g.Writes raws db db') :
    ∀ row ∈ db'.pending, db.Has row ∨ ∃ raw ∈ raws, ∃ m command, g.Commanded raw row m command := by
  cases h with
  | enqueued m =>
      rw [(enqueue_tables m db).1]
      exact fun row hrow => .inl ⟨row, hrow, rfl, rfl, rfl⟩
  | moved w raw m command hraw hread =>
      intro row hrow
      obtain hrow | ⟨rfl, _⟩ := Adapter.mem_move hrow
      · exact .inl ⟨row, hrow, rfl, rfl, rfl⟩
      · obtain ⟨hmessage, hparse⟩ := read_ok hread
        exact .inr ⟨raw, hraw, m, command, hmessage, hparse, rfl, rfl, _, rfl⟩
  | delivered id receipt => exact edit_rows fun _ => ⟨rfl, rfl⟩
  | failed id attempts now => exact edit_rows fun _ => ⟨rfl, rfl⟩
  | seen id => exact edit_rows fun _ => ⟨rfl, rfl⟩
  | unseen id attempts now => exact edit_rows fun _ => ⟨rfl, rfl⟩
  | nothing | cursor channel id | session session | seed seed =>
      exact fun row hrow => .inl ⟨row, hrow, rfl, rfl, rfl⟩

theorem workStep_raws {a : WorkAct} (h : g.workStep s p a = some t) :
    ∀ raw ∈ t.raws, raw ∈ p.work.raws ∨ raw ∈ s.db.raw := by
  cases a with
  | selectRaw =>
      simp only [Gateway.workStep] at h
      split at h
      · cases h
        exact fun raw hraw => .inr (Table.mem_select.mp (List.mem_of_mem_take hraw)).1
      · cases h
  | prepared w =>
      simp only [Gateway.workStep] at h
      split at h
      · rename_i row rows hwork
        rw [hwork]
        split at h
        · cases h
          exact List.forall_mem_nil _
        · cases h
          exact fun raw hraw => .inl (List.mem_cons_of_mem row hraw)
      · cases h
  | selectDue now | posted =>
      simp only [Gateway.workStep] at h
      split at h
      · split at h
        · cases h
          exact List.forall_mem_nil _
        · cases h
          exact List.forall_mem_nil _
      · cases h
  | gaveUp | noted now | selectUnseen now | looked w =>
      simp only [Gateway.workStep] at h
      split at h
      · cases h
        exact List.forall_mem_nil _
      · cases h
  | faltered =>
      cases h
      exact List.forall_mem_nil _

/-- The worker takes messages in hand that wait. -/
theorem step_raws {a : Act} (hstep : d.step s a = some t) :
    ∀ raw ∈ t.raws, raw ∈ s.raws ∨ raw ∈ s.db.raw := by
  cases a with
  | written channel m | opened sid v | dispatched sid v | called op =>
      obtain ⟨_, hstep⟩ := Option.ite_none_right_eq_some.mp hstep
      cases hstep
      exact fun raw hraw => .inl hraw
  | arrived n uuid now answered =>
      intro raw hraw
      cases hq : t.process with
      | none =>
          rw [System.raws, hq] at hraw
          cases hraw
      | some q =>
          rw [System.raws, hq] at hraw
          obtain ⟨p, hp, rfl | ⟨serial, receipt, rfl⟩⟩ := arrived_process hstep hq
          · left
            rwa [System.raws, hp]
          · left
            rw [System.raws, hp]
            rwa [Option.elim_some, answer_raws] at hraw
  | started since =>
      simp only [Deployment.step] at hstep
      split at hstep
      · obtain ⟨_, hstep⟩ := Option.ite_none_right_eq_some.mp hstep
        cases hstep
        exact List.forall_mem_nil _
      · cases hstep
  | crashed =>
      cases hstep
      exact List.forall_mem_nil _
  | link a =>
      obtain ⟨p, hp, hstep⟩ := Option.bind_eq_some_iff.mp hstep
      obtain ⟨q, hq, hwork, _⟩ := (linkStep_links hp hstep).process
      rw [System.raws, System.raws, hp, hq, Option.elim_some, Option.elim_some, hwork]
      exact fun raw hraw => .inl hraw
  | work a =>
      obtain ⟨p, hp, hstep⟩ := Option.bind_eq_some_iff.mp hstep
      rw [System.raws, System.raws, hp]
      exact workStep_raws hstep

theorem step_sourced {u : System} {a : Act} (h : d.Sourced s t) (hstep : d.step t a = some u) :
    d.Sourced s u := by
  refine ⟨h.leads.tail hstep, ?_, ?_⟩
  · intro raw hraw
    obtain hheld | hwaits := step_raws hstep raw hraw
    · exact (h.raws raw hheld).step hstep
    · exact ⟨t, h.leads, .single ⟨a, trivial, hstep⟩, hwaits⟩
  · intro row hrow
    obtain ⟨q, hq, hid, htarget, hpayload⟩ | ⟨raw, hraw, m, command, hcommanded⟩ :=
      (step_writes hstep).rows row hrow
    · exact ((h.rows q hq).same hid.symm htarget.symm hpayload.symm).step hstep
    · exact .inr ⟨raw, m, command, (h.raws raw hraw).step hstep, hcommanded⟩

theorem leads_sourced (hstart : s.Initial) (hleads : d.Leads s t) : d.Sourced s t := by
  refine Runs.Leads.invariant (P := d.Sourced s) (fun _ _ _ h hstep => step_sourced h hstep) hleads
    ⟨.refl, ?_, fun row hrow => .inl ⟨row, hrow, rfl⟩⟩
  rw [System.raws, hstart.process]
  exact List.forall_mem_nil _

/-- **Only commands are posted.**  Under a validated configuration, every request, unless an earlier
adapter had prepared its message, carries the command that a message which waited among the raw ones
parses to, and goes to the binding of a registered role, which lies in the scope of the source. -/
theorem requests_commanded (d : Deployment) (host : Host) (s t : System) (post : Post)
    (hvalid : validate host d.gateway.config d.gateway.source = .ok ()) (hstart : s.Initial)
    (hleads : d.Leads s t) (hpost : post ∈ t.posts) :
    s.db.Prepared post.id ∨ ∃ raw row m command, d.Waited s t raw ∧
      d.gateway.Carries row post ∧ d.gateway.Commanded raw row m command ∧
        inScope d.gateway.source command.role post.target = true := by
  obtain ⟨row, hrow, hcarries⟩ := (leads_carried hstart hleads).posts post hpost
  obtain hold | ⟨raw, m, command, hwaited, hcommanded⟩ := (leads_sourced hstart hleads).rows row hrow
  · left
    rwa [hcarries.1]
  · refine .inr ⟨raw, row, m, command, hwaited, hcarries, hcommanded, ?_⟩
    rw [hcarries.2.1, hcommanded.target_eq]
    exact validate_scope hvalid (parse_some hcommanded.parsed).role

end carried

/-- A host on which the credential of the sample is a UUID. -/
def sampleHost : Host where
  home := "/home/user"
  isUuid text := text = "00000000-0000-4000-8000-000000000001"

theorem requests_commanded_sample :
    ∃ t post raw row m command, sampleDeployment.Leads (sampleStart []) t ∧ post ∈ t.posts ∧
      sampleDeployment.Waited (sampleStart []) t raw ∧ sampleGateway.Carries row post ∧
        sampleGateway.Commanded raw row m command ∧
          inScope "discord-example" command.role post.target = true := by
  have hvalid : validate sampleHost sampleConfig "discord-example" = .ok () := by decide +kernel
  have hrun : (Runs.run? sampleDeployment.step repostActs (sampleStart [])).any
      (fun t => t.posts ≠ []) = true := by
    decide +kernel
  obtain ⟨t, ht, hposts⟩ := Option.any_eq_true _ _ |>.mp hrun
  obtain ⟨post, hpost⟩ := List.exists_mem_of_ne_nil _ (of_decide_eq_true hposts)
  have hleads : sampleDeployment.Leads (sampleStart []) t := Runs.leads_run ht
  obtain ⟨row, hrow, _⟩ | ⟨raw, row, m, command, hwaited, hcarries, hcommanded, hscope⟩ :=
    requests_commanded sampleDeployment sampleHost (sampleStart []) t post hvalid
      sampleStart_initial hleads hpost
  · exact absurd hrow (Table.not_mem_empty row)
  · exact ⟨t, post, raw, row, m, command, hleads, hpost, hwaited, hcarries, hcommanded, hscope⟩

end Discord

end CodexMonitor
