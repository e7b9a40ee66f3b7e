import CodexMonitor.Discord.System

/-!
# What the sequence and the cursors promise

The number of the last event and the cursor of a channel are written after the messages
they stand for.  So at every moment, right after a crash too, a resumed session and a
recovered history start behind stored messages only.
-/

namespace CodexMonitor

namespace Discord

/-! ## The start -/

/-- Before the first start: what an earlier adapter has prepared may be there. -/
structure System.Initial (s : System) : Prop where
  raw : s.db.raw = .empty
  cursors : s.db.cursors = ∅
  session : s.db.session = none
  seed : s.db.seed = none
  process : s.process = none
  sessions : ∀ sid, s.sessions sid = []
  history : ∀ channel, (s.history channel).Pairwise fun a b => snow a < snow b
  posts : s.posts = []
  flying : s.flying = []

theorem System.Initial.disjoint {s : System} (h : s.Initial) : s.db.Disjoint := by
  intro id hwaits _
  obtain ⟨r, hr, _⟩ := hwaits
  rw [h.raw] at hr
  exact Table.not_mem_empty r hr

/-! ## Frames -/

section frames

variable {g : Gateway} {d : Deployment} {s t : System} {p : Process}

/-- What the worker leaves alone. -/
structure Rests (s t : System) (p : Process) : Prop where
  process : ∃ work, t.process = some { p with work := work }
  sessions : t.sessions = s.sessions
  history : t.history = s.history
  receiver : t.receiver = s.receiver
  session : t.db.session = s.db.session
  cursors : t.db.cursors = s.db.cursors
  seed : t.db.seed = s.db.seed

theorem workStep_rests {a : WorkAct} (h : g.workStep s p a = some t) : Rests s t p := by
  cases a with
  | selectRaw | gaveUp | selectUnseen now =>
      simp only [Gateway.workStep] at h
      split at h
      · cases h
        exact ⟨⟨_, rfl⟩, rfl, rfl, rfl, rfl, rfl, rfl⟩
      · cases h
  | prepared w | selectDue now | posted =>
      simp only [Gateway.workStep] at h
      split at h
      · split at h
        · cases h
          exact ⟨⟨_, rfl⟩, rfl, rfl, rfl, rfl, rfl, rfl⟩
        · cases h
          exact ⟨⟨_, rfl⟩, rfl, rfl, rfl, rfl, rfl, rfl⟩
      · cases h
  | noted now =>
      simp only [Gateway.workStep] at h
      split at h
      · rename_i row receipt rows _
        cases h
        cases receipt with
        | none => exact ⟨⟨_, rfl⟩, rfl, rfl, rfl, rfl, rfl, rfl⟩
        | some receipt => exact ⟨⟨_, rfl⟩, rfl, rfl, rfl, rfl, rfl, rfl⟩
      · cases h
  | looked w =>
      simp only [Gateway.workStep] at h
      split at h
      · cases h
        split
        · exact ⟨⟨_, rfl⟩, rfl, rfl, rfl, rfl, rfl, rfl⟩
        · exact ⟨⟨_, rfl⟩, rfl, rfl, rfl, rfl, rfl, rfl⟩
        · exact ⟨⟨_, rfl⟩, rfl, rfl, rfl, rfl, rfl, rfl⟩
      · cases h
  | faltered =>
      cases h
      exact ⟨⟨_, rfl⟩, rfl, rfl, rfl, rfl, rfl, rfl⟩

theorem enqueue_tables (m : Value) (db : Adapter) :
    (g.enqueue m db).pending = db.pending ∧ (g.enqueue m db).session = db.session ∧
      (g.enqueue m db).cursors = db.cursors ∧ (g.enqueue m db).seed = db.seed := by
  unfold Gateway.enqueue
  split
  · exact ⟨rfl, rfl, rfl, rfl⟩
  · unfold Adapter.insertRaw
    split
    · exact ⟨rfl, rfl, rfl, rfl⟩
    · exact ⟨rfl, rfl, rfl, rfl⟩

theorem store_tables (v : Value) (db : Adapter) :
    (g.store v db).pending = db.pending ∧ (g.store v db).session = db.session ∧
      (g.store v db).cursors = db.cursors ∧ (g.store v db).seed = db.seed := by
  unfold Gateway.store
  split
  · exact enqueue_tables _ _
  · exact ⟨rfl, rfl, rfl, rfl⟩

/-- What is accepted is stored. -/
theorem enqueue_stored {m : Value} (db : Adapter) (h : (parse g.config m).isSome) :
    (g.enqueue m db).Stored (text m "id") := by
  obtain ⟨command, hparse⟩ := Option.isSome_iff_exists.mp h
  unfold Gateway.enqueue
  rw [hparse]
  exact Adapter.insertRaw_stored _

/-- What the connection and the recoveries leave alone. -/
structure Links (s t : System) (p : Process) : Prop where
  process : ∃ q, t.process = some q ∧ q.work = p.work ∧ q.seed = p.seed
  sessions : t.sessions = s.sessions
  history : t.history = s.history
  receiver : t.receiver = s.receiver
  posts : t.posts = s.posts
  flying : t.flying = s.flying
  pending : t.db.pending = s.db.pending
  seed : t.db.seed = s.db.seed

theorem recover_tables {seed : String} {history : String → List Value} {order : List Nat}
    {r : Recovery} {db db' : Adapter} {rs : List Recovery}
    (h : g.recover seed history order r db = some (db', rs)) :
    db'.pending = db.pending ∧ db'.session = db.session ∧ db'.seed = db.seed := by
  unfold Gateway.recover at h
  split at h
  · cases h
    exact ⟨rfl, rfl, rfl⟩
  · obtain ⟨_, h⟩ := Option.ite_none_right_eq_some.mp h
    cases h
    exact ⟨rfl, rfl, rfl⟩
  · cases h
    exact ⟨rfl, rfl, rfl⟩
  · split at h
    · cases h
    · obtain ⟨_, h⟩ := Option.ite_none_right_eq_some.mp h
      cases h
      obtain ⟨hpending, hsession, _, hseed⟩ := enqueue_tables _ _
      exact ⟨hpending, hsession, hseed⟩

theorem linkStep_links {a : LinkAct} (hp : s.process = some p) (h : g.linkStep s p a = some t) :
    Links s t p := by
  cases a with
  | identified sid =>
      obtain ⟨_, h⟩ := Option.ite_none_right_eq_some.mp h
      cases h
      exact ⟨⟨_, rfl, rfl, rfl⟩, rfl, rfl, rfl, rfl, rfl, rfl, rfl⟩
  | resumed =>
      simp only [Gateway.linkStep] at h
      split at h
      · cases h
        exact ⟨⟨_, rfl, rfl, rfl⟩, rfl, rfl, rfl, rfl, rfl, rfl, rfl⟩
      · cases h
  | received =>
      obtain ⟨l, _, h⟩ := Option.bind_eq_some_iff.mp h
      obtain ⟨_, h⟩ := Option.ite_none_left_eq_some.mp h
      obtain ⟨v, _, rfl⟩ := Option.map_eq_some_iff.mp h
      obtain ⟨hpending, _, _, hseed⟩ := store_tables (g := g) v s.db
      split
      · exact ⟨⟨_, rfl, rfl, rfl⟩, rfl, rfl, rfl, rfl, rfl, rfl, rfl⟩
      · exact ⟨⟨_, rfl, rfl, rfl⟩, rfl, rfl, rfl, rfl, rfl, hpending, hseed⟩
  | saved =>
      obtain ⟨l, _, h⟩ := Option.bind_eq_some_iff.mp h
      obtain ⟨_, h⟩ := Option.ite_none_right_eq_some.mp h
      cases h
      exact ⟨⟨_, rfl, rfl, rfl⟩, rfl, rfl, rfl, rfl, rfl, rfl, rfl⟩
  | closed reset =>
      cases h
      exact ⟨⟨_, rfl, rfl, rfl⟩, rfl, rfl, rfl, rfl, rfl, rfl, rfl⟩
  | kept =>
      obtain ⟨_, h⟩ := Option.ite_none_right_eq_some.mp h
      cases h
      exact ⟨⟨p, hp, rfl, rfl⟩, rfl, rfl, rfl, rfl, rfl, rfl, rfl⟩
  | recovered i order =>
      obtain ⟨r, _, h⟩ := Option.bind_eq_some_iff.mp h
      obtain ⟨found, hfound, rfl⟩ := Option.map_eq_some_iff.mp h
      obtain ⟨hpending, _, hseed⟩ := recover_tables hfound
      exact ⟨⟨_, rfl, rfl, rfl⟩, rfl, rfl, rfl, rfl, rfl, hpending, hseed⟩
  | aborted i =>
      cases h
      exact ⟨⟨_, rfl, rfl, rfl⟩, rfl, rfl, rfl, rfl, rfl, rfl, rfl⟩

end frames

/-! ## Sessions -/

/-- The message of an event is stored, if the event has an accepted one. -/
def Gateway.Taken (g : Gateway) (db : Adapter) (v : Value) : Prop :=
  text v "t" = "MESSAGE_CREATE" → (parse g.config (field v "d")).isSome →
    db.Stored (text (field v "d") "id")

/-- Every event of a session up to a number is taken. -/
def Gateway.TakenTo (g : Gateway) (s : System) (sid : String) (n : Nat) : Prop :=
  ∀ v ∈ s.sessions sid, number v ≤ n → g.Taken s.db v

/-- The events of a session: numbered in order, READY first. -/
structure Numbered (sid : String) (events : List Value) : Prop where
  ordered : events.Pairwise fun a b => number a < number b
  positive : ∀ v ∈ events, 0 < number v
  first : ∀ v rest, events = v :: rest → text v "t" = "READY"
  ready : ∀ v ∈ events, text v "t" = "READY" → text (field v "d") "session_id" = sid

/-- Everything up to the number of a session is taken. -/
def Gateway.Safe (g : Gateway) (s : System) (session : Session) : Prop :=
  ∀ sid n, session.id = some sid → session.seq = some n →
    (∃ v ∈ s.sessions sid, number v = n) ∧ g.TakenTo s sid n

/-- Everything that came over a connection is taken, and its session is known once something
came. -/
structure Gateway.Attached (g : Gateway) (s : System) (session : Session) (l : Live) : Prop where
  taken : g.TakenTo s l.sid l.seen
  reached : l.seen = 0 ∨
    (session.id = some l.sid ∧ ∃ v ∈ s.sessions l.sid, number v = l.seen)

/-- The invariant of the sequence numbers. -/
structure Gateway.Sequenced (g : Gateway) (s : System) : Prop where
  numbered : ∀ sid, Numbered sid (s.sessions sid)
  saved : ∀ x, s.db.session = some x → g.Safe s x
  memory : ∀ p, s.process = some p → g.Safe s p.session
  live : ∀ p l, s.process = some p → p.live = some l → g.Attached s p.session l

section sequence

variable {g : Gateway} {d : Deployment} {s t : System} {p : Process} {sid : String} {n : Nat}
  {v : Value} {x : Session} {l : Live}

theorem store_taken (v : Value) (db : Adapter) : g.Taken (g.store v db) v := by
  intro htype haccepted
  unfold Gateway.store
  rw [if_pos htype]
  exact enqueue_stored db haccepted

/-- Nothing is lost, and new events have new numbers. -/
structure Grows (s t : System) : Prop where
  keeps : s.db.Keeps t.db
  grown : ∀ sid, ∃ added, t.sessions sid = s.sessions sid ++ added ∧
    ∀ v ∈ added, 0 < number v ∧ ∀ u ∈ s.sessions sid, number u < number v

theorem Grows.of_same (hkeeps : s.db.Keeps t.db) (hsessions : t.sessions = s.sessions) :
    Grows s t := by
  refine ⟨hkeeps, fun sid => ⟨[], ?_, List.forall_mem_nil _⟩⟩
  rw [hsessions, List.append_nil]

theorem Gateway.TakenTo.grows (h : g.TakenTo s sid n) (hgrows : Grows s t)
    (hn : n = 0 ∨ ∃ v ∈ s.sessions sid, number v = n) : g.TakenTo t sid n := by
  intro v hv hle
  obtain ⟨added, hadded, hnew⟩ := hgrows.grown sid
  rw [hadded] at hv
  obtain hv | hv := List.mem_append.mp hv
  · intro htype haccepted
    exact hgrows.keeps.stored _ (h v hv hle htype haccepted)
  · -- a new event has a number after every old one
    obtain ⟨hpositive, hafter⟩ := hnew v hv
    obtain rfl | ⟨u, hu, rfl⟩ := hn
    · omega
    · have hlt := hafter u hu
      omega

theorem Grows.mem (hgrows : Grows s t) (hv : v ∈ s.sessions sid) : v ∈ t.sessions sid := by
  obtain ⟨added, hadded, _⟩ := hgrows.grown sid
  rw [hadded]
  exact List.mem_append_left _ hv

theorem Gateway.Safe.grows (h : g.Safe s x) (hgrows : Grows s t) : g.Safe t x := by
  intro sid n hid hseq
  obtain ⟨⟨v, hv, hnumber⟩, htaken⟩ := h sid n hid hseq
  exact ⟨⟨v, hgrows.mem hv, hnumber⟩, htaken.grows hgrows (.inr ⟨v, hv, hnumber⟩)⟩

theorem Gateway.Attached.grows (h : g.Attached s x l) (hgrows : Grows s t) : g.Attached t x l := by
  refine ⟨h.taken.grows hgrows (h.reached.imp_right And.right), ?_⟩
  obtain hzero | ⟨hid, v, hv, hnumber⟩ := h.reached
  · exact .inl hzero
  · exact .inr ⟨hid, v, hgrows.mem hv, hnumber⟩

theorem safe_empty : g.Safe s .empty := by
  intro sid n hid _
  cases hid

/-- The first event after a number. -/
theorem find_number {events : List Value} (hordered : events.Pairwise fun a b => number a < number b)
    (h : (events.find? fun v => n < number v) = some v) :
    v ∈ events ∧ n < number v ∧ ∀ u ∈ events, number u ≤ n ∨ u = v ∨ number v < number u := by
  obtain ⟨hv, front, back, rfl, hfront⟩ := List.find?_eq_some_iff_append.mp h
  refine ⟨List.mem_of_find?_eq_some h, of_decide_eq_true hv, fun u hu => ?_⟩
  obtain hu | hu := List.mem_append.mp hu
  · left
    have hnot := hfront u hu
    simpa using hnot
  · obtain rfl | hu := List.mem_cons.mp hu
    · exact .inr (.inl rfl)
    · exact .inr (.inr (List.rel_of_pairwise_cons (List.pairwise_append.mp hordered).2.1 hu))

/-- The event after the ones that came is stored before its number is known. -/
theorem received_attached (h : g.Sequenced s) (hp : s.process = some p) (hl : p.live = some l)
    (hfind : ((s.sessions l.sid).find? fun v => l.seen < number v) = some v)
    (hsessions : t.sessions = s.sessions) (hdb : t.db = g.store v s.db) :
    g.Attached t (g.dispatch v p).session ⟨l.sid, number v, true⟩ ∧
      g.Safe t (g.dispatch v p).session := by
  have hnumbered := h.numbered l.sid
  have hattached := h.live p l hp hl
  obtain ⟨hv, hlt, hothers⟩ := find_number hnumbered.ordered hfind
  have hkeeps : s.db.Keeps t.db := by
    rw [hdb]
    unfold Gateway.store
    split
    · exact enqueue_keeps _
    · exact .refl _
  have htaken : g.TakenTo t l.sid (number v) := by
    intro u hu hle
    rw [hsessions] at hu
    obtain hbefore | rfl | hafter := hothers u hu
    · intro htype haccepted
      exact hkeeps.stored _ (hattached.taken u hu hbefore htype haccepted)
    · rw [hdb]
      exact store_taken u s.db
    · omega
  have hid : (g.dispatch v p).session.id = some l.sid := by
    by_cases hready : text v "t" = "READY"
    · have hsid := hnumbered.ready v hv hready
      unfold Gateway.dispatch
      simp only [hready, if_true, hsid]
    · have hsame : (g.dispatch v p).session.id = p.session.id := by
        unfold Gateway.dispatch
        simp only [hready, if_false]
      rw [hsame]
      obtain hzero | ⟨hid, _⟩ := hattached.reached
      · -- the first event of a session is READY
        obtain ⟨u, rest, hlog⟩ := List.exists_cons_of_ne_nil (List.ne_nil_of_mem hv)
        have hpositive := hnumbered.positive u (by rw [hlog]; exact List.mem_cons_self)
        rw [hlog, List.find?_cons_of_pos (by simpa [hzero] using hpositive)] at hfind
        obtain rfl := Option.some.inj hfind
        exact absurd (hnumbered.first u rest hlog) hready
      · exact hid
  have hseq : (g.dispatch v p).session.seq = some (number v) := by
    unfold Gateway.dispatch number
    unfold number at hlt
    cases hs : (field v "s").asU64 with
    | none =>
        rw [hs] at hlt
        exact absurd hlt (Nat.not_lt_zero _)
    | some n => rfl
  have hmem : v ∈ t.sessions l.sid := by
    rw [hsessions]
    exact hv
  refine ⟨⟨htaken, .inr ⟨hid, v, hmem, rfl⟩⟩, ?_⟩
  intro sid n hsid hn
  rw [hid] at hsid
  rw [hseq] at hn
  obtain rfl := Option.some.inj hsid
  obtain rfl := Option.some.inj hn
  exact ⟨⟨v, hmem, rfl⟩, htaken⟩

theorem step_grows {a : Act} (hstep : d.step s a = some t) : Grows s t := by
  have hkeeps := step_keeps hstep
  cases a with
  | opened sid v =>
      obtain ⟨⟨hnew, _, _, hpositive⟩, hstep⟩ := Option.ite_none_right_eq_some.mp hstep
      cases hstep
      refine ⟨hkeeps, fun other => ?_⟩
      by_cases hsid : other = sid
      · subst hsid
        refine ⟨[v], ?_, ?_⟩
        · simp only [Function.update_self, hnew, List.nil_append]
        · intro u hu
          obtain rfl := List.mem_singleton.mp hu
          rw [hnew]
          exact ⟨hpositive, List.forall_mem_nil _⟩
      · refine ⟨[], ?_, List.forall_mem_nil _⟩
        simp only [Function.update_of_ne hsid, List.append_nil]
  | dispatched sid v =>
      obtain ⟨⟨hopen, _, hafter⟩, hstep⟩ := Option.ite_none_right_eq_some.mp hstep
      cases hstep
      refine ⟨hkeeps, fun other => ?_⟩
      by_cases hsid : other = sid
      · subst hsid
        refine ⟨[v], by simp only [Function.update_self], fun u hu => ?_⟩
        obtain rfl := List.mem_singleton.mp hu
        obtain ⟨first, hfirst⟩ := List.exists_mem_of_ne_nil _ hopen
        exact ⟨Nat.zero_lt_of_lt (hafter first hfirst), hafter⟩
      · refine ⟨[], ?_, List.forall_mem_nil _⟩
        simp only [Function.update_of_ne hsid, List.append_nil]
  | written channel m | called op =>
      obtain ⟨_, hstep⟩ := Option.ite_none_right_eq_some.mp hstep
      cases hstep
      exact .of_same hkeeps rfl
  | arrived n uuid now answered =>
      obtain ⟨post, _, rfl⟩ := Option.map_eq_some_iff.mp hstep
      exact .of_same hkeeps rfl
  | started since =>
      simp only [Deployment.step] at hstep
      split at hstep
      · obtain ⟨_, hstep⟩ := Option.ite_none_right_eq_some.mp hstep
        cases hstep
        exact .of_same hkeeps rfl
      · cases hstep
  | crashed =>
      cases hstep
      exact .of_same hkeeps rfl
  | link a =>
      obtain ⟨p, hp, hstep⟩ := Option.bind_eq_some_iff.mp hstep
      exact .of_same hkeeps (linkStep_links hp hstep).sessions
  | work a =>
      obtain ⟨p, _, hstep⟩ := Option.bind_eq_some_iff.mp hstep
      exact .of_same hkeeps (workStep_rests hstep).sessions

theorem linkStep_sequenced (h : g.Sequenced s) (hp : s.process = some p) {a : LinkAct}
    (hstep : g.linkStep s p a = some t) : g.Sequenced t := by
  have hsessions := (linkStep_links hp hstep).sessions
  have hgrows : Grows s t := .of_same (linkStep_writes [] hstep).keeps hsessions
  have hnumbered : ∀ sid, Numbered sid (t.sessions sid) := by
    rw [hsessions]
    exact h.numbered
  have hmemory := (h.memory p hp).grows hgrows
  cases a with
  | identified sid =>
      obtain ⟨_, hstep⟩ := Option.ite_none_right_eq_some.mp hstep
      cases hstep
      refine ⟨hnumbered, h.saved, ?_, ?_⟩
      · intro q hq
        cases hq
        exact hmemory
      · intro q l hq hl
        cases hq
        cases hl
        refine ⟨fun v hv hle => ?_, .inl rfl⟩
        have hpositive := (h.numbered sid).positive v hv
        exact absurd hle (Nat.not_le_of_lt hpositive)
  | resumed =>
      simp only [Gateway.linkStep] at hstep
      split at hstep
      · rename_i sid seq _ hid hseq
        cases hstep
        refine ⟨hnumbered, h.saved, ?_, ?_⟩
        · intro q hq
          cases hq
          exact hmemory
        · intro q l hq hl
          cases hq
          cases hl
          obtain ⟨hreached, htaken⟩ := h.memory p hp sid seq hid hseq
          exact ⟨htaken, .inr ⟨hid, hreached⟩⟩
      · cases hstep
  | received =>
      obtain ⟨l, hl, hstep⟩ := Option.bind_eq_some_iff.mp hstep
      obtain ⟨_, hstep⟩ := Option.ite_none_left_eq_some.mp hstep
      obtain ⟨v, hfind, hstep⟩ := Option.map_eq_some_iff.mp hstep
      split at hstep
      · obtain rfl := hstep
        refine ⟨hnumbered, h.saved, ?_, ?_⟩
        · intro q hq
          cases hq
          exact hmemory
        · intro q l hq hl
          cases hq
          cases hl
      · obtain rfl := hstep
        obtain ⟨hattached, hsafe⟩ := received_attached h hp hl hfind hsessions rfl
        refine ⟨hnumbered, ?_, ?_, ?_⟩
        · intro x hx
          rw [(store_tables v s.db).2.1] at hx
          exact (h.saved x hx).grows hgrows
        · intro q hq
          cases hq
          exact hsafe
        · intro q l' hq hl'
          cases hq
          cases hl'
          exact hattached
  | saved =>
      obtain ⟨l, hl, hstep⟩ := Option.bind_eq_some_iff.mp hstep
      obtain ⟨_, hstep⟩ := Option.ite_none_right_eq_some.mp hstep
      cases hstep
      refine ⟨hnumbered, ?_, ?_, ?_⟩
      · intro x hx
        cases hx
        exact hmemory
      · intro q hq
        cases hq
        exact hmemory
      · intro q l' hq hl'
        cases hq
        cases hl'
        have hattached := (h.live p l hp hl).grows hgrows
        exact ⟨hattached.taken, hattached.reached⟩
  | closed reset =>
      cases hstep
      refine ⟨hnumbered, h.saved, ?_, ?_⟩
      · intro q hq
        cases hq
        cases reset with
        | false => exact hmemory
        | true => exact safe_empty
      · intro q l hq hl
        cases hq
        cases hl
  | kept =>
      obtain ⟨hclosed, hstep⟩ := Option.ite_none_right_eq_some.mp hstep
      cases hstep
      refine ⟨hnumbered, ?_, ?_, ?_⟩
      · intro x hx
        cases hx
        exact hmemory
      · intro q hq
        exact (h.memory q hq).grows hgrows
      · intro q l hq hl
        exact (h.live q l hq hl).grows hgrows
  | recovered i order =>
      obtain ⟨r, _, hstep⟩ := Option.bind_eq_some_iff.mp hstep
      obtain ⟨found, hfound, rfl⟩ := Option.map_eq_some_iff.mp hstep
      obtain ⟨_, hsession, _⟩ := recover_tables hfound
      refine ⟨hnumbered, ?_, ?_, ?_⟩
      · intro x hx
        rw [hsession] at hx
        exact (h.saved x hx).grows hgrows
      · intro q hq
        cases hq
        exact hmemory
      · intro q l hq hl
        cases hq
        exact (h.live p l hp hl).grows hgrows
  | aborted i =>
      cases hstep
      refine ⟨hnumbered, h.saved, ?_, ?_⟩
      · intro q hq
        cases hq
        exact hmemory
      · intro q l hq hl
        cases hq
        exact (h.live p l hp hl).grows hgrows

theorem Numbered.opened (htype : text v "t" = "READY")
    (hid : text (field v "d") "session_id" = sid) (hpositive : 0 < number v) :
    Numbered sid [v] where
  ordered := List.pairwise_singleton _ _
  positive := by
    intro u hu
    obtain rfl := List.mem_singleton.mp hu
    exact hpositive
  first := by
    intro u rest heq
    obtain rfl := (List.cons.inj heq).1
    exact htype
  ready := by
    intro u hu _
    obtain rfl := List.mem_singleton.mp hu
    exact hid

theorem Numbered.append {events : List Value} (h : Numbered sid events) (hopen : events ≠ [])
    (htype : text v "t" ≠ "READY") (hafter : ∀ u ∈ events, number u < number v) :
    Numbered sid (events ++ [v]) where
  ordered := by
    rw [List.pairwise_append]
    refine ⟨h.ordered, List.pairwise_singleton _ _, fun u hu w hw => ?_⟩
    obtain rfl := List.mem_singleton.mp hw
    exact hafter u hu
  positive := by
    intro u hu
    obtain hu | hu := List.mem_append.mp hu
    · exact h.positive u hu
    · obtain rfl := List.mem_singleton.mp hu
      obtain ⟨first, hfirst⟩ := List.exists_mem_of_ne_nil _ hopen
      exact Nat.zero_lt_of_lt (hafter first hfirst)
  first := by
    intro u rest heq
    obtain ⟨first, more, rfl⟩ := List.exists_cons_of_ne_nil hopen
    obtain rfl := (List.cons.inj heq).1
    exact h.first first more rfl
  ready := by
    intro u hu hready
    obtain hu | hu := List.mem_append.mp hu
    · exact h.ready u hu hready
    · obtain rfl := List.mem_singleton.mp hu
      exact absurd hready htype

/-- A step that leaves the connection alone. -/
theorem Gateway.Sequenced.kept (h : g.Sequenced s) (hgrows : Grows s t)
    (hnumbered : ∀ sid, Numbered sid (t.sessions sid)) (hsession : t.db.session = s.db.session)
    (hprocess : ∀ q, t.process = some q →
      ∃ p, s.process = some p ∧ q.session = p.session ∧ q.live = p.live) : g.Sequenced t := by
  refine ⟨hnumbered, ?_, ?_, ?_⟩
  · intro x hx
    rw [hsession] at hx
    exact (h.saved x hx).grows hgrows
  · intro q hq
    obtain ⟨p, hp, hsame, _⟩ := hprocess q hq
    rw [hsame]
    exact (h.memory p hp).grows hgrows
  · intro q l hq hl
    obtain ⟨p, hp, hsame, hlive⟩ := hprocess q hq
    rw [hlive] at hl
    rw [hsame]
    exact (h.live p l hp hl).grows hgrows

theorem answer_link (p : Process) (serial : Nat) (receipt : Option String) :
    (p.answer serial receipt).session = p.session ∧ (p.answer serial receipt).live = p.live ∧
      (p.answer serial receipt).recoveries = p.recoveries ∧
        (p.answer serial receipt).seed = p.seed := by
  unfold Process.answer
  split
  · split
    · exact ⟨rfl, rfl, rfl, rfl⟩
    · exact ⟨rfl, rfl, rfl, rfl⟩
  · exact ⟨rfl, rfl, rfl, rfl⟩

/-- An answer reaches the process or does not. -/
theorem arrived_process {n : Nat} {uuid : Uuid} {now : Rat} {answered : Bool} {q : Process}
    (hstep : d.step s (.arrived n uuid now answered) = some t) (hq : t.process = some q) :
    ∃ p, s.process = some p ∧
      (q = p ∨ ∃ serial receipt, q = p.answer serial receipt) := by
  obtain ⟨post, _, rfl⟩ := Option.map_eq_some_iff.mp hstep
  cases answered with
  | false => exact ⟨q, hq, .inl rfl⟩
  | true =>
      obtain ⟨p, hp, rfl⟩ := Option.map_eq_some_iff.mp hq
      exact ⟨p, hp, .inr ⟨_, _, rfl⟩⟩

theorem step_sequenced (h : d.gateway.Sequenced s) {a : Act} (hstep : d.step s a = some t) :
    d.gateway.Sequenced t := by
  have hgrows := step_grows hstep
  cases a with
  | written channel m | called op =>
      obtain ⟨_, hstep⟩ := Option.ite_none_right_eq_some.mp hstep
      cases hstep
      exact h.kept hgrows h.numbered rfl fun q hq => ⟨q, hq, rfl, rfl⟩
  | opened sid v =>
      obtain ⟨⟨_, htype, hid, hpositive⟩, hstep⟩ := Option.ite_none_right_eq_some.mp hstep
      cases hstep
      refine h.kept hgrows (fun other => ?_) rfl fun q hq => ⟨q, hq, rfl, rfl⟩
      by_cases hsid : other = sid
      · subst hsid
        simp only [Function.update_self]
        exact .opened htype hid hpositive
      · simp only [Function.update_of_ne hsid]
        exact h.numbered other
  | dispatched sid v =>
      obtain ⟨⟨hopen, htype, hafter⟩, hstep⟩ := Option.ite_none_right_eq_some.mp hstep
      cases hstep
      refine h.kept hgrows (fun other => ?_) rfl fun q hq => ⟨q, hq, rfl, rfl⟩
      by_cases hsid : other = sid
      · subst hsid
        simp only [Function.update_self]
        exact (h.numbered other).append hopen htype hafter
      · simp only [Function.update_of_ne hsid]
        exact h.numbered other
  | arrived n uuid now answered =>
      have hprocess : ∀ q, t.process = some q →
          ∃ p, s.process = some p ∧ q.session = p.session ∧ q.live = p.live := by
        intro q hq
        obtain ⟨p, hp, rfl | ⟨serial, receipt, rfl⟩⟩ := arrived_process hstep hq
        · exact ⟨q, hp, rfl, rfl⟩
        · obtain ⟨hsession, hlive, _⟩ := answer_link p serial receipt
          exact ⟨p, hp, hsession, hlive⟩
      obtain ⟨post, _, rfl⟩ := Option.map_eq_some_iff.mp hstep
      exact h.kept hgrows h.numbered rfl hprocess
  | started since =>
      simp only [Deployment.step] at hstep
      split at hstep
      · obtain ⟨_, hstep⟩ := Option.ite_none_right_eq_some.mp hstep
        cases hstep
        have hsafe : d.gateway.Safe s (s.db.session.getD .empty) := by
          cases hsession : s.db.session with
          | none => exact safe_empty
          | some x => exact h.saved x hsession
        refine ⟨h.numbered, fun x hx => (h.saved x hx).grows hgrows, ?_, ?_⟩
        · intro q hq
          cases hq
          exact hsafe.grows hgrows
        · intro q l hq hl
          cases hq
          cases hl
      · cases hstep
  | crashed =>
      cases hstep
      refine h.kept hgrows h.numbered rfl fun q hq => ?_
      cases hq
  | link a =>
      obtain ⟨p, hp, hstep⟩ := Option.bind_eq_some_iff.mp hstep
      exact linkStep_sequenced h hp hstep
  | work a =>
      obtain ⟨p, hp, hstep⟩ := Option.bind_eq_some_iff.mp hstep
      have hrests := workStep_rests hstep
      refine h.kept hgrows ?_ hrests.session fun q hq => ?_
      · rw [hrests.sessions]
        exact h.numbered
      · obtain ⟨work, hwork⟩ := hrests.process
        rw [hwork] at hq
        cases hq
        exact ⟨p, hp, rfl, rfl⟩

theorem initial_sequenced (h : s.Initial) : g.Sequenced s := by
  refine ⟨fun sid => ?_, ?_, ?_, ?_⟩
  · rw [h.sessions]
    refine ⟨.nil, List.forall_mem_nil _, ?_, List.forall_mem_nil _⟩
    intro v rest heq
    cases heq
  · intro x hx
    rw [h.session] at hx
    cases hx
  · intro p hp
    rw [h.process] at hp
    cases hp
  · intro p l hp _
    rw [h.process] at hp
    cases hp

/-- **The sequence number never runs ahead.**  After any steps from the start, crashes among them,
every accepted message that came in the saved session up to the saved number is stored, so a resumed
session misses none. -/
theorem sequence_durable (d : Deployment) (s t : System) (x : Session) (sid : String) (n : Nat)
    (v : Value) (hstart : s.Initial) (hleads : d.Leads s t) (hx : t.db.session = some x)
    (hid : x.id = some sid) (hseq : x.seq = some n) (hv : v ∈ t.sessions sid) (hn : number v ≤ n)
    (htype : text v "t" = "MESSAGE_CREATE")
    (haccepted : (parse d.gateway.config (field v "d")).isSome) :
    t.db.Stored (text (field v "d") "id") := by
  have hsequenced : d.gateway.Sequenced t :=
    Runs.Leads.invariant (P := d.gateway.Sequenced) (fun s a t h hstep => step_sequenced h hstep)
      hleads (initial_sequenced hstart)
  obtain ⟨_, htaken⟩ := hsequenced.saved x hx sid n hid hseq
  exact htaken v hv hn htype haccepted

end sequence

theorem sampleStart_initial : (sampleStart []).Initial where
  raw := rfl
  cursors := rfl
  session := rfl
  seed := rfl
  process := rfl
  sessions _ := rfl
  history _ := .nil
  posts := rfl
  flying := rfl

/-- The process crashes after the number of the message is saved. -/
theorem sequence_durable_sample :
    ∃ t x, sampleDeployment.Leads (sampleStart []) t ∧ t.db.session = some x ∧ x.seq = some 2 ∧
      t.process.isNone = true ∧ t.db.Stored "66666666666666666" := by
  have hrun : (Runs.run? sampleDeployment.step (arrivalActs ++ [.crashed]) (sampleStart [])).any
      (fun t => t.process.isNone = true ∧
        (t.db.session.any fun x => x.id = some "session-1" ∧ x.seq = some 2) = true ∧
        ((t.sessions "session-1").any fun v => number v ≤ 2 ∧ text v "t" = "MESSAGE_CREATE" ∧
          (parse sampleConfig (field v "d")).isSome = true ∧
            text (field v "d") "id" = "66666666666666666") = true) = true := by
    decide +kernel
  obtain ⟨t, ht, hfacts⟩ := Option.any_eq_true _ _ |>.mp hrun
  obtain ⟨hcrashed, hsession, hevents⟩ := of_decide_eq_true hfacts
  obtain ⟨x, hx, hsaved⟩ := Option.any_eq_true _ _ |>.mp hsession
  obtain ⟨hid, hseq⟩ := of_decide_eq_true hsaved
  obtain ⟨v, hv, hevent⟩ := List.any_eq_true.mp hevents
  obtain ⟨hnumber, htype, haccepted, hmessage⟩ := of_decide_eq_true hevent
  have hleads : sampleDeployment.Leads (sampleStart []) t := Runs.leads_run ht
  have hstored := sequence_durable sampleDeployment (sampleStart []) t x "session-1" 2 v
    sampleStart_initial hleads hx hid hseq hv hnumber htype haccepted
  rw [hmessage] at hstored
  exact ⟨t, x, hleads, hx, hseq, hcrashed, hstored⟩

end Discord

end CodexMonitor
