import CodexMonitor.Lib.Lanes
import CodexMonitor.Store.Commits.Calls
import CodexMonitor.Store.Effects

/-!
# One binding, one event at a time, in order

The event table is a set of lanes: an event's number is its `seq`, its lane its
binding, and its state tells the phase.  Every entry of the journal is a step of
the lanes, so what the rules of the lanes imply holds of every run of the store,
whatever back-off, refund, expiry, recovery and the outbox do to the states.
-/

namespace CodexMonitor

open Transaction

/-- The phase of an event's state. -/
def EventState.phase : EventState → Lanes.Phase
  | .pending => .waiting
  | .submitting | .uncertain => .inFlight
  | .accepted => .done
  | .dead | .ignored => .dropped

/-- The event table as lanes. -/
def Db.lanes (db : Db) : Lanes.State Nat String := fun seq =>
  (db.events.find? fun e => e.seq = seq).map fun e => (e.binding, e.state.phase)

theorem Db.lanes_of_mem {db : Db} {e : Event} (he : e ∈ db.events) :
    db.lanes e.seq = some (e.binding, e.state.phase) := by
  have hfind : (db.events.find? fun f => f.seq = e.seq) = some e :=
    Table.find?_eq_of_unique he rfl fun f hf hseq => Event.eq_of_seq hf he hseq
  unfold Db.lanes
  rw [hfind]
  rfl

theorem Db.lanes_eq_some {db : Db} {seq : Nat} {lane : String} {p : Lanes.Phase} :
    db.lanes seq = some (lane, p) ↔
      ∃ e ∈ db.events, e.seq = seq ∧ e.binding = lane ∧ e.state.phase = p := by
  constructor
  · intro h
    obtain ⟨e, hfind, heq⟩ := Option.map_eq_some_iff.mp h
    obtain ⟨he, hseq⟩ := Table.find?_some hfind
    simp only [Prod.mk.injEq] at heq
    exact ⟨e, he, hseq, heq.1, heq.2⟩
  · rintro ⟨e, he, rfl, rfl, rfl⟩
    exact Db.lanes_of_mem he

theorem Db.lanes_eq_none {db : Db} {seq : Nat} :
    db.lanes seq = none ↔ ∀ e ∈ db.events, e.seq ≠ seq := by
  unfold Db.lanes
  rw [Option.map_eq_none_iff]
  exact Table.find?_none

theorem EventState.settled_iff {state : EventState} :
    state.phase.Settled ↔ state = .accepted ∨ state = .dead ∨ state = .ignored := by
  cases state <;> simp [EventState.phase, Lanes.Phase.Settled]

theorem EventState.phase_of_inFlight {state : EventState} (h : state.inFlight = true) :
    state.phase = .inFlight := by
  cases state with
  | submitting | uncertain => rfl
  | pending | accepted | dead | ignored => cases h

/-- `NOT EXISTS` an earlier open event: the lane is clear. -/
theorem Db.NoEarlierOpen.clear {db : Db} {e : Event} (h : db.NoEarlierOpen e) :
    Lanes.Clear db.lanes e.binding e.seq := by
  intro seq hlt p hp
  obtain ⟨f, hf, rfl, hbinding, rfl⟩ := Db.lanes_eq_some.mp hp
  have hclosed : ¬ f.state.isOpen = true := fun hopen => h ⟨f, hf, hbinding, hlt, hopen⟩
  cases hstate : f.state with
  | accepted | dead | ignored => trivial
  | pending | submitting | uncertain => exact absurd (by rw [hstate]; rfl) hclosed

/-- What an entry does to an event is a move of its lane. -/
theorem Entry.onEvent_moves {crates : Crates} {db : Db} {k : Entry} (h : k.Enabled crates db)
    {e : Event} (he : e ∈ db.events) :
    Lanes.Moves db.lanes e.binding e.seq e.state.phase (k.onEvent e).state.phase := by
  cases k with
  | route name action now =>
      simp only [Entry.onEvent, Event.killed]
      split
      · split
        · rename_i hpending
          rw [hpending.2]
          exact .drop (by decide)
        · exact .stay _
      · exact .stay _
  | expire f now =>
      simp only [Entry.onEvent]
      split
      · rename_i hid
        obtain rfl := Event.eq_of_id he h.1 hid
        rw [h.2.1.1]
        exact .drop (by decide)
      · exact .stay _
  | submit f now =>
      simp only [Entry.onEvent]
      split
      · rename_i hid
        obtain rfl := Event.eq_of_id he h.1 hid.1
        rw [hid.2]
        exact .start h.2.1.2.2.2.clear
      · exact .stay _
  | finish f state submissionId error now =>
      simp only [Entry.onEvent]
      split
      · rename_i hid
        obtain rfl := Event.eq_of_id he h.1 hid
        obtain ⟨_, hflight, hne, _⟩ := h
        rw [EventState.phase_of_inFlight hflight]
        cases state with
        | pending => exact .back
        | submitting => exact absurd rfl hne
        | uncertain => exact .stay _
        | accepted => exact .finish
        | dead | ignored => exact .drop (by decide)
      · exact .stay _
  | defer f error now =>
      simp only [Entry.onEvent]
      split
      · rename_i hid
        obtain rfl := Event.eq_of_id he h.1 hid
        rw [h.2]
        exact .back
      · exact .stay _
  | recover nextAt now =>
      simp only [Entry.onEvent]
      split
      · rename_i hstate
        rw [hstate]
        exact .stay _
      · exact .stay _
  | _ => exact .stay _

/-- A new event comes after every stored one and waits or is settled. -/
theorem Entry.newEvent_waits {crates : Crates} {db : Db} {k : Entry} {e : Event}
    (h : k.Enabled crates db) (hnew : k.newEvent? = some e) :
    (e.state = .pending ∨ e.state = .ignored) ∧ ∀ f ∈ db.events, f.seq < e.seq := by
  have hfresh := Entry.fresh_of_new h hnew
  constructor
  · cases k with
    | store f =>
        cases hnew
        exact h.2.1
    | deliver n f now =>
        cases hnew
        exact Or.inl h.2.2.2.2.2.2.2.1
    | _ => cases hnew
  · intro f hf
    rw [hfresh.2.1]
    exact Table.lt_nextSeq hf

/-- Every entry is a step of the lanes. -/
theorem Entry.lanes_step {crates : Crates} {db : Db} {k : Entry} (h : k.Enabled crates db) :
    Lanes.Step db.lanes (k.apply crates db).lanes where
  moves := by
    intro seq lane p hp
    obtain ⟨e, he, rfl, rfl, rfl⟩ := Db.lanes_eq_some.mp hp
    have hkey := Event.key_eq (k.onEvent_key e)
    have hafter : k.onEvent e ∈ (k.apply crates db).events :=
      (Entry.mem_events h).mpr (Or.inl ⟨e, he, rfl⟩)
    refine ⟨_, Db.lanes_eq_some.mpr ⟨k.onEvent e, hafter, hkey.1, ?_, rfl⟩, ?_⟩
    · exact hkey.2.2.2.1
    · exact Entry.onEvent_moves h he
  arrivals := by
    intro seq lane p hnone hp
    obtain ⟨e, he, rfl, rfl, rfl⟩ := Db.lanes_eq_some.mp hp
    rcases (Entry.mem_events h).mp he with ⟨f, hf, rfl⟩ | hnew
    · exact absurd (Event.key_eq (k.onEvent_key f)).1.symm (Db.lanes_eq_none.mp hnone f hf)
    · obtain ⟨hstate, hlast⟩ := Entry.newEvent_waits h hnew
      constructor
      · rcases hstate with hs | hs
        · rw [hs]
          exact id
        · rw [hs]
          exact id
      · intro seq hused
        by_contra hle
        refine hused (Db.lanes_eq_none.mpr fun f hf heq => hle ?_)
        rw [← heq]
        exact hlast f hf

/-- A journal is a run of the lanes. -/
theorem Journal.lanes_run {crates : Crates} {db db' : Db} {ks : List Entry}
    (h : Journal crates db ks db') : Lanes.Run db.lanes db'.lanes := by
  induction h with
  | nil db => exact .refl
  | cons enabled _ ih => exact Relation.ReflTransGen.head (Entry.lanes_step enabled) ih

theorem Op.lanes_run (crates : Crates) (op : Op) (db : Db) :
    Lanes.Run db.lanes (op.step crates db).lanes := by
  obtain ⟨ks, _, hj⟩ := op.commits crates db
  exact hj.lanes_run

theorem Leads.lanes_run {crates : Crates} {db db' : Db} (h : Leads crates db db') :
    Lanes.Run db.lanes db'.lanes :=
  Leads.invariant (P := fun d => Lanes.Run db.lanes d.lanes) h
    (fun _ _ hk hrun => hrun.tail (Entry.lanes_step hk)) .refl

theorem Reachable.ordered {crates : Crates} {db : Db} (h : Reachable crates db) :
    Lanes.Ordered db.lanes := by
  refine Lanes.Run.ordered (Leads.lanes_run h) ?_
  intro seq lane p hp
  obtain ⟨e, he, _⟩ := Db.lanes_eq_some.mp hp
  exact absurd he (Table.not_mem_empty e)

/-! ## What a claim hands out -/

/-- What a claim hands out: `e`, submitted at a reading of the clock. -/
def Submitted (crates : Crates) (clock : Nat → Rat) (d t : Db) (c : ClaimedEvent) (e : Event) :
    Prop :=
  ∃ j, (Entry.submit e (clock j)).Enabled crates d ∧
    t = (Entry.submit e (clock j)).apply crates d ∧
    c.row = (Entry.submit e (clock j)).onEvent e ∧ t.claimedEvent crates c.row = .ok c

/-- Stale events expire. -/
def Expires (crates : Crates) : Db → Db → Prop :=
  Commits crates fun k => ∃ e now, k = .expire e now

/-- A claim expires stale events first.  Then it submits a fresh one, and the answer is the
submitted row with its envelope and its route; or it finds nothing to hand out. -/
theorem claimLoop_ok {crates : Crates} {clock : Nat → Rat} {fuel i : Nat} {db t : Db}
    {answer : Option ClaimedEvent}
    (h : (claimLoop crates clock fuel i).run db = (.ok answer, t)) :
    ∃ d, Expires crates db d ∧ (answer = none → t = d) ∧
      ∀ c ∈ answer, ∃ e, Submitted crates clock d t c e := by
  induction fuel generalizing db i with
  | zero => exact (Tx.fail_ok.mp h).elim
  | succ fuel ih =>
      simp only [claimLoop, Tx.bind_ok, Tx.query_ok] at h
      obtain ⟨row, _, ⟨hrow, rfl⟩, h⟩ := h
      split at h
      · obtain ⟨rfl, rfl⟩ := Tx.pure_ok.mp h
        refine ⟨db, .refl _ _, ?_, ?_⟩
        · intro _
          rfl
        · intro c hc
          cases hc
      · rename_i e
        obtain ⟨he, hclaimable⟩ := Table.mem_select.mp (List.mem_of_mem_head? hrow)
        split at h
        · rename_i hstale
          simp only [Tx.bind_ok, Tx.write_ok] at h
          obtain ⟨_, _, rfl, _, _, rfl, h⟩ := h
          have hexpire : Expires crates db ((Entry.expire e (clock i)).apply crates db) :=
            .one ⟨e, clock i, rfl⟩ ⟨he, hclaimable, hstale.2⟩
          obtain ⟨d, hexpires, hrest⟩ := ih h
          exact ⟨d, hexpire.trans hexpires, hrest⟩
        · rename_i hfresh
          simp only [Tx.bind_ok, Tx.write_ok, Tx.query_ok, Tx.expect_ok, Tx.ofExcept_ok,
            Tx.pure_ok, if_pos hclaimable.1] at h
          obtain ⟨_, _, rfl, found, _, ⟨hfound, rfl⟩, r, _, ⟨rfl, rfl⟩, _, _, ⟨rfl, rfl⟩, c', _,
            ⟨hc, rfl⟩, rfl, rfl⟩ := h
          have hage : clock i - e.created ≤ maxAgeSeconds :=
            not_lt.mp fun hstale => hfresh ⟨hclaimable.1, hstale⟩
          have henabled : (Entry.submit e (clock i)).Enabled crates db := ⟨he, hclaimable, hage⟩
          -- the row read back is the one just written: ids are unique
          obtain ⟨hr, hid⟩ := Table.find?_some hfound
          have hkey := Event.key_eq ((Entry.submit e (clock i)).onEvent_key e)
          have hwritten : (Entry.submit e (clock i)).onEvent e ∈
              ((Entry.submit e (clock i)).apply crates db).events :=
            (Entry.mem_events henabled).mpr (Or.inl ⟨e, he, rfl⟩)
          have hsame : r = (Entry.submit e (clock i)).onEvent e :=
            Event.eq_of_id hr hwritten (hid.trans hkey.2.1.symm)
          have hrow : c'.row = r := by
            unfold Db.claimedEvent at hc
            split at hc
            · cases hc
            split at hc
            · cases hc
            · obtain rfl := Except.ok.inj hc
              rfl
          refine ⟨db, .refl _ _, fun hnone => absurd hnone (Option.some_ne_none c'), fun c hmem => ?_⟩
          cases hmem
          refine ⟨e, i, henabled, rfl, hrow.trans hsame, ?_⟩
          rw [hrow]
          exact hc

theorem claim_ok {crates : Crates} {clock : Nat → Rat} {db t : Db}
    {answer : Option ClaimedEvent} (h : (claim crates clock).run db = (.ok answer, t)) :
    ∃ d, Expires crates db d ∧ (answer = none → t = d) ∧
      ∀ c ∈ answer, ∃ e, Submitted crates clock d t c e := by
  simp only [claim, withTx, Tx.atomically_ok, Tx.bind_ok, Tx.query_ok] at h
  obtain ⟨_, _, ⟨_, rfl⟩, h⟩ := h
  exact claimLoop_ok h

/-- The claimed row: the pending event `e`, submitted at a reading of the clock at which it is
not too old. -/
theorem claimed_row {crates : Crates} {clock : Nat → Rat} {db t : Db} {c : ClaimedEvent}
    (h : (claim crates clock).run db = (.ok (some c), t)) :
    c.row ∈ t.events ∧ c.row.state = .submitting ∧
      ∃ j, c.row.updated = clock j ∧ clock j - c.row.created ≤ maxAgeSeconds := by
  obtain ⟨d, _, _, hsubmitted⟩ := claim_ok h
  obtain ⟨e, j, henabled, rfl, hrow, _⟩ := hsubmitted c rfl
  have hsubmitted : (Entry.submit e (clock j)).onEvent e =
      { e with state := .submitting, attempts := e.attempts + 1, updated := clock j } :=
    if_pos ⟨rfl, henabled.2.1.1⟩
  refine ⟨?_, ?_, j, ?_, ?_⟩
  · rw [hrow]
    exact (Entry.mem_events henabled).mpr (Or.inl ⟨e, henabled.1, rfl⟩)
  · rw [hrow, hsubmitted]
  · rw [hrow, hsubmitted]
  · rw [hrow, hsubmitted]
    exact henabled.2.2

/-! ## Settled for good -/

/-- Accepted, dead or ignored. -/
def EventState.Settled (state : EventState) : Prop :=
  state = .accepted ∨ state = .dead ∨ state = .ignored

/-- No entry changes the state of a settled event. -/
theorem Entry.onEvent_settled {crates : Crates} {db : Db} {k : Entry} (h : k.Enabled crates db)
    {e : Event} (he : e ∈ db.events) (hsettled : e.state.Settled) :
    (k.onEvent e).state = e.state := by
  have hpending : e.state ≠ .pending := by
    rcases hsettled with hs | hs | hs <;> rw [hs] <;> decide
  have hsubmitting : e.state ≠ .submitting := by
    rcases hsettled with hs | hs | hs <;> rw [hs] <;> decide
  have hflight : e.state.inFlight ≠ true := by
    rcases hsettled with hs | hs | hs <;> rw [hs] <;> decide
  cases k with
  | route name action now =>
      simp only [Entry.onEvent, Event.killed]
      split
      · rw [if_neg fun hp => hpending hp.2]
      · rfl
  | expire f now =>
      simp only [Entry.onEvent]
      split
      · rename_i hid
        obtain rfl := Event.eq_of_id he h.1 hid
        exact absurd h.2.1.1 hpending
      · rfl
  | submit f now =>
      simp only [Entry.onEvent]
      rw [if_neg fun hp => hpending hp.2]
  | finish f state submissionId error now =>
      simp only [Entry.onEvent]
      split
      · rename_i hid
        obtain rfl := Event.eq_of_id he h.1 hid
        exact absurd h.2.1 hflight
      · rfl
  | defer f error now =>
      simp only [Entry.onEvent]
      split
      · rename_i hid
        obtain rfl := Event.eq_of_id he h.1 hid
        exact absurd h.2 hsubmitting
      · rfl
  | recover nextAt now =>
      simp only [Entry.onEvent]
      rw [if_neg hsubmitting]
  | _ => rfl

/-- An event stays in the table with its key, and once settled with its state. -/
theorem Leads.event {crates : Crates} {db db' : Db} (h : Leads crates db db') {e : Event}
    (he : e ∈ db.events) :
    ∃ f ∈ db'.events, f.key = e.key ∧ (e.state.Settled → f.state = e.state) := by
  refine Leads.invariant (P := fun d => ∃ f ∈ d.events, f.key = e.key ∧
    (e.state.Settled → f.state = e.state)) h ?_ ⟨e, he, rfl, fun _ => rfl⟩
  rintro k d hk ⟨f, hf, hkey, hstate⟩
  refine ⟨k.onEvent f, (Entry.mem_events hk).mpr (Or.inl ⟨f, hf, rfl⟩), ?_, ?_⟩
  · rw [k.onEvent_key, hkey]
  · intro hsettled
    have hf' : f.state.Settled := by
      rw [hstate hsettled]
      exact hsettled
    rw [Entry.onEvent_settled hk hf hf', hstate hsettled]

/-! ## First in, first out -/

/-- An event in flight has every earlier event of its binding settled. -/
def Db.InOrder (db : Db) : Prop :=
  ∀ e ∈ db.events, e.state = .submitting ∨ e.state = .uncertain →
    ∀ f ∈ db.events, f.binding = e.binding → f.seq < e.seq →
      f.state = .accepted ∨ f.state = .dead ∨ f.state = .ignored

/-- At most one event of a binding is in flight. -/
def Db.OneInFlight (db : Db) : Prop :=
  ∀ e ∈ db.events, ∀ f ∈ db.events, e.state = .submitting ∨ e.state = .uncertain →
    f.state = .submitting ∨ f.state = .uncertain → e.binding = f.binding → e = f

/-- A claim and any later claim of the same binding hand out nondecreasing numbers. -/
def ClaimsInOrder (crates : Crates) (db : Db) : Prop :=
  ∀ clock t c, (claim crates clock).run db = (.ok (some c), t) → ∀ db', Leads crates t db' →
    ∀ clock' t' c', (claim crates clock').run db' = (.ok (some c'), t') →
      c.row.binding = c'.row.binding → c.row.seq ≤ c'.row.seq

/-- A call from `db` accepts `e`. -/
def Op.Accepts (crates : Crates) (op : Op) (db : Db) (e : Event) : Prop :=
  e ∈ (op.step crates db).events ∧ e.state = .accepted ∧
    ∀ f ∈ db.events, f.seq = e.seq → f.state ≠ .accepted

/-- A call accepts at most one event, and an event that a call accepts comes after every event of
its binding that was accepted before the call. -/
def AcceptsInOrder (crates : Crates) (db : Db) : Prop :=
  ∀ (op : Op) e, op.Accepts crates db e →
    (∀ f, op.Accepts crates db f → f = e) ∧
      ∀ f ∈ db.events, f.state = .accepted → f.binding = e.binding → f.seq < e.seq

/-- A settled event keeps its state whatever follows. -/
def SettledForGood (crates : Crates) (db : Db) : Prop :=
  ∀ e ∈ db.events, e.state = .accepted ∨ e.state = .dead ∨ e.state = .ignored →
    ∀ db', Leads crates db db' → ∃ f ∈ db'.events, f.key = e.key ∧ f.state = e.state

/-- No claim hands out an event older than the limit at the reading it was claimed at. -/
def ClaimsFresh (crates : Crates) (db : Db) : Prop :=
  ∀ clock t c, (claim crates clock).run db = (.ok (some c), t) →
    ∃ j, c.row.updated = clock j ∧ clock j - c.row.created ≤ 3600

section fifo

variable {crates : Crates} {db : Db}

theorem EventState.phase_of_handed {state : EventState}
    (h : state = .submitting ∨ state = .uncertain) : state.phase = .inFlight := by
  rcases h with rfl | rfl <;> rfl

theorem Reachable.inOrder (h : Reachable crates db) : db.InOrder := by
  intro e he hflight f hf hbinding hlt
  have hlane : db.lanes e.seq = some (e.binding, .inFlight) := by
    rw [Db.lanes_of_mem he, EventState.phase_of_handed hflight]
  have hsettled := h.ordered e.seq e.binding _ hlane trivial f.seq hlt f.state.phase
    (hbinding ▸ Db.lanes_of_mem hf)
  exact EventState.settled_iff.mp hsettled

theorem Reachable.oneInFlight (h : Reachable crates db) : db.OneInFlight := by
  intro e he f hf hflight hflight' hbinding
  have hlane : db.lanes e.seq = some (e.binding, .inFlight) := by
    rw [Db.lanes_of_mem he, EventState.phase_of_handed hflight]
  have hlane' : db.lanes f.seq = some (e.binding, .inFlight) := by
    rw [Db.lanes_of_mem hf, EventState.phase_of_handed hflight', hbinding]
  exact Event.eq_of_seq he hf (h.ordered.unique hlane hlane')

theorem step_claim {clock : Nat → Rat} {t : Db} {answer : Option ClaimedEvent}
    (h : (claim crates clock).run db = (.ok answer, t)) : (Op.claim clock).step crates db = t := by
  have hexec : ((Op.claim clock).exec crates).run db = (.ok (), t) := by
    unfold Op.exec
    exact Tx.bind_ok.mpr ⟨answer, t, h, Tx.pure_ok.mpr ⟨rfl, rfl⟩⟩
  unfold Op.step
  rw [hexec]

theorem Reachable.claimsInOrder (h : Reachable crates db) : ClaimsInOrder crates db := by
  intro clock t c hclaim db' hleads clock' t' c' hclaim' hbinding
  obtain ⟨hrow, hstate, _⟩ := claimed_row hclaim
  obtain ⟨hrow', hstate', _⟩ := claimed_row hclaim'
  have ht : Reachable crates t := by
    rw [← step_claim hclaim]
    exact Leads.step h _
  have hrun : Lanes.Run t.lanes t'.lanes := by
    have hlast := Leads.step hleads (.claim clock')
    rw [step_claim hclaim'] at hlast
    exact hlast.lanes_run
  refine hrun.le_of_started ht.ordered (Db.lanes_of_mem hrow) ?_ ?_
  · rw [hstate]
    trivial
  · rw [Db.lanes_of_mem hrow', hstate', hbinding]
    rfl

/-- Only an outcome that says so accepts an event. -/
theorem Entry.accepts {k : Entry} {e : Event} (h : (k.onEvent e).state = .accepted)
    (he : e.state ≠ .accepted) :
    ∃ f submissionId error now, k = .finish f .accepted submissionId error now ∧ e.id = f.id := by
  cases k with
  | finish f state submissionId error now =>
      simp only [Entry.onEvent] at h
      split at h
      · rename_i hid
        subst h
        exact ⟨f, submissionId, error, now, rfl, hid⟩
      · exact absurd h he
  | route name action now =>
      simp only [Entry.onEvent, Event.killed] at h
      split at h
      · split at h
        · cases h
        · exact absurd h he
      · exact absurd h he
  | expire | submit | defer | recover =>
      simp only [Entry.onEvent] at h
      split at h
      · cases h
      · exact absurd h he
  | _ => exact absurd h he

/-- An event accepted by an entry was stored before it. -/
theorem Entry.accepted_before {crates : Crates} {db : Db} {k : Entry} (h : k.Enabled crates db)
    {e : Event} (he : e ∈ (k.apply crates db).events) (hstate : e.state = .accepted) :
    ∃ f ∈ db.events, k.onEvent f = e := by
  rcases (Entry.mem_events h).mp he with hold | hnew
  · exact hold
  · rcases (Entry.newEvent_waits h hnew).1 with hs | hs <;> rw [hs] at hstate <;> cases hstate

/-- Only `finish` writes outcomes. -/
theorem Op.Writes.op_of_finish {op : Op} {k : Entry} (h : op.Writes crates k) {e : Event}
    {state : EventState} {submissionId error : Option String} {now : Rat}
    (hk : k = .finish e state submissionId error now) :
    ∃ id text error, op = .finish id text submissionId error now := by
  cases h with
  | @finish id text _ error' =>
      cases hk
      exact ⟨id, text, error', rfl⟩
  | _ => cases hk

/-- Only `finish` accepts an event, and only the one it names. -/
theorem Op.Accepts.finish {op : Op} {e : Event} (h : op.Accepts crates db e) :
    ∃ id text submissionId error now, op = .finish id text submissionId error now ∧ e.id = id := by
  obtain ⟨he, hstate, hnew⟩ := h
  by_cases hop : ∃ id text submissionId error now, op = .finish id text submissionId error now
  · obtain ⟨id, text, submissionId, error, now, rfl⟩ := hop
    refine ⟨id, text, submissionId, error, now, rfl, ?_⟩
    unfold Op.step Op.exec at he
    rcases hrun : (CodexMonitor.finish id text submissionId error now).run db with ⟨_ | _, t⟩
    · have hsame := (Op.harmless crates (.finish id text submissionId error now)) db _
        (by unfold Op.exec; rw [hrun])
      unfold Op.exec at hsame
      rw [hsame] at he
      exact absurd hstate (hnew e he rfl)
    · rw [hrun] at he
      obtain ⟨f, _, hid, state, _, ⟨_, _, _, rfl⟩ | ⟨henabled, rfl⟩⟩ := finish_ok crates hrun
      · exact absurd hstate (hnew e he rfl)
      · obtain ⟨g, hg, rfl⟩ := Entry.accepted_before henabled he hstate
        have hgstate := hnew g hg (Event.key_eq (Entry.onEvent_key _ g)).1.symm
        obtain ⟨f', _, _, _, hk, hgid⟩ := Entry.accepts hstate hgstate
        obtain rfl : f = f' := by
          simp only [Entry.finish.injEq] at hk
          exact hk.1
        rw [(Event.key_eq (Entry.onEvent_key _ g)).2.1, hgid, hid]
  · have hkeep : ∀ f ∈ (op.step crates db).events, f.state = .accepted →
        ∃ g ∈ db.events, g.seq = f.seq ∧ g.state = .accepted := by
      refine (op.commits crates db).invariant
        (P := fun d => ∀ f ∈ d.events, f.state = .accepted →
          ∃ g ∈ db.events, g.seq = f.seq ∧ g.state = .accepted) ?_ ?_
      · intro k hw d hk hd f hf hfstate
        obtain ⟨g, hg, rfl⟩ := Entry.accepted_before hk hf hfstate
        by_cases hgstate : g.state = .accepted
        · obtain ⟨g', hg', hseq, hstate'⟩ := hd g hg hgstate
          exact ⟨g', hg', hseq.trans (Event.key_eq (k.onEvent_key g)).1.symm, hstate'⟩
        · obtain ⟨_, submissionId, _, now, hk, _⟩ := Entry.accepts hfstate hgstate
          obtain ⟨id, text, error, rfl⟩ := hw.op_of_finish hk
          exact absurd ⟨id, text, submissionId, error, now, rfl⟩ hop
      · exact fun f hf hfstate => ⟨f, hf, rfl, hfstate⟩
    obtain ⟨g, hg, hseq, hgstate⟩ := hkeep e he hstate
    exact absurd hgstate (hnew g hg hseq)

theorem Reachable.acceptsInOrder (h : Reachable crates db) : AcceptsInOrder crates db := by
  intro op e haccepts
  constructor
  · intro f hf
    obtain ⟨id, _, _, _, _, rfl, hid⟩ := haccepts.finish
    obtain ⟨id', _, _, _, _, heq, hid'⟩ := hf.finish
    cases heq
    exact Event.eq_of_id hf.1 haccepts.1 (hid'.trans hid.symm)
  · intro f hf hstate hbinding
    have hlane : db.lanes f.seq = some (e.binding, .done) := by
      rw [Db.lanes_of_mem hf, hstate, hbinding]
      rfl
    have hafter : (op.step crates db).lanes e.seq = some (e.binding, .done) := by
      rw [Db.lanes_of_mem haccepts.1, haccepts.2.1]
      rfl
    refine (op.lanes_run crates db).lt_of_done h.ordered hlane ?_ hafter
    intro hdone
    obtain ⟨g, hg, hseq, _, hphase⟩ := Db.lanes_eq_some.mp hdone
    refine haccepts.2.2 g hg hseq ?_
    cases hgstate : g.state with
    | accepted => rfl
    | pending | submitting | uncertain | dead | ignored =>
        rw [hgstate] at hphase
        cases hphase

theorem Reachable.settledForGood (_ : Reachable crates db) : SettledForGood crates db := by
  intro e he hsettled db' hleads
  obtain ⟨f, hf, hkey, hstate⟩ := hleads.event he
  exact ⟨f, hf, hkey, hstate hsettled⟩

theorem Reachable.claimsFresh (_ : Reachable crates db) : ClaimsFresh crates db := by
  intro clock t c hclaim
  exact (claimed_row hclaim).2.2

/-- **Per-binding FIFO.**  In every reachable database an event in flight has every earlier event
of its binding settled, so at most one event of a binding is in flight; claims of a binding hand
out nondecreasing numbers, acceptances come in the order of the numbers, settled events never
change state, and no claim hands out an event that is too old. -/
theorem reachable_fifo (h : Reachable crates db) :
    db.InOrder ∧ db.OneInFlight ∧ ClaimsInOrder crates db ∧ AcceptsInOrder crates db ∧
      SettledForGood crates db ∧ ClaimsFresh crates db :=
  ⟨h.inOrder, h.oneInFlight, h.claimsInOrder, h.acceptsInOrder, h.settledForGood, h.claimsFresh⟩

/-- Two events of one route, the first of them handed out. -/
theorem reachable_fifo_sample :
    (Db.after sampleCrates (sampleOps ++ [.claim fun _ => 12])).events.rows.map Event.state =
        [.submitting, .pending] ∧
      (Db.after sampleCrates (sampleOps ++ [.claim fun _ => 12])).InOrder :=
  ⟨by decide +kernel, (reachable_fifo (reachable_after sampleCrates _)).1⟩

end fifo

end CodexMonitor
