import CodexMonitor.Store.Movement

/-!
# The attempt budget

`claim` charges an event, `defer_unavailable` refunds it, `finish` compares the
charge with the limit and stores it back, recovery keeps it and the outbox seeds
it with zero.  The bounds are an invariant of the entries.  The ledger, claims
less refunds, is about calls: it is kept along a run with the tallies of the
calls that took place, and the retryable rejections are bounded by it.
-/

namespace CodexMonitor

open Transaction

/-! ## The bounds -/

/-- An event that waits can be charged once more; one in flight was charged. -/
structure Event.InBudget (e : Event) : Prop where
  nonneg : 0 ≤ e.attempts
  le : e.attempts ≤ maxAttempts
  pending : e.state = .pending → e.attempts < maxAttempts
  flight : e.state.inFlight = true → 1 ≤ e.attempts

/-- Every event is in its budget, and the outbox would seed a new one with no attempt. -/
structure Db.Budget (db : Db) : Prop where
  events : ∀ e ∈ db.events, e.InBudget
  notices : ∀ n ∈ db.requestNotifications, n.attempts = 0

/-- Only the charge, the outcome and the refund of an event touch its attempts. -/
theorem Entry.onEvent_inBudget {crates : Crates} {db : Db} {k : Entry} (h : k.Enabled crates db)
    {e : Event} (he : e ∈ db.events) (hbudget : e.InBudget) : (k.onEvent e).InBudget := by
  obtain ⟨hnonneg, hle, hpending, hflight⟩ := hbudget
  cases k with
  | route name action now =>
      simp only [Entry.onEvent, Event.killed]
      split
      · split
        · exact ⟨hnonneg, hle, EventState.noConfusion, Bool.false_ne_true.elim⟩
        · exact ⟨hnonneg, hle, hpending, hflight⟩
      · exact ⟨hnonneg, hle, hpending, hflight⟩
  | expire f now =>
      simp only [Entry.onEvent]
      split
      · exact ⟨hnonneg, hle, EventState.noConfusion, Bool.false_ne_true.elim⟩
      · exact ⟨hnonneg, hle, hpending, hflight⟩
  | submit f now =>
      simp only [Entry.onEvent]
      split
      · rename_i hmatch
        have hlt := hpending hmatch.2
        refine ⟨?_, ?_, EventState.noConfusion, fun _ => ?_⟩ <;> simp only <;> omega
      · exact ⟨hnonneg, hle, hpending, hflight⟩
  | finish f state submissionId error now =>
      simp only [Entry.onEvent]
      split
      · rename_i hid
        obtain rfl := Event.eq_of_id he h.1 hid
        exact ⟨hnonneg, hle, h.2.2.2, fun _ => hflight h.2.1⟩
      · exact ⟨hnonneg, hle, hpending, hflight⟩
  | defer f error now =>
      simp only [Entry.onEvent]
      split
      · rename_i hid
        obtain rfl := Event.eq_of_id he h.1 hid
        have hcharged : 1 ≤ e.attempts := hflight (by rw [h.2]; rfl)
        refine ⟨?_, ?_, fun _ => ?_, Bool.false_ne_true.elim⟩ <;> simp only <;> omega
      · exact ⟨hnonneg, hle, hpending, hflight⟩
  | recover nextAt now =>
      simp only [Entry.onEvent]
      split
      · rename_i hsubmitting
        exact ⟨hnonneg, hle, EventState.noConfusion, fun _ => hflight (by rw [hsubmitting]; rfl)⟩
      · exact ⟨hnonneg, hle, hpending, hflight⟩
  | _ => exact ⟨hnonneg, hle, hpending, hflight⟩

/-- A new event was never charged and is not in flight. -/
theorem Entry.newEvent_uncharged {crates : Crates} {db : Db} {k : Entry} (h : k.Enabled crates db)
    (hnotices : ∀ n ∈ db.requestNotifications, n.attempts = 0) {e : Event}
    (hnew : k.newEvent? = some e) : e.attempts = 0 ∧ e.state.inFlight = false := by
  have hstate := (Entry.newEvent_waits h hnew).1
  constructor
  · cases k with
    | store f =>
        cases hnew
        exact h.2.2.1
    | deliver n f now =>
        cases hnew
        obtain ⟨hready, _, _, _, _, _, _, _, _, hseed, _⟩ := h
        rw [hseed]
        exact hnotices n hready.mem
    | _ => cases hnew
  · rcases hstate with hs | hs <;> rw [hs] <;> rfl

theorem Event.inBudget_of_uncharged {e : Event}
    (h : e.attempts = 0 ∧ e.state.inFlight = false) : e.InBudget := by
  obtain ⟨hzero, hflight⟩ := h
  refine ⟨?_, ?_, fun _ => ?_, fun hf => ?_⟩
  · omega
  · rw [hzero]
    decide
  · rw [hzero]
    decide
  · rw [hflight] at hf
    cases hf

/-- No entry charges a notification. -/
theorem Entry.onNotice_attempts (db : Db) (k : Entry) (n : RequestNotification) :
    (k.onNotice db n).attempts = n.attempts := by
  cases k with
  | route | expire | finish | failNotice | link | postpone | deliver =>
      simp only [Entry.onNotice, RequestNotification.abandoned, RequestNotification.settled]
      repeat' split
      all_goals rfl
  | _ => rfl

theorem Db.Budget.apply {crates : Crates} {db : Db} {k : Entry} (hdb : db.Budget)
    (h : k.Enabled crates db) : (k.apply crates db).Budget where
  events := by
    intro e he
    rcases (Entry.mem_events h).mp he with ⟨f, hf, rfl⟩ | hnew
    · exact Entry.onEvent_inBudget h hf (hdb.events f hf)
    · exact Event.inBudget_of_uncharged (Entry.newEvent_uncharged h hdb.notices hnew)
  notices := by
    intro n hn
    rcases (Entry.mem_notices h).mp hn with ⟨m, hm, rfl⟩ | hnew
    · rw [Entry.onNotice_attempts]
      exact hdb.notices m hm
    · cases k with
      | transition r updateId state detail now =>
          simp only [Entry.newNotice?] at hnew
          split at hnew
          · cases hnew
            rfl
          · cases hnew
      | _ => cases hnew

theorem Db.budget_empty : Db.empty.Budget :=
  ⟨fun e he => absurd he (Table.not_mem_empty e), fun n hn => absurd hn (Table.not_mem_empty n)⟩

theorem Db.Budget.step {crates : Crates} {db : Db} (hdb : db.Budget) (op : Op) :
    (op.step crates db).Budget :=
  (op.commits crates db).invariant (fun _ _ _ henabled hd => hd.apply henabled) hdb

/-! ## What a call charges -/

/-- Whether an event is in flight, as a number. -/
def Event.flight (e : Event) : Int := if e.state.inFlight = true then 1 else 0

theorem Event.flight_eq_one {e : Event} (h : e.state.inFlight = true) : e.flight = 1 := if_pos h

theorem Event.flight_eq_zero {e : Event} (h : e.state.inFlight = false) : e.flight = 0 :=
  if_neg (by rw [h]; decide)

theorem Event.flight_nonneg (e : Event) : 0 ≤ e.flight := by
  unfold Event.flight
  split <;> omega

theorem Event.flight_le_one (e : Event) : e.flight ≤ 1 := by
  unfold Event.flight
  split <;> omega

/-- From `db` to `t`, each event was charged `claims`, got `refunds` back and was sent back for a
retry `rejections` times; a rejection takes the event out of flight, as a refund does. -/
structure Charges (claims refunds rejections : String → Nat) (db t : Db) : Prop where
  kept : ∀ e ∈ db.events, ∃ f ∈ t.events, f.key = e.key ∧
    f.attempts + refunds e.id = e.attempts + claims e.id ∧
      f.flight + refunds e.id + rejections e.id ≤ e.flight + claims e.id ∧
      (e.state.Settled → f.state = e.state) ∧
      (0 < rejections e.id → f.state = .pending ∨ f.state = .dead)
  new : ∀ f ∈ t.events, (∃ e ∈ db.events, e.key = f.key) ∨
    (f.attempts = 0 ∧ f.state.inFlight = false)
  stored : ∀ id, (∀ e ∈ db.events, e.id ≠ id) → claims id = 0 ∧ refunds id = 0 ∧ rejections id = 0

/-- No event is charged, refunded or rejected. -/
abbrev Idles : Db → Db → Prop := Charges (fun _ => 0) (fun _ => 0) (fun _ => 0)

theorem Idles.refl (db : Db) : Idles db db where
  kept := fun e he => ⟨e, he, rfl, rfl, by simp, fun _ => rfl, fun h => absurd h (lt_irrefl 0)⟩
  new := fun f hf => Or.inl ⟨f, hf, rfl⟩
  stored := fun _ _ => ⟨rfl, rfl, rfl⟩

/-- One entry, given what it does to each stored event. -/
theorem Entry.charges {crates : Crates} {db : Db} {k : Entry} (h : k.Enabled crates db)
    (hdb : db.Budget) {claims refunds rejections : String → Nat}
    (hkept : ∀ e ∈ db.events,
      (k.onEvent e).attempts + refunds e.id = e.attempts + claims e.id ∧
        (k.onEvent e).flight + refunds e.id + rejections e.id ≤ e.flight + claims e.id)
    (hrejected : ∀ e ∈ db.events, 0 < rejections e.id →
      (k.onEvent e).state = .pending ∨ (k.onEvent e).state = .dead)
    (hstored : ∀ id, (∀ e ∈ db.events, e.id ≠ id) →
      claims id = 0 ∧ refunds id = 0 ∧ rejections id = 0) :
    Charges claims refunds rejections db (k.apply crates db) where
  kept := fun e he =>
    ⟨k.onEvent e, (Entry.mem_events h).mpr (Or.inl ⟨e, he, rfl⟩), k.onEvent_key e,
      (hkept e he).1, (hkept e he).2, Entry.onEvent_settled h he, hrejected e he⟩
  new := by
    intro f hf
    rcases (Entry.mem_events h).mp hf with ⟨e, he, rfl⟩ | hnew
    · exact Or.inl ⟨e, he, (k.onEvent_key e).symm⟩
    · exact Or.inr (Entry.newEvent_uncharged h hdb.notices hnew)
  stored := hstored

/-- Idle steps before another one change nothing in its account, when it charges no event that
they stored. -/
theorem Idles.then {claims refunds rejections : String → Nat} {db d t : Db} (h : Idles db d)
    (h' : Charges claims refunds rejections d t)
    (hold : ∀ f ∈ d.events, (∃ e ∈ db.events, e.key = f.key) ∨
      (claims f.id = 0 ∧ refunds f.id = 0 ∧ rejections f.id = 0)) :
    Charges claims refunds rejections db t where
  kept := by
    intro e he
    obtain ⟨f, hf, hfkey, hfattempts, hfflight, hfsettled, _⟩ := h.kept e he
    obtain ⟨g, hg, hgkey, hgattempts, hgflight, hgsettled, hgrejected⟩ := h'.kept f hf
    have hid : f.id = e.id := (Event.key_eq hfkey).2.1
    rw [hid] at hgattempts hgflight hgrejected
    refine ⟨g, hg, hgkey.trans hfkey, by omega, by omega, fun hs => ?_, hgrejected⟩
    have hstate := hfsettled hs
    rw [hgsettled (by rw [hstate]; exact hs), hstate]
  new := by
    intro g hg
    rcases h'.new g hg with ⟨f, hf, hkey⟩ | hnew
    · rcases h.new f hf with ⟨e, he, hekey⟩ | ⟨hzero, hwaits⟩
      · exact Or.inl ⟨e, he, hekey.trans hkey⟩
      -- stored by the idle steps: `g` is what the last one made of it
      · obtain ⟨g', hg', hgkey, hgattempts, hgflight, _⟩ := h'.kept f hf
        obtain rfl := Event.eq_of_id hg' hg (Event.key_eq (hgkey.trans hkey)).2.1
        rcases hold f hf with ⟨e, he, hekey⟩ | ⟨hclaims, hrefunds, hrejections⟩
        · exact Or.inl ⟨e, he, hekey.trans hkey⟩
        · rw [Event.flight_eq_zero hwaits] at hgflight
          refine Or.inr ⟨by omega, ?_⟩
          by_contra hflight
          rw [Event.flight_eq_one (Bool.eq_true_of_not_eq_false hflight)] at hgflight
          omega
    · exact Or.inr hnew
  stored := by
    intro id hnone
    by_cases hid : ∃ f ∈ d.events, f.id = id
    · obtain ⟨f, hf, rfl⟩ := hid
      rcases hold f hf with ⟨e, he, hkey⟩ | hzero
      · exact absurd (Event.key_eq hkey).2.1 (hnone e he)
      · exact hzero
    · exact h'.stored id fun f hf hf' => hid ⟨f, hf, hf'⟩

/-- Entries that hand nothing out, take nothing back and record no outcome are idle, and so is
recovery. -/
theorem Entry.idles {crates : Crates} {db : Db} {k : Entry} (h : k.Enabled crates db)
    (hdb : db.Budget) (hk : ¬ k.Handles ∨ ∃ nextAt now, k = .recover nextAt now) :
    Idles db (k.apply crates db) := by
  refine Entry.charges h hdb (fun e he => ?_) (fun _ _ hnone => absurd hnone (lt_irrefl 0))
    fun _ _ => ⟨rfl, rfl, rfl⟩
  have hsame : (k.onEvent e).attempts = e.attempts ∧ (k.onEvent e).flight ≤ e.flight := by
    rcases hk with hk | ⟨nextAt, now, rfl⟩
    · constructor
      · cases k with
        | submit | finish | defer | recover => exact absurd trivial hk
        | route | expire =>
            simp only [Entry.onEvent, Event.killed]
            repeat' split
            all_goals rfl
        | _ => rfl
      · rcases Entry.onEvent_rests h hk he with hstate | ⟨_, hdead⟩
        · simp only [Event.flight, hstate, le_refl]
        · have hzero : (k.onEvent e).flight = 0 := Event.flight_eq_zero (by rw [hdead]; rfl)
          rw [hzero]
          exact e.flight_nonneg
    · simp only [Entry.onEvent]
      split
      · rename_i hsubmitting
        simp [Event.flight, hsubmitting, EventState.inFlight]
      · exact ⟨rfl, le_refl _⟩
  constructor <;> omega

/-- So is any number of them. -/
theorem Commits.idles {crates : Crates} {W : Entry → Prop} {db t : Db} (h : Commits crates W db t)
    (hdb : db.Budget)
    (hW : ∀ k, W k → ¬ k.Handles ∨ ∃ nextAt now, k = .recover nextAt now) : Idles db t := by
  have hboth : Idles db t ∧ t.Budget := by
    refine h.invariant (P := fun d => Idles db d ∧ d.Budget) ?_ ⟨.refl db, hdb⟩
    intro k hk d henabled hd
    exact ⟨hd.1.then (Entry.idles henabled hd.2 (hW k hk)) fun _ _ => Or.inr ⟨rfl, rfl, rfl⟩,
      hd.2.apply henabled⟩
  exact hboth.1

/-! ## The tallies of a run -/

section tallies

variable (crates : Crates) (db : Db)

/-- What a call hands out. -/
def Op.claimed : Op → Option ClaimedEvent
  | .claim clock =>
      match ((CodexMonitor.claim crates clock).run db).1 with
      | .ok answer => answer
      | .error _ => none
  | _ => none

/-- The call hands out the event `id`. -/
def Op.claims (op : Op) (id : String) : Nat :=
  if (op.claimed crates db).any fun c => c.row.id = id then 1 else 0

/-- The call takes the event `id` back unspent: a `defer_unavailable` that succeeds. -/
def Op.refunds (op : Op) (id : String) : Nat :=
  match op with
  | .deferUnavailable event error now =>
      if event = id ∧ ((CodexMonitor.deferUnavailable event error now).run db).1.isOk = true then 1 else 0
  | _ => 0

/-- The call rejects the event `id` as retryable: a `finish` as `pending` that succeeds. -/
def Op.rejects (op : Op) (id : String) : Nat :=
  match op with
  | .finish event state submissionId error now =>
      if event = id ∧ state = "pending" ∧
          ((CodexMonitor.finish event state submissionId error now).run db).1.isOk = true then 1 else 0
  | _ => 0

end tallies

section calls

variable {crates : Crates} {db t : Db}

theorem Expires.idles (h : Expires crates db t) (hdb : db.Budget) : Idles db t := by
  refine Commits.idles h hdb ?_
  intro k hk
  obtain ⟨e, now, rfl⟩ := hk
  exact Or.inl id

/-- A claim charges the event it hands out, and no other. -/
theorem claim_charges (hdb : db.Budget) (clock : Nat → Rat) :
    Charges ((Op.claim clock).claims crates db) (fun _ => 0) (fun _ => 0) db
      ((Op.claim clock).step crates db) := by
  rcases hrun : (claim crates clock).run db with ⟨failure | answer, t⟩
  · have hclaims : (Op.claim clock).claims crates db = fun _ => 0 := by
      funext id
      simp [Op.claims, Op.claimed, hrun]
    rw [hclaims, step_of_fail rfl hrun]
    exact Idles.refl db
  · have hclaims : (Op.claim clock).claims crates db =
        fun id => if answer.any fun c => c.row.id = id then 1 else 0 := by
      funext id
      simp [Op.claims, Op.claimed, hrun]
    rw [hclaims, step_of_run rfl hrun]
    obtain ⟨d, hexpires, hnone, hsome⟩ := claim_ok hrun
    have hidle := hexpires.idles hdb
    cases answer with
    | none =>
        rw [hnone rfl]
        exact hidle
    | some c =>
        obtain ⟨e, j, henabled, rfl, hrow, _⟩ := hsome c rfl
        have hid : c.row.id = e.id := by
          rw [hrow]
          exact (Event.key_eq (Entry.onEvent_key _ e)).2.1
        simp only [Option.any_some, hid, decide_eq_true_eq]
        have hd : d.Budget := hexpires.invariant (fun _ _ _ hk hb => hb.apply hk) hdb
        refine hidle.then ?_ fun f hf => Or.inl (hexpires.old f hf)
        refine Entry.charges henabled hd ?_ (fun _ _ hnone => absurd hnone (lt_irrefl 0)) ?_
        · intro f hf
          by_cases hf' : e.id = f.id
          · obtain rfl := Event.eq_of_id henabled.1 hf hf'
            have hpending : e.state = .pending := henabled.2.1.1
            have hsubmitted : (Entry.submit e (clock j)).onEvent e =
                { e with state := .submitting, attempts := e.attempts + 1, updated := clock j } :=
              if_pos ⟨rfl, hpending⟩
            have hcharged := Event.flight_eq_one (e := (Entry.submit e (clock j)).onEvent e) (by
              rw [hsubmitted]
              rfl)
            rw [hcharged, hsubmitted]
            have hwaits := e.flight_nonneg
            simp only [if_true]
            constructor <;> omega
          · have hsame : (Entry.submit e (clock j)).onEvent f = f :=
              if_neg fun hmatch => hf' hmatch.1.symm
            rw [hsame]
            simp [hf']
        · intro id hnone
          exact ⟨if_neg (hnone e henabled.1), rfl, rfl⟩

/-- What a `finish` makes of the row it names. -/
theorem finish_row (e : Event) (state : EventState) (submissionId error : Option String)
    (now : Rat) :
    let row := (Entry.finish e (storedOutcome state error e.attempts).1 submissionId
      (storedOutcome state error e.attempts).2 now).onEvent e
    row.attempts = e.attempts ∧ row.state = (storedOutcome state error e.attempts).1 ∧
      (state = .pending → (row.state = .pending ∨ row.state = .dead) ∧
        row.state.inFlight = false) := by
  have hrow : (Entry.finish e (storedOutcome state error e.attempts).1 submissionId
      (storedOutcome state error e.attempts).2 now).onEvent e = _ := if_pos rfl
  simp only [hrow]
  refine ⟨trivial, trivial, fun hretry => ?_⟩
  subst hretry
  unfold storedOutcome
  split
  · exact ⟨Or.inr rfl, rfl⟩
  · exact ⟨Or.inl rfl, rfl⟩

/-- A `finish` as retryable rejects the event it names; any other outcome charges nothing. -/
theorem finish_charges (hdb : db.Budget) (id text : String) (submissionId error : Option String)
    (now : Rat) :
    Charges (fun _ => 0) (fun _ => 0) ((Op.finish id text submissionId error now).rejects db) db
      ((Op.finish id text submissionId error now).step crates db) := by
  rcases hrun : (finish id text submissionId error now).run db with ⟨failure | u, t⟩
  · have hrejects : (Op.finish id text submissionId error now).rejects db = fun _ => 0 := by
      funext id
      simp [Op.rejects, hrun, Except.isOk, Except.toBool]
    have hsame : (Op.finish id text submissionId error now).step crates db = db :=
      Op.step_of_error crates (.finish id text submissionId error now)
        (t := (Op.finish id text submissionId error now).step crates db) (by
          unfold Op.step Op.exec
          rw [hrun])
    rw [hrejects, hsame]
    exact Idles.refl db
  · have hstep : (Op.finish id text submissionId error now).step crates db = t := by
      unfold Op.step Op.exec
      rw [hrun]
    have hrejects : (Op.finish id text submissionId error now).rejects db =
        fun i => if id = i ∧ text = "pending" then 1 else 0 := by
      funext i
      simp [Op.rejects, hrun, Except.isOk, Except.toBool]
    rw [hrejects, hstep]
    obtain ⟨e, he, rfl, state, hstate, haccepted | ⟨henabled, rfl⟩⟩ := finish_ok crates hrun
    · obtain ⟨_, rfl, _, rfl⟩ := haccepted
      have hother : text ≠ "pending" := by
        rintro rfl
        cases hstate
      simp only [hother, and_false, if_false]
      exact Idles.refl _
    · refine Entry.charges henabled hdb (fun f hf => ?_) (fun f hf hpos => ?_) fun i hnone => ?_
      · by_cases hid : f.id = e.id
        · obtain rfl := Event.eq_of_id hf he hid
          have hsame := finish_row f state submissionId error now
          have hflight := Event.flight_eq_one henabled.2.1
          have hafter := Event.flight_le_one
            ((Entry.finish f (storedOutcome state error f.attempts).1 submissionId
              (storedOutcome state error f.attempts).2 now).onEvent f)
          refine ⟨by rw [hsame.1], ?_⟩
          by_cases hretry : text = "pending"
          · subst hretry
            obtain rfl : state = .pending := (Option.some.inj hstate).symm
            rw [Event.flight_eq_zero (hsame.2.2 rfl).2]
            simp [hflight]
          · simp only [hretry, and_false, if_false]
            omega
        · have hsame : (Entry.finish e (storedOutcome state error e.attempts).1 submissionId
              (storedOutcome state error e.attempts).2 now).onEvent f = f := if_neg hid
          rw [hsame]
          simp [Ne.symm hid]
      · obtain ⟨hid, rfl⟩ : e.id = f.id ∧ text = "pending" := by
          by_contra hne
          rw [if_neg hne] at hpos
          omega
        obtain rfl := Event.eq_of_id he hf hid
        obtain rfl : state = .pending := (Option.some.inj hstate).symm
        exact ((finish_row e .pending submissionId error now).2.2 rfl).1
      · have hne : ¬ (e.id = i ∧ text = "pending") := fun h => hnone e he h.1
        exact ⟨rfl, rfl, if_neg hne⟩

/-- A refund takes the event it names back. -/
theorem deferUnavailable_charges (hdb : db.Budget) (id error : String) (now : Rat) :
    Charges (fun _ => 0) ((Op.deferUnavailable id error now).refunds db) (fun _ => 0) db
      ((Op.deferUnavailable id error now).step crates db) := by
  rcases hrun : (deferUnavailable id error now).run db with ⟨failure | u, t⟩
  · have hrefunds : (Op.deferUnavailable id error now).refunds db = fun _ => 0 := by
      funext i
      simp [Op.refunds, hrun, Except.isOk, Except.toBool]
    have hsame : (Op.deferUnavailable id error now).step crates db = db :=
      Op.step_of_error crates (.deferUnavailable id error now)
        (t := (Op.deferUnavailable id error now).step crates db) (by
          unfold Op.step Op.exec
          rw [hrun])
    rw [hrefunds, hsame]
    exact Idles.refl db
  · have hstep : (Op.deferUnavailable id error now).step crates db = t := by
      unfold Op.step Op.exec
      rw [hrun]
    have hrefunds : (Op.deferUnavailable id error now).refunds db =
        fun i => if id = i then 1 else 0 := by
      funext i
      simp [Op.refunds, hrun, Except.isOk, Except.toBool]
    rw [hrefunds, hstep]
    obtain ⟨e, he, rfl, hstate, rfl⟩ := deferUnavailable_ok crates hrun
    have henabled : (Entry.defer e error now).Enabled crates db := ⟨he, hstate⟩
    refine Entry.charges henabled hdb (fun f hf => ?_)
      (fun _ _ hnone => absurd hnone (lt_irrefl 0)) fun i hnone => ⟨rfl, if_neg (hnone e he), rfl⟩
    by_cases hid : f.id = e.id
    · obtain rfl := Event.eq_of_id hf he hid
      have hrow : (Entry.defer f error now).onEvent f =
          { f with
            state := .pending, attempts := f.attempts - 1, nextAt := now + 5, error := some error,
            updated := now } := if_pos rfl
      have hflight := Event.flight_eq_one (e := f) (by rw [hstate]; rfl)
      have hafter := Event.flight_eq_zero (e := (Entry.defer f error now).onEvent f) (by
        rw [hrow]
        rfl)
      rw [hafter, hflight, hrow]
      simp
    · have hsame : (Entry.defer e error now).onEvent f = f := if_neg hid
      rw [hsame]
      simp [Ne.symm hid]

end calls

/-- What one call does to the budgets. -/
theorem step_charges (crates : Crates) {db : Db} (hdb : db.Budget) (op : Op) :
    Charges (op.claims crates db) (op.refunds db) (op.rejects db) db (op.step crates db) := by
  cases op with
  | claim clock => exact claim_charges hdb clock
  | finish id text submissionId error now => exact finish_charges hdb id text submissionId error now
  | deferUnavailable id error now => exact deferUnavailable_charges hdb id error now
  | recoverSubmitting nextAt now =>
      have hrecover : (Entry.recover nextAt now).Enabled crates db := trivial
      exact Entry.idles hrecover hdb (Or.inr ⟨nextAt, now, rfl⟩)
  | _ => exact (Op.commits crates _ db).idles hdb fun k hw => Or.inl (hw.not_handles rfl)

/-- How often the calls of a run from `db` did something to the event `id`. -/
def tally (crates : Crates) (count : Db → Op → String → Nat) (id : String) : List Op → Db → Nat
  | [], _ => 0
  | op :: ops, db => count db op id + tally crates count id ops (op.step crates db)

/-! ## The ledger -/

/-- The accounts of the events: what each was charged, and how often it was rejected. -/
structure Db.Ledger (db : Db) (claims refunds rejections : String → Nat) : Prop where
  stored : ∀ e ∈ db.events, e.attempts + refunds e.id = claims e.id ∧
    rejections e.id + e.flight ≤ e.attempts ∧ (5 ≤ rejections e.id → e.state = .dead)
  absent : ∀ id, (∀ e ∈ db.events, e.id ≠ id) → claims id = 0 ∧ refunds id = 0 ∧ rejections id = 0

theorem Db.ledger_empty : Db.empty.Ledger (fun _ => 0) (fun _ => 0) (fun _ => 0) :=
  ⟨fun e he => absurd he (Table.not_mem_empty e), fun _ _ => ⟨rfl, rfl, rfl⟩⟩

/-- The accounts are kept by adding what was charged. -/
theorem Db.Ledger.charges {db t : Db} {claims refunds rejections c r j : String → Nat}
    (h : db.Ledger claims refunds rejections) (ht : t.Budget) (hcharges : Charges c r j db t) :
    t.Ledger (fun id => claims id + c id) (fun id => refunds id + r id)
      (fun id => rejections id + j id) where
  stored := by
    intro f hf
    by_cases hold : ∃ e ∈ db.events, e.id = f.id
    · obtain ⟨e, he, hid⟩ := hold
      obtain ⟨g, hg, hkey, hattempts, hflight, hsettled, hrejected⟩ := hcharges.kept e he
      obtain rfl := Event.eq_of_id hg hf ((Event.key_eq hkey).2.1.trans hid)
      obtain ⟨hbalance, hrejections, hdead⟩ := h.stored e he
      rw [hid] at hattempts hflight hrejected hbalance hrejections hdead
      refine ⟨?_, ?_, fun hfive => ?_⟩
      · push_cast
        omega
      · push_cast
        omega
      · by_cases hnone : j g.id = 0
        · have hstate := hdead (by omega)
          rw [hsettled (Or.inr (Or.inl hstate)), hstate]
        -- a fifth rejection leaves no attempt to wait with
        · rcases hrejected (by omega) with hpending | hdead
          · have hlt := (ht.events g hf).pending hpending
            have hwaits := g.flight_nonneg
            unfold maxAttempts at hlt
            omega
          · exact hdead
    · obtain ⟨hclaims, hrefunds, hrejections⟩ :=
        h.absent f.id fun e he hid => hold ⟨e, he, hid⟩
      obtain ⟨hc, hr, hj⟩ := hcharges.stored f.id fun e he hid => hold ⟨e, he, hid⟩
      rcases hcharges.new f hf with ⟨e, he, hkey⟩ | ⟨hzero, hwaits⟩
      · exact absurd ⟨e, he, (Event.key_eq hkey).2.1⟩ hold
      · rw [Event.flight_eq_zero hwaits, hzero, hclaims, hrefunds, hrejections, hc, hr, hj]
        exact ⟨rfl, le_refl _, fun hfive => absurd hfive (by decide)⟩
  absent := by
    intro id hnone
    have hbefore : ∀ e ∈ db.events, e.id ≠ id := by
      intro e he hid
      obtain ⟨f, hf, hkey, _⟩ := hcharges.kept e he
      exact hnone f hf ((Event.key_eq hkey).2.1.trans hid)
    obtain ⟨hclaims, hrefunds, hrejections⟩ := h.absent id hbefore
    obtain ⟨hc, hr, hj⟩ := hcharges.stored id hbefore
    simp [hclaims, hrefunds, hrejections, hc, hr, hj]

/-- Along a run the accounts are the tallies of its calls. -/
theorem Db.Ledger.run {crates : Crates} (ops : List Op) {db : Db}
    {claims refunds rejections : String → Nat} (h : db.Ledger claims refunds rejections)
    (hdb : db.Budget) :
    (ops.foldl (Op.step crates) db).Budget ∧
      (ops.foldl (Op.step crates) db).Ledger
        (fun id => claims id + tally crates (Op.claims crates) id ops db)
        (fun id => refunds id + tally crates Op.refunds id ops db)
        (fun id => rejections id + tally crates Op.rejects id ops db) := by
  induction ops generalizing db claims refunds rejections with
  | nil => exact ⟨hdb, h⟩
  | cons op ops ih =>
      have hnext : (op.step crates db).Budget := hdb.step op
      have hrest := ih (h.charges hnext (step_charges crates hdb op)) hnext
      simp only [Nat.add_assoc] at hrest
      exact hrest

/-! ## Attempts and retries -/

/-- The bounds of an event's attempts. -/
def Db.AttemptsBounded (db : Db) : Prop :=
  ∀ e ∈ db.events, (e.state = .pending → 0 ≤ e.attempts ∧ e.attempts ≤ 4) ∧
    (e.state = .submitting ∨ e.state = .uncertain → 1 ≤ e.attempts ∧ e.attempts ≤ 5) ∧
    0 ≤ e.attempts ∧ e.attempts ≤ 5

theorem Db.Budget.bounded {db : Db} (h : db.Budget) : db.AttemptsBounded := by
  intro e he
  obtain ⟨hnonneg, hle, hpending, hflight⟩ := h.events e he
  unfold maxAttempts at hle hpending
  refine ⟨fun hs => ?_, fun hs => ?_, hnonneg, hle⟩
  · have hlt := hpending hs
    omega
  · have hcharged : 1 ≤ e.attempts := hflight (by rcases hs with hs | hs <;> rw [hs] <;> rfl)
    omega

/-- The delays after the first four attempts. -/
theorem retryDelay_eq {attempts : Int} (hle : 1 ≤ attempts) (hlt : attempts ≤ 4) :
    retryDelay attempts = 2 ^ attempts.toNat ∧ retryDelay attempts ≤ 60 := by
  have hcases : attempts = 1 ∨ attempts = 2 ∨ attempts = 3 ∨ attempts = 4 := by omega
  rcases hcases with rfl | rfl | rfl | rfl <;>
    exact ⟨by decide +kernel, by decide +kernel⟩

/-- A retryable `finish` delays the event by `2 ^ attempts` seconds, or it is the end of it. -/
def Db.RetriesPaced (db : Db) : Prop :=
  ∀ id submissionId error now t,
    (finish id "pending" submissionId error now).run db = (.ok (), t) →
      ∃ e ∈ t.events, e.id = id ∧
        ((e.state = .pending ∧ 1 ≤ e.attempts ∧ e.attempts ≤ 4 ∧
            e.nextAt - now = 2 ^ e.attempts.toNat ∧ e.nextAt - now ≤ 60) ∨
          (e.state = .dead ∧ e.attempts = 5))

theorem Db.Budget.retriesPaced (crates : Crates) {db : Db} (h : db.Budget) : db.RetriesPaced := by
  intro id submissionId error now t hrun
  obtain ⟨e, he, rfl, state, hstate, haccepted | ⟨henabled, rfl⟩⟩ := finish_ok crates hrun
  · obtain ⟨_, rfl, _⟩ := haccepted
    cases hstate
  obtain rfl : state = .pending := (Option.some.inj hstate).symm
  obtain ⟨hnonneg, hle, _, hflight⟩ := h.events e he
  have hcharged := hflight henabled.2.1
  have hid := (Event.key_eq (Entry.onEvent_key (.finish e
    (storedOutcome .pending error e.attempts).1 submissionId
    (storedOutcome .pending error e.attempts).2 now) e)).2.1
  refine ⟨_, (Entry.mem_events henabled).mpr (Or.inl ⟨e, he, rfl⟩), hid, ?_⟩
  simp only [Entry.onEvent, if_true, storedOutcome, true_and]
  unfold maxAttempts at *
  by_cases hlimit : 5 ≤ e.attempts
  · rw [if_pos hlimit]
    exact Or.inr ⟨rfl, by omega⟩
  · rw [if_neg hlimit]
    obtain ⟨hdelay, hcap⟩ := retryDelay_eq hcharged (by omega)
    have hnext : storedNextAt .pending e.attempts now - now = retryDelay e.attempts := by
      simp [storedNextAt]
    rw [hnext]
    exact Or.inl ⟨rfl, hcharged, by omega, hdelay, hcap⟩

/-- Attempts stay in their bounds; over every run they are the claims less the refunds, so an
event is rejected at most five times, the fifth time for good; and retries are paced. -/
theorem attempt_budget (crates : Crates) (ops : List Op) :
    (Db.after crates ops).AttemptsBounded ∧ (Db.after crates ops).RetriesPaced ∧
      ∀ e ∈ (Db.after crates ops).events,
        e.attempts = tally crates (Op.claims crates) e.id ops Db.empty -
          tally crates Op.refunds e.id ops Db.empty ∧
        tally crates Op.rejects e.id ops Db.empty ≤ 5 ∧
        (tally crates Op.rejects e.id ops Db.empty = 5 → e.state = .dead) := by
  have hempty := Db.ledger_empty
  obtain ⟨hbudget, hledger⟩ := @Db.Ledger.run crates ops _ _ _ _ hempty Db.budget_empty
  refine ⟨hbudget.bounded, hbudget.retriesPaced crates, fun e he => ?_⟩
  obtain ⟨hbalance, hrejections, hdead⟩ := hledger.stored e he
  simp only [Nat.zero_add] at hbalance hrejections hdead
  have hle := (hbudget.bounded e he).2.2.2
  have hflight := e.flight_nonneg
  exact ⟨by omega, by omega, fun hfive => hdead (by omega)⟩

end CodexMonitor
