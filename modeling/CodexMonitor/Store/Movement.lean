import CodexMonitor.Store.Fifo

/-!
# How a call moves the events

`Db.Keeps` says of two databases that every event of the first is in the second,
its state changed by given moves only.  Calls that neither hand events out nor
record outcomes move a pending event to its death at most; an outcome moves the
event it names, out of flight, and no other.
-/

namespace CodexMonitor

open Transaction

/-- Every event is kept, and its state moves as `M` says. -/
def Db.Keeps (M : Event → EventState → Prop) (db t : Db) : Prop :=
  ∀ e ∈ db.events, ∃ f ∈ t.events, f.key = e.key ∧ M e f.state

/-- The state stays, or a pending event dies. -/
def Event.Rests (e : Event) (state : EventState) : Prop :=
  state = e.state ∨ (e.state = .pending ∧ state = .dead)

theorem Db.Keeps.mono {M N : Event → EventState → Prop} {db t : Db} (h : Db.Keeps M db t)
    (hsub : ∀ e ∈ db.events, ∀ state, M e state → N e state) : Db.Keeps N db t := by
  intro e he
  obtain ⟨f, hf, hkey, hmove⟩ := h e he
  exact ⟨f, hf, hkey, hsub e he _ hmove⟩

/-- What has become of a stored event, found by its key. -/
theorem Db.Keeps.state {M : Event → EventState → Prop} {db t : Db} (h : Db.Keeps M db t)
    {e f : Event} (he : e ∈ db.events) (hf : f ∈ t.events) (hid : f.id = e.id) :
    f.key = e.key ∧ M e f.state := by
  obtain ⟨g, hg, hkey, hmove⟩ := h e he
  obtain rfl := Event.eq_of_id hf hg (hid.trans (Event.key_eq hkey).2.1.symm)
  exact ⟨hkey, hmove⟩

/-- An entry that hands an event out, takes it back or records its outcome. -/
def Entry.Handles : Entry → Prop
  | .submit _ _ | .finish _ _ _ _ _ | .defer _ _ _ | .recover _ _ => True
  | _ => False

/-- Every other entry lets an event rest. -/
theorem Entry.onEvent_rests {crates : Crates} {db : Db} {k : Entry} (h : k.Enabled crates db)
    (hk : ¬ k.Handles) {e : Event} (he : e ∈ db.events) : e.Rests (k.onEvent e).state := by
  cases k with
  | submit | finish | defer | recover => exact absurd trivial hk
  | route name action now =>
      simp only [Entry.onEvent, Event.killed]
      split
      · split
        · rename_i hpending
          exact Or.inr ⟨hpending.2, rfl⟩
        · exact Or.inl rfl
      · exact Or.inl rfl
  | expire f now =>
      simp only [Entry.onEvent]
      split
      · rename_i hid
        obtain rfl := Event.eq_of_id he h.1 hid
        exact Or.inr ⟨h.2.1.1, rfl⟩
      · exact Or.inl rfl
  | _ => exact Or.inl rfl

/-- Entries that handle no event let every event rest. -/
theorem Commits.rests {crates : Crates} {W : Entry → Prop} {db t : Db}
    (h : Commits crates W db t) (hW : ∀ k, W k → ¬ k.Handles) : Db.Keeps Event.Rests db t := by
  refine h.invariant (P := fun d => Db.Keeps Event.Rests db d) ?_
    fun e he => ⟨e, he, rfl, Or.inl rfl⟩
  intro k hk d henabled hd e he
  obtain ⟨f, hf, hkey, hmove⟩ := hd e he
  refine ⟨k.onEvent f, (Entry.mem_events henabled).mpr (Or.inl ⟨f, hf, rfl⟩),
    (k.onEvent_key f).trans hkey, ?_⟩
  rcases hmove with hsame | ⟨hpending, hdead⟩
  · rcases Entry.onEvent_rests henabled (hW k hk) hf with h | ⟨hp, hd⟩
    · exact Or.inl (h.trans hsame)
    · exact Or.inr ⟨hsame.symm.trans hp, hd⟩
  · rcases Entry.onEvent_rests henabled (hW k hk) hf with h | ⟨hp, _⟩
    · exact Or.inr ⟨hpending, h.trans hdead⟩
    · rw [hdead] at hp
      cases hp

/-- The calls of the receiver's dispatch and reconciliation, and its start-up recovery. -/
def Op.Handles : Op → Bool
  | .claim _ | .finish _ _ _ _ _ | .deferUnavailable _ _ _ | .recoverSubmitting _ _ => true
  | _ => false

theorem Op.Writes.not_handles {crates : Crates} {op : Op} {k : Entry} (h : op.Writes crates k)
    (hop : op.Handles = false) : ¬ k.Handles := by
  cases h with
  | expire | submit | finish | defer | recover => cases hop
  | _ => exact id

/-- Any other call lets every event rest. -/
theorem Op.rests (crates : Crates) {op : Op} (hop : op.Handles = false) (db : Db) :
    Db.Keeps Event.Rests db (op.step crates db) :=
  (op.commits crates db).rests fun _ hw => hw.not_handles hop

/-! ## Outcomes -/

section outcomes

variable {crates : Crates} {db t : Db} {id : String} {now : Rat}

/-- A call that ends with an error leaves the database as it was. -/
theorem Op.step_of_error (crates : Crates) (op : Op) {error : StoreError}
    (h : (op.exec crates).run db = (.error error, t)) : t = db := by
  have hsame := op.harmless crates db error (by rw [h])
  rw [h] at hsame
  exact hsame

/-- One entry moves each event as it says. -/
theorem Entry.keeps {k : Entry} (h : k.Enabled crates db) :
    Db.Keeps (fun e state => state = (k.onEvent e).state) db (k.apply crates db) :=
  fun e he => ⟨k.onEvent e, (Entry.mem_events h).mpr (Or.inl ⟨e, he, rfl⟩), k.onEvent_key e, rfl⟩

/-- An outcome moves the event it names, out of flight, to the state it names; a retry beyond the
limit is a death. -/
theorem finish_keeps (crates : Crates) {text : String} {submissionId error : Option String} {state : EventState}
    (hstate : finishState? text = some state) :
    Db.Keeps (fun e s => s = e.state ∨ (e.id = id ∧ e.state.inFlight = true ∧
      (s = state ∨ (state = .pending ∧ s = .dead)))) db
      ((finish id text submissionId error now).run db).2 := by
  rcases hrun : (finish id text submissionId error now).run db with ⟨failure | u, t⟩
  · have hsame : t = db :=
      Op.step_of_error crates (.finish id text submissionId error now) hrun
    subst hsame
    exact fun e he => ⟨e, he, rfl, Or.inl rfl⟩
  · obtain ⟨e, he, rfl, state', hstate', ⟨_, _, _, rfl⟩ | ⟨henabled, rfl⟩⟩ := finish_ok crates hrun
    · exact fun e he => ⟨e, he, rfl, Or.inl rfl⟩
    · rw [hstate] at hstate'
      cases hstate'
      refine (Entry.keeps henabled).mono fun f hf s hs => ?_
      simp only [Entry.onEvent] at hs
      split at hs
      · rename_i hid
        obtain rfl := Event.eq_of_id hf he hid
        refine Or.inr ⟨rfl, henabled.2.1, ?_⟩
        unfold storedOutcome at hs
        split at hs
        · rename_i hretry
          exact Or.inr ⟨hretry.1, hs⟩
        · exact Or.inl hs
      · exact Or.inl hs

/-- A deferral moves the event it names from submitting back to pending. -/
theorem deferUnavailable_keeps (crates : Crates) {error : String} :
    Db.Keeps (fun e s => s = e.state ∨ (e.id = id ∧ e.state = .submitting ∧ s = .pending)) db
      ((deferUnavailable id error now).run db).2 := by
  rcases hrun : (deferUnavailable id error now).run db with ⟨failure | u, t⟩
  · have hsame : t = db :=
      Op.step_of_error crates (.deferUnavailable id error now) hrun
    subst hsame
    exact fun e he => ⟨e, he, rfl, Or.inl rfl⟩
  · obtain ⟨e, he, rfl, hstate, rfl⟩ := deferUnavailable_ok crates hrun
    have henabled : (Entry.defer e error now).Enabled crates db := ⟨he, hstate⟩
    refine (Entry.keeps henabled).mono fun f hf s hs => ?_
    simp only [Entry.onEvent] at hs
    split at hs
    · rename_i hid
      obtain rfl := Event.eq_of_id hf he hid
      exact Or.inr ⟨rfl, hstate, hs⟩
    · exact Or.inl hs

/-- Recovery makes every hand-over uncertain. -/
theorem recoverSubmitting_keeps (crates : Crates) (db : Db) {nextAt : Rat} :
    Db.Keeps (fun e s => s = e.state ∨ (e.state = .submitting ∧ s = .uncertain)) db
      ((Op.recoverSubmitting nextAt now).step crates db) := by
  have henabled : (Entry.recover nextAt now).Enabled crates db := trivial
  have hstep : (Op.recoverSubmitting nextAt now).step crates db =
      (Entry.recover nextAt now).apply crates db := rfl
  rw [hstep]
  refine (Entry.keeps henabled).mono fun f hf s hs => ?_
  simp only [Entry.onEvent] at hs
  split at hs
  · rename_i hsubmitting
    exact Or.inr ⟨hsubmitting, hs⟩
  · exact Or.inl hs

end outcomes

/-! ## Claims -/

section claims

variable {crates : Crates} {db t : Db} {clock : Nat → Rat}

theorem Expires.rests (h : Expires crates db t) : Db.Keeps Event.Rests db t := by
  refine Commits.rests h ?_
  rintro k ⟨e, now, rfl⟩
  exact id

/-- Expiry stores no event. -/
theorem Expires.old (h : Expires crates db t) : ∀ f ∈ t.events, ∃ e ∈ db.events, e.key = f.key := by
  refine h.invariant (P := fun d => ∀ f ∈ d.events, ∃ e ∈ db.events, e.key = f.key) ?_
    fun f hf => ⟨f, hf, rfl⟩
  rintro k ⟨e, now, rfl⟩ d hk hd f hf
  rcases (Entry.mem_events hk).mp hf with ⟨g, hg, rfl⟩ | hnew
  · rw [Entry.onEvent_key]
    exact hd g hg
  · cases hnew

/-- A claim that hands nothing out lets every event rest. -/
theorem claim_none_rests (h : (claim crates clock).run db = (.ok none, t)) :
    Db.Keeps Event.Rests db t := by
  obtain ⟨d, hexpires, hnone, _⟩ := claim_ok h
  rw [hnone rfl]
  exact hexpires.rests

/-- A claim hands out one event, which was pending, and lets the others rest. -/
theorem claim_some_keeps {c : ClaimedEvent}
    (h : (claim crates clock).run db = (.ok (some c), t)) :
    (∃ e ∈ db.events, e.key = c.row.key ∧ e.state = .pending) ∧
      Db.Keeps (fun e s => e.Rests s ∨ (e.id = c.row.id ∧ e.state = .pending ∧ s = .submitting))
        db t := by
  obtain ⟨d, hexpires, _, hsome⟩ := claim_ok h
  obtain ⟨e, j, henabled, rfl, hrow, _⟩ := hsome c rfl
  have hkey : c.row.key = e.key := by rw [hrow, Entry.onEvent_key]
  obtain ⟨f, hf, hfkey⟩ := hexpires.old e henabled.1
  have hmove := (hexpires.rests.state hf henabled.1 (Event.key_eq hfkey).2.1.symm).2
  have hpending : f.state = .pending := by
    rcases hmove with hsame | ⟨hp, _⟩
    · rw [← hsame]
      exact henabled.2.1.1
    · exact hp
  refine ⟨⟨f, hf, hfkey.trans hkey.symm, hpending⟩, fun g hg => ?_⟩
  obtain ⟨g', hg', hgkey, hrests⟩ := hexpires.rests g hg
  obtain ⟨g'', hg'', hgkey', hsubmit⟩ := Entry.keeps henabled g' hg'
  refine ⟨g'', hg'', hgkey'.trans hgkey, ?_⟩
  simp only [Entry.onEvent] at hsubmit
  split at hsubmit
  · rename_i hid
    refine Or.inr ⟨?_, ?_, hsubmit⟩
    · rw [← (Event.key_eq hgkey).2.1, hid.1, ← (Event.key_eq hkey).2.1]
    · rcases hrests with hsame | ⟨hp, _⟩
      · rw [← hsame]
        exact hid.2
      · exact hp
  · rw [hsubmit]
    exact Or.inl hrests

end claims

end CodexMonitor
