import CodexMonitor.Collector.Debounce
import CodexMonitor.Lib.History
import CodexMonitor.Store.Checkpoints

/-!
# Changes form a chain

The first sample of a watch that is committed is its silent baseline.  Every later one
reports a change from the value that was committed last, and the checkpoint in the
store is always that value: a job reads it and commits against it while no other job
of the watch can move it, and whatever refuses the event keeps the checkpoint.

A checkpoint is stored as text.  What a job compares with is the value the text reads
back as, which equals the one that was written.
-/

namespace CodexMonitor.Collector

open History Transaction

/-! ## Values that were committed -/

/-- The value the entry commits for the watch. -/
def Note.committedFor (id : String) : Note → Option Value
  | .committed w _ v _ _ => if w.id = id then some v else none
  | _ => none

/-- The value that was committed last for the watch. -/
def lastCommitted (id : String) (notes : List Note) : Option Value :=
  notes.reverse.findSome? (Note.committedFor id)

/-- The text of the value reads back as an equal one. -/
def ReadsBack (crates : Crates) (v : Value) : Prop :=
  ∃ w ∈ crates.fromStr (canonicalJson crates v), Flat w ∧ Value.eq w v = true

instance (crates : Crates) (v : Value) : Decidable (ReadsBack crates v) :=
  inferInstanceAs (Decidable (∃ w ∈ _, _))

/-- What the entry commits reads back. -/
def Note.Recoverable (crates : Crates) : Note → Prop
  | .committed _ _ v _ _ => ReadsBack crates v
  | _ => True

instance (crates : Crates) : DecidablePred (Note.Recoverable crates) := fun note => by
  unfold Note.Recoverable
  split <;> infer_instance

/-- A commit of `v` after `last`: the baseline, or a change from it. -/
def Links (last : Option Value) (v : Value) (change : Option Change) : Prop :=
  match last, change with
  | none, none => True
  | some u, some c =>
      Value.eq c.previous u = true ∧ c.current = v ∧ Value.eq c.previous c.current = false
  | _, _ => False

/-- The entry is a commit. -/
def Note.Commits : Note → Prop
  | .committed .. => True
  | _ => False

/-- The event an entry names. -/
def Note.delivery : Note → Option String
  | .committed _ _ _ _ delivery => delivery
  | _ => none

/-- A commit links to the one before it, and a change is reported by an event of its own. -/
def Note.Linked (past : List Note) : Note → Prop
  | .committed w _ v change delivery =>
      Links (lastCommitted w.id past) v change ∧
        match change with
        | none => delivery = none
        | some _ => ∃ id, delivery = some id ∧ ∀ note ∈ past, note.delivery ≠ some id
  | _ => True

/-- The event of a change is in the store. -/
def Note.Reported (crates : Crates) (db : Db) : Note → Prop
  | .committed w _ _ (some change) delivery => ∃ e ∈ db.events, delivery = some e.id ∧
      ∃ uuid, e.envelope = canonicalJson crates (makeEvent uuid w change)
  | _ => True

section last

variable {id : String} {notes more : List Note} {note : Note}

theorem lastCommitted_concat : lastCommitted id (notes ++ [note]) =
    (note.committedFor id).or (lastCommitted id notes) := by
  unfold lastCommitted
  rw [List.reverse_append, List.reverse_singleton, List.singleton_append, List.findSome?_cons]
  cases note.committedFor id <;> rfl

theorem committedFor_committed (w : Watch) (now : Rat) (v : Value) (change : Option Change)
    (delivery : Option String) :
    (Note.committed w now v change delivery).committedFor id = if w.id = id then some v else none :=
  rfl

/-- Entries that commit nothing for the watch. -/
theorem lastCommitted_append (h : ∀ note ∈ more, note.committedFor id = none) :
    lastCommitted id (notes ++ more) = lastCommitted id notes := by
  induction more generalizing notes with
  | nil => rw [List.append_nil]
  | cons note more ih =>
      rw [List.append_cons, ih fun n hn => h n (List.mem_cons_of_mem note hn), lastCommitted_concat,
        h note List.mem_cons_self]
      rfl

theorem Note.Recoverable.committedFor {crates : Crates} {v : Value} (h : note.Recoverable crates)
    (hv : note.committedFor id = some v) : ReadsBack crates v := by
  cases note with
  | committed w now u change delivery =>
      rw [committedFor_committed] at hv
      split at hv
      · rw [← Option.some.inj hv]
        exact h
      · cases hv
  | _ => cases hv

/-- The value that was committed last was committed. -/
theorem lastCommitted_mem {v : Value} (h : lastCommitted id notes = some v) :
    ∃ note ∈ notes, note.committedFor id = some v := by
  obtain ⟨note, hnote, hv⟩ := List.exists_of_findSome?_eq_some h
  exact ⟨note, List.mem_reverse.mp hnote, hv⟩

end last

/-! ## The invariant -/

/-- What a job is about to commit links to what was committed last. -/
def Job.Links (last : String → Option Value) (job : Job) : Prop :=
  ∀ v change after, job.stage = .committing v change after →
    Collector.Links (last job.id) v change

structure Host.Chained (crates : Crates) (h : Host) : Prop where
  stored : ∀ row ∈ h.db.managedWatches,
    row.checkpoint = (lastCommitted row.id h.loop.notes).map (canonicalJson crates)
  linked : Always Note.Linked h.loop.notes
  reported : ∀ note ∈ h.loop.notes, note.Reported crates h.db
  known : ∀ note ∈ h.loop.notes, ∀ id v, note.committedFor id = some v →
    ∃ row ∈ h.db.managedWatches, row.id = id
  links : h.loop.Each (fun _ _ => True) (Job.Links fun id => lastCommitted id h.loop.notes)

section invariant

variable {crates : Crates} {h t : Host} {act : Act} {l l' : Loop}

theorem Note.Idle.not_commits {note : Note} (h : note.Idle) : ¬ note.Commits := by
  cases note with
  | committed => exact h.elim
  | _ => exact not_false

/-- An entry that is no commit commits nothing, and nothing is said of it. -/
theorem not_commits (crates : Crates) {note : Note} (h : ¬ note.Commits) :
    (∀ id, note.committedFor id = none) ∧ (∀ past, note.Linked past) ∧
      ∀ db, note.Reported crates db := by
  cases note with
  | committed => exact absurd trivial h
  | _ => exact ⟨fun _ => rfl, fun _ => trivial, fun _ => trivial⟩

theorem Note.Reported.mono {db db' : Db} {note : Note} (h : note.Reported crates db)
    (hkept : ∀ e ∈ db.events, ∃ f ∈ db'.events, f.id = e.id ∧ f.envelope = e.envelope) :
    note.Reported crates db' := by
  cases note with
  | committed w now v change delivery =>
      cases change with
      | none => trivial
      | some change =>
          obtain ⟨e, he, hdelivery, uuid, henvelope⟩ := h
          obtain ⟨f, hf, hid, hsame⟩ := hkept e he
          exact ⟨f, hf, by rw [hid]; exact hdelivery, uuid, hsame.trans henvelope⟩
  | _ => trivial

theorem links_carries (last : String → Option Value) :
    Carries (fun _ _ => True) (Job.Links last) where
  load _ _ _ _ _ := trivial
  dirty _ _ _ _ := trivial
  spawn id r at_ _ v change after hstage := by
    cases hstage
  join _ _ _ _ := trivial

/-- The collector goes on, and commits nothing. -/
theorem Host.Chained.continues (hh : h.Chained crates) {more : List Note}
    (hnotes : l'.notes = h.loop.notes ++ more) (hmore : ∀ note ∈ more, ¬ note.Commits)
    (hlinks : l'.Each (fun _ _ => True) (Job.Links fun id => lastCommitted id h.loop.notes)) :
    Host.Chained crates { h with loop := l' } := by
  have hlast : ∀ id, lastCommitted id l'.notes = lastCommitted id h.loop.notes := by
    intro id
    rw [hnotes]
    exact lastCommitted_append fun note hnote =>
      (not_commits crates (hmore note hnote)).1 id
  refine ⟨?_, ?_, ?_, ?_, ?_⟩
  · intro row hrow
    rw [hlast]
    exact hh.stored row hrow
  · rw [hnotes]
    exact hh.linked.append fun note hnote => (not_commits crates (hmore note hnote)).2.1
  · intro note hnote
    rw [hnotes] at hnote
    rcases List.mem_append.mp hnote with hnote | hnote
    · exact hh.reported note hnote
    · exact (not_commits crates (hmore note hnote)).2.2 h.db
  · intro note hnote id v hv
    rw [hnotes] at hnote
    rcases List.mem_append.mp hnote with hnote | hnote
    · exact hh.known note hnote id v hv
    · rw [(not_commits crates (hmore note hnote)).1 id] at hv
      cases hv
  · simp only [hlast]
    exact hlinks

/-- Another task's call keeps every checkpoint and every event. -/
theorem Host.Chained.called (hh : h.Chained crates) {db : Db}
    (hwatches : ∀ row ∈ h.db.managedWatches, ∃ row' ∈ db.managedWatches, row.Becomes row')
    (hcheckpoints : Checkpoints h.db db)
    (hevents : ∀ e ∈ h.db.events, ∃ f ∈ db.events, f.id = e.id ∧ f.envelope = e.envelope) :
    Host.Chained crates { h with db := db } where
  stored row' hrow' := by
    rcases hcheckpoints row' hrow' with ⟨row, hrow, hid, hsame⟩ | ⟨hnone, hnew⟩
    · rw [hsame, hh.stored row hrow, hid]
    · -- nothing was committed for a watch that was not there
      rw [hnone]
      cases hlast : lastCommitted row'.id h.loop.notes with
      | none => rfl
      | some v =>
          obtain ⟨note, hnote, hv⟩ := lastCommitted_mem hlast
          obtain ⟨row, hrow, hid⟩ := hh.known note hnote row'.id v hv
          exact absurd hid (hnew row hrow)
  linked := hh.linked
  reported note hnote := (hh.reported note hnote).mono hevents
  known note hnote id v hv := by
    obtain ⟨row, hrow, hid⟩ := hh.known note hnote id v hv
    obtain ⟨row', hrow', hbecomes⟩ := hwatches row hrow
    exact ⟨row', hrow', hbecomes.id_eq.trans hid⟩
  links := hh.links

/-- The checkpoint a job reads is what was committed last for its watch. -/
theorem Host.Chained.baseline (hh : h.Chained crates) (hreads : ∀ note ∈ h.loop.notes, note.Recoverable crates)
    {id : String} {busy : Bool} {b : Option Value}
    (hb : readBaseline crates h.db id busy = some b) :
    (b = none ∧ lastCommitted id h.loop.notes = none) ∨
      ∃ v u, b = some v ∧ lastCommitted id h.loop.notes = some u ∧ Flat v ∧
        Value.eq v u = true := by
  rcases readBaseline_spec hb with ⟨hnone, rfl⟩ | ⟨row, text, v, hrow, hid, htext, hread, rfl⟩
  · refine Or.inl ⟨rfl, ?_⟩
    cases hlast : lastCommitted id h.loop.notes with
    | none => rfl
    | some u =>
        obtain ⟨note, hnote, hu⟩ := lastCommitted_mem hlast
        obtain ⟨row, hrow, hid⟩ := hh.known note hnote id u hu
        have hstored := hh.stored row hrow
        rw [hid, hlast] at hstored
        rw [Table.find?_eq_of_unique hrow hid fun a ha haid =>
          CodexMonitor.Watch.eq_of_id ha hrow (haid.trans hid.symm)] at hnone
        have hnone : row.checkpoint = none := hnone
        rw [hstored] at hnone
        cases hnone
  · have hstored := hh.stored row hrow
    rw [htext, hid] at hstored
    obtain ⟨u, hlast, hu⟩ := Option.map_eq_some_iff.mp hstored.symm
    obtain ⟨note, hnote, hcommitted⟩ := lastCommitted_mem hlast
    obtain ⟨w, hw, hflat, heq⟩ := (hreads note hnote).committedFor hcommitted
    rw [hu, hread] at hw
    obtain rfl := Option.some.inj hw
    exact Or.inr ⟨v, u, rfl, hlast, hflat, heq⟩

/-- What is decided about a sample links to what was committed last. -/
theorem links_compared {job : Job} {w : Watch} {observed : Value} {last : Option Value}
    {baseline : Option (Option Value)} (hobserved : Flat observed)
    (hcandidate : ∀ c, job.runtime.candidate = some c → Flat c.sample)
    (hbaseline : ∀ b, baseline = some b → (b = none ∧ last = none) ∨
      ∃ v u, b = some v ∧ last = some u ∧ Flat v ∧ Value.eq v u = true)
    {v : Value} {change : Option Change} {after : Runtime}
    (hstage : (job.compared w observed baseline).1.stage = .committing v change after) :
    Links last v change := by
  unfold Job.compared at hstage
  cases baseline with
  | none =>
      have hstage : Stage.finished = .committing v change after := hstage
      cases hstage
  | some b =>
      have hjudge := judge_spec job.runtime w observed b job.now
      simp only at hstage
      cases hjudged : judge job.runtime w observed b job.now with
      | ended r =>
          rw [hjudged] at hstage
          have hstage : Stage.finished = .committing v change after := hstage
          cases hstage
      | commit value change' failed after' =>
          rw [hjudged] at hjudge hstage
          obtain ⟨rfl, rfl, rfl⟩ := Stage.committing.inj hstage
          cases hjudge with
          | first =>
              rcases hbaseline none rfl with ⟨_, rfl⟩ | ⟨_, _, hnone, _⟩
              · trivial
              · cases hnone
          | @prompt prior hchanged =>
              rcases hbaseline (some prior) rfl with ⟨hsome, _⟩ | ⟨_, u, hprior, rfl, _, heq⟩
              · cases hsome
              · obtain rfl := Option.some.inj hprior
                exact ⟨heq, rfl, by simpa [changed] using hchanged⟩
          | @ripe prior c hchanged _ hc hsame =>
              rcases hbaseline (some prior) rfl with ⟨hsome, _⟩ | ⟨_, u, hprior, rfl, hflat, heq⟩
              · cases hsome
              · obtain rfl := Option.some.inj hprior
                refine ⟨heq, rfl, Bool.eq_false_of_not_eq_true fun hunchanged => ?_⟩
                have hstill := hflat.eq_trans (hcandidate c hc) hobserved hunchanged hsame
                unfold changed at hchanged
                rw [hstill] at hchanged
                cases hchanged

theorem makeEvent_id (uuid : Uuid) (w : Watch) (change : Change) :
    (makeEvent uuid w change).getStr "id" = some uuid.text := rfl

/-- The store took a sample: the chain is one link longer. -/
theorem Host.Chained.committed (hh : h.Chained crates) (hc : h.Coherent crates) {task : Nat}
    {job : Job} {w : Watch} {value : Value} {change : Option Change} {after : Runtime}
    {eventUuid uuid : Uuid} {now stamp : Rat} {receipt : Option Receipt} {db : Db}
    (hjob : h.loop.jobs.get task = some job) (hstage : job.stage = .committing value change after)
    (hw : job.runtime.watch = some w) (hnew : ∀ e ∈ h.db.events, e.eventId ≠ eventUuid.text)
    (hcommit : (commitSample crates w.id w.epoch value (change.map (makeEvent eventUuid w)) uuid now
      stamp).run h.db = (.ok receipt, db)) :
    Host.Chained crates ⟨db, h.loop.advance task (job.finish true after)
      [.committed w job.now value change (receipt.map Receipt.deliveryId)]⟩ := by
  obtain ⟨v, hv, _, hid, _⟩ := hc.working task job hjob
  rw [hw] at hv
  obtain rfl := Option.some.inj hv
  have hcommits := commitSample_commits hcommit
  obtain ⟨row, hrow, hrowid, hrowepoch, _, _, hwatches, hevent⟩ := commitSample_ok hcommit
  have hkept := fun e he => Commits.event_kept (e := e) hcommits he
  have hlink : Links (lastCommitted w.id h.loop.notes) value change := by
    rw [hid]
    exact hh.links.job task job hjob value change after hstage
  have hlast : ∀ id, lastCommitted id (h.loop.notes ++
      [.committed w job.now value change (receipt.map Receipt.deliveryId)]) =
        if w.id = id then some value else lastCommitted id h.loop.notes := by
    intro id
    rw [lastCommitted_concat, committedFor_committed]
    by_cases heq : w.id = id
    · rw [if_pos heq, if_pos heq]
      rfl
    · rw [if_neg heq, if_neg heq]
      rfl
  have hmem : ∀ row' ∈ db.managedWatches, ∃ v ∈ h.db.managedWatches, row' =
      if v.id = w.id ∧ v.epoch = w.epoch then
        { v with checkpoint := some (canonicalJson crates value), updated := stamp } else v := by
    intro row' hrow'
    rw [hwatches] at hrow'
    obtain ⟨v, hv, heq⟩ := List.mem_map.mp (show row' ∈ List.map _ _ from hrow')
    exact ⟨v, hv, heq.symm⟩
  refine ⟨?_, ?_, ?_, ?_, ?_⟩
  · intro row' hrow'
    obtain ⟨v, hv, rfl⟩ := hmem row' hrow'
    show _ = (lastCommitted _ (h.loop.notes ++ _)).map _
    rw [hlast]
    by_cases heq : v.id = w.id
    · -- the row of the watch is of the epoch the job has
      have hsame : v = row := CodexMonitor.Watch.eq_of_id hv hrow (heq.trans hrowid.symm)
      have hepoch : v.epoch = w.epoch := by rw [hsame, hrowepoch]
      rw [if_pos ⟨heq, hepoch⟩, if_pos heq.symm]
      rfl
    · have hother : ¬ (v.id = w.id ∧ v.epoch = w.epoch) := fun h => heq h.1
      rw [if_neg hother, if_neg fun h => heq h.symm]
      exact hh.stored v hv
  · refine always_concat.mpr ⟨hh.linked, hlink, ?_⟩
    rcases hevent with ⟨hnone, rfl⟩ | ⟨envelope, r, hsome, rfl, e, he, heid, _, heventId, _, hold⟩
    · obtain rfl := Option.map_eq_none_iff.mp hnone
      rfl
    · obtain ⟨c, rfl, rfl⟩ := Option.map_eq_some_iff.mp hsome
      refine ⟨r.deliveryId, rfl, fun note hnote hsame => ?_⟩
      rw [makeEvent_id] at heventId
      -- an event that was named before was stored before
      have hbefore : ∃ f ∈ h.db.events, f.id = e.id := by
        have hreported := hh.reported note hnote
        obtain ⟨past, rest, hsplit⟩ := List.append_of_mem hnote
        have hlinked := hh.linked.of_split hsplit
        cases note with
        | committed w' now' v' change' delivery' =>
            have hnamed : delivery' = some r.deliveryId := hsame
            cases change' with
            | none =>
                have hnone : delivery' = none := hlinked.2
                rw [hnone] at hnamed
                cases hnamed
            | some c' =>
                obtain ⟨f, hf, hdelivery, _⟩ := hreported
                rw [hnamed] at hdelivery
                exact ⟨f, hf, (Option.some.inj hdelivery).symm.trans heid.symm⟩
        | _ => cases hsame
      obtain ⟨f, hf, hfid⟩ := hbefore
      have hstored : e ∈ h.db.events := by
        rcases hold with hold | hrows
        · exact hold
        · have hf' : f ∈ db.events := by
            rw [Table.mem_def, hrows]
            exact List.mem_append_left _ hf
          rw [← Event.eq_of_id hf' he hfid]
          exact hf
      exact hnew e hstored (Option.some.inj heventId).symm
  · intro note hnote
    rcases List.mem_append.mp hnote with hnote | hnote
    · exact (hh.reported note hnote).mono hkept
    · rw [List.mem_singleton.mp hnote]
      rcases hevent with ⟨hnone, rfl⟩ | ⟨envelope, r, hsome, rfl, e, he, heid, _, _, henvelope, _⟩
      · obtain rfl := Option.map_eq_none_iff.mp hnone
        trivial
      · obtain ⟨c, rfl, rfl⟩ := Option.map_eq_some_iff.mp hsome
        refine ⟨e, he, ?_, eventUuid, henvelope⟩
        rw [heid]
        rfl
  · intro note hnote id u hu
    have hthere : ∃ row ∈ h.db.managedWatches, row.id = id := by
      rcases List.mem_append.mp hnote with hnote | hnote
      · exact hh.known note hnote id u hu
      · rw [List.mem_singleton.mp hnote, committedFor_committed] at hu
        split at hu
        · exact ⟨row, hrow, hrowid.trans (by assumption)⟩
        · cases hu
    obtain ⟨row, hrow, hrowid⟩ := hthere
    obtain ⟨row', hrow', hbecomes⟩ := Commits.watch hcommits hrow
    exact ⟨row', hrow', hbecomes.id_eq.trans hrowid⟩
  · refine ⟨fun _ _ _ => trivial, fun task' k hk v change' after' hcommitting => ?_⟩
    have hk : (h.loop.jobs.set task (job.finish true after)).get task' = some k := hk
    show Links (lastCommitted k.id (h.loop.notes ++ _)) v change'
    rw [hlast]
    rw [Dict.get_set] at hk
    split at hk
    · obtain rfl := Option.some.inj hk
      have hcommitting : Stage.finished = .committing v change' after' := hcommitting
      cases hcommitting
    · -- a watch has one job
      rename_i hne
      rw [if_neg fun heq => hne (hc.exclusive task' task k job hk hjob (heq.symm.trans hid))]
      exact hh.links.job task' k hk v change' after' hcommitting

theorem Host.Chained.step (hh : h.Chained crates) (hc : h.Coherent crates) (hwaits : h.Waits)
    (hreads : ∀ note ∈ h.loop.notes, note.Recoverable crates)
    (hstep : h.step crates act = some t) : t.Chained crates := by
  cases Host.step_moved hstep with
  | @called op hop =>
      refine hh.called (fun _ => Op.step_watch op) (Op.step_checkpoints ?_)
        fun e he => Commits.event_kept (op.commits crates h.db) he
      rintro id epoch checkpoint event uuid now stamp rfl
      cases hop
  | notified =>
      unfold Loop.notify
      split
      · exact hh.continues (List.append_nil _).symm (fun _ hnote => absurd hnote List.not_mem_nil)
          (hh.links.congr rfl rfl)
      · exact hh.continues (List.append_nil _).symm (fun _ hnote => absurd hnote List.not_mem_nil)
          (hh.links.congr rfl rfl)
  | @sampled task job watch reply hjob hstage hwatch hanswers =>
      refine hh.continues rfl (fun note hnote => ?_) (hh.links.setJob ?_ _)
      · rw [sampled_notes job watch reply note hnote]
        exact not_false
      · intro v change after hcommitting
        unfold Job.sampled at hcommitting
        split at hcommitting
        · cases hcommitting
        · cases hcommitting
  | @compared task job watch observed busy hjob hstage hwatch =>
      obtain ⟨w, hw, _, hid, _⟩ := hc.working task job hjob
      rw [hwatch] at hw
      obtain rfl := Option.some.inj hw
      have hjobwaits := hwaits.job task job hjob
      obtain ⟨x, hx⟩ := compared_notes job watch observed (readBaseline crates h.db watch.id busy)
      refine hh.continues rfl (fun note hnote => ?_) (hh.links.setJob ?_ _)
      · rw [hx] at hnote
        rw [List.mem_singleton.mp hnote]
        exact not_false
      · intro v change after hcommitting
        rw [(compared_frame job watch observed (readBaseline crates h.db watch.id busy)).1]
        refine links_compared (hjobwaits.comparing observed hstage)
          (fun c hcandidate => (hjobwaits.runtime c hcandidate).1) (fun b hb => ?_) hcommitting
        rw [hid] at hb
        exact hh.baseline hreads hb
  | committed hjob hstage hwatch hnew hcommit =>
      exact hh.committed hc hjob hstage hwatch hnew hcommit
  | @refused task job watch value change after eventUuid uuid now stamp busy hjob hstage hwatch =>
      refine hh.continues rfl (fun _ hnote => absurd hnote List.not_mem_nil) (hh.links.setJob ?_ _)
      intro v change' after' hcommitting
      have hcommitting : Stage.finished = .committing v change' after' := hcommitting
      cases hcommitting
  | turned hbranch hturn =>
      obtain ⟨more, hmore, hidle⟩ := turn_continues hturn
      exact hh.continues hmore (fun note hnote => (hidle note hnote).not_commits)
        (hh.links.turn (links_carries _) hc (Branch.loads_keeps hbranch) hturn)
  | reloaded hrows hturn =>
      obtain ⟨more, hmore, hidle⟩ := turn_continues hturn
      exact hh.continues hmore (fun note hnote => (hidle note hnote).not_commits)
        (hh.links.turn (links_carries _) hc (fun w hw => (loaded_spec hrows hw).2) hturn)
  | restarted =>
      refine hh.continues rfl (fun note hnote => ?_) (each_new _)
      rw [List.mem_singleton.mp hnote]
      exact not_false

/-- What was written down stays written down. -/
theorem Host.step_notes (hstep : h.step crates act = some t) :
    ∃ more, t.loop.notes = h.loop.notes ++ more := by
  cases Host.step_moved hstep with
  | called => exact ⟨[], (List.append_nil _).symm⟩
  | notified =>
      unfold Loop.notify
      split <;> exact ⟨[], (List.append_nil _).symm⟩
  | sampled => exact ⟨_, rfl⟩
  | compared => exact ⟨_, rfl⟩
  | committed => exact ⟨_, rfl⟩
  | refused => exact ⟨_, rfl⟩
  | turned _ hturn =>
      obtain ⟨more, hmore, _⟩ := turn_continues hturn
      exact ⟨more, hmore⟩
  | reloaded _ hturn =>
      obtain ⟨more, hmore, _⟩ := turn_continues hturn
      exact ⟨more, hmore⟩
  | restarted => exact ⟨_, rfl⟩

end invariant

/-! ## Runs -/

/-- The checkpoints are the values that were committed last, commits form a chain, each change is
an event in the store, and a commit that is refused leaves the store as it is. -/
structure Host.Chain (crates : Crates) (h : Host) : Prop where
  stored : ∀ row ∈ h.db.managedWatches,
    row.checkpoint = (lastCommitted row.id h.loop.notes).map (canonicalJson crates)
  linked : Always Note.Linked h.loop.notes
  reported : ∀ note ∈ h.loop.notes, note.Reported crates h.db
  refused : ∀ task eventUuid uuid now stamp busy t,
    h.step crates (.committed task eventUuid uuid now stamp busy) = some t →
      t.loop.notes = h.loop.notes → t.db = h.db

section runs

variable {crates : Crates} {t : Host}

theorem Host.Reachable.chained (h : Host.Reachable crates t)
    (hreads : ∀ note ∈ t.loop.notes, note.Recoverable crates) : t.Chained crates := by
  have hall : t.Coherent crates ∧ t.Waits ∧
      ((∀ note ∈ t.loop.notes, note.Recoverable crates) → t.Chained crates) := by
    refine Runs.Leads.invariant (P := fun t => t.Coherent crates ∧ t.Waits ∧
      ((∀ note ∈ t.loop.notes, note.Recoverable crates) → t.Chained crates)) ?_ h ?_
    · rintro s act u ⟨hc, hwaits, hs⟩ hstep
      refine ⟨hc.step hstep, hwaits.step hc hstep, fun hu => ?_⟩
      obtain ⟨more, hmore⟩ := Host.step_notes hstep
      have hreads : ∀ note ∈ s.loop.notes, note.Recoverable crates := by
        intro note hnote
        refine hu note ?_
        rw [hmore]
        exact List.mem_append_left more hnote
      exact (hs hreads).step hc hwaits hreads hstep
    · refine ⟨coherent_new [], each_new [], fun _ => ⟨?_, always_nil, ?_, ?_, each_new []⟩⟩
      · exact fun row hrow => absurd hrow List.not_mem_nil
      · exact fun note hnote => absurd hnote List.not_mem_nil
      · exact fun note hnote => absurd hnote List.not_mem_nil
  exact hall.2.2 hreads

/-- In every run whose checkpoints read back, the changes of every watch form a chain. -/
theorem changes_chain (h : Host.Reachable crates t)
    (hreads : ∀ note ∈ t.loop.notes, note.Recoverable crates) : t.Chain crates := by
  have hchained := h.chained hreads
  refine ⟨hchained.stored, hchained.linked, hchained.reported, ?_⟩
  intro task eventUuid uuid now stamp busy u hstep hnotes
  cases Host.step_moved hstep with
  | committed =>
      have hlength := congrArg List.length hnotes
      simp [Loop.advance] at hlength
  | refused => rfl

end runs

/-! ## A chain across a restart -/

/-- The file changes, the collector is restarted, and the file changes back. -/
def sampleThereAndBack : List Act :=
  sampleRecovery ++
    [.restarted,
      .reloaded .works 20 [(sampleUuid 4).text] 20,
      .sampled 0 (some (sampleContent "aa")), .compared 0 false] ++
    [.turned .works (.joined 0) [(sampleUuid 4).text] 20] ++
    sampleAttempt 1 26 [.sampled 1 (some (sampleContent "aa")), .compared 1 false,
      .committed 1 (sampleUuid 9) (sampleUuid 10) 26 26 false]

/-- A run in which a baseline and two changes are committed. -/
theorem changes_chain_sample :
    ∃ t, Runs.run? (Host.step sampleFileCrates) sampleThereAndBack .initial = some t ∧
      (t.loop.notes.filter fun note => note matches .committed ..).length = 3 ∧
      t.Chain sampleFileCrates := by
  have hrun : (Runs.run? (Host.step sampleFileCrates) sampleThereAndBack .initial).any
      (fun t => (∀ note ∈ t.loop.notes, note.Recoverable sampleFileCrates) ∧
        (t.loop.notes.filter fun note => note matches .committed ..).length = 3) = true := by
    decide +kernel
  obtain ⟨t, ht, hreads⟩ := Option.any_eq_true _ _ |>.mp hrun
  obtain ⟨hreads, hcommitted⟩ := of_decide_eq_true hreads
  exact ⟨t, ht, hcommitted, changes_chain (Runs.leads_run ht) hreads⟩

end CodexMonitor.Collector
