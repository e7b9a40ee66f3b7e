import CodexMonitor.Collector.Versions

/-!
# What always holds of the loop

A runtime is of its own watch, in a version the store has had; a job is of a watch
that was active when it was dispatched, at or before the version that is live.  A
watch has at most one job, and `in_flight` holds exactly the watches that have one.
-/

namespace CodexMonitor.Collector

/-- The invariant of the loop, over the versions that the store has had. -/
structure Loop.Coherent (listed : Watch → Prop) (l : Loop) : Prop where
  known : ∀ id r, l.runtimes.get id = some r → ∃ w, r.watch = some w ∧ w.id = id ∧ listed w
  working : ∀ task job, l.jobs.get task = some job →
    ∃ w, job.runtime.watch = some w ∧ w.active = true ∧ w.id = job.id ∧ listed w
  behind : ∀ task job r w v, l.jobs.get task = some job → l.runtimes.get job.id = some r →
    job.runtime.watch = some w → r.watch = some v → w.Precedes v
  exclusive : ∀ task task' job job', l.jobs.get task = some job → l.jobs.get task' = some job' →
    job.id = job'.id → task = task'
  inFlight_iff : ∀ id, id ∈ l.inFlight ↔ ∃ task job, l.jobs.get task = some job ∧ job.id = id
  numbered : ∀ task job, l.jobs.get task = some job → task < l.tasks
  same_watch : ∀ task job value change committed, l.jobs.get task = some job →
    job.stage = .committing value change committed → committed.watch = job.runtime.watch

section pieces

variable {listed : Watch → Prop} {l l' : Loop} {os : Native} {now : Rat}

theorem coherent_new (notes : List Note) : (Loop.new notes).Coherent listed := by
  have hidle : ∀ task job, (Loop.new notes).jobs.get task ≠ some job := by
    intro task job h
    have h : (∅ : Dict Nat Job).get task = some job := h
    rw [Dict.get_empty] at h
    cases h
  refine ⟨?_, fun task job h => absurd h (hidle task job),
    fun task job _ _ _ h => absurd h (hidle task job),
    fun task _ job _ h => absurd h (hidle task job), fun id => ?_,
    fun task job h => absurd h (hidle task job),
    fun task job _ _ _ h => absurd h (hidle task job)⟩
  · intro id r h
    have h : (∅ : Dict String Runtime).get id = some r := h
    rw [Dict.get_empty] at h
    cases h
  · constructor
    · exact fun h => absurd h (Finset.notMem_empty id)
    · rintro ⟨task, job, h, _⟩
      exact absurd h (hidle task job)

/-- Whatever else changes, the runtimes and the jobs are what the invariant is about. -/
theorem Loop.Coherent.congr (h : l.Coherent listed) (hruntimes : l'.runtimes = l.runtimes)
    (hjobs : l'.jobs = l.jobs) (hinFlight : l'.inFlight = l.inFlight) (htasks : l'.tasks = l.tasks) :
    l'.Coherent listed := by
  refine ⟨?_, ?_, ?_, ?_, ?_, ?_, ?_⟩
  · rw [hruntimes]
    exact h.known
  · rw [hjobs]
    exact h.working
  · rw [hruntimes, hjobs]
    exact h.behind
  · rw [hjobs]
    exact h.exclusive
  · rw [hjobs, hinFlight]
    exact h.inFlight_iff
  · rw [hjobs, htasks]
    exact h.numbered
  · rw [hjobs]
    exact h.same_watch

theorem Loop.Coherent.mono {listed' : Watch → Prop} (h : l.Coherent listed)
    (hsub : ∀ w, listed w → listed' w) : l.Coherent listed' where
  known id r hr := by
    obtain ⟨w, hw, hid, hlisted⟩ := h.known id r hr
    exact ⟨w, hw, hid, hsub w hlisted⟩
  working task job hjob := by
    obtain ⟨w, hw, hactive, hid, hlisted⟩ := h.working task job hjob
    exact ⟨w, hw, hactive, hid, hsub w hlisted⟩
  behind := h.behind
  exclusive := h.exclusive
  inFlight_iff := h.inFlight_iff
  numbered := h.numbered
  same_watch := h.same_watch

/-- A runtime may be replaced by one of the same watch, or of a version of it that everything
listed precedes. -/
theorem Loop.Coherent.setRuntime (h : l.Coherent listed) {id : String} {r : Runtime} {w : Watch}
    (hw : r.watch = some w) (hid : w.id = id) (hlisted : listed w)
    (hbehind : ∀ task job v, l.jobs.get task = some job → job.id = id →
      job.runtime.watch = some v → v.Precedes w) :
    Loop.Coherent listed { l with runtimes := l.runtimes.set id r } where
  known id' r' hr' := by
    have hr' : (l.runtimes.set id r).get id' = some r' := hr'
    rw [Dict.get_set] at hr'
    split at hr'
    · rename_i heq
      obtain rfl := Option.some.inj hr'
      exact ⟨w, hw, hid.trans heq.symm, hlisted⟩
    · exact h.known id' r' hr'
  working := h.working
  behind task job r' v u hjob hr' hv hu := by
    have hr' : (l.runtimes.set id r).get job.id = some r' := hr'
    rw [Dict.get_set] at hr'
    split at hr'
    · rename_i heq
      obtain rfl := Option.some.inj hr'
      rw [hw] at hu
      obtain rfl := Option.some.inj hu
      exact hbehind task job v hjob heq hv
    · exact h.behind task job r' v u hjob hr' hv hu
  exclusive := h.exclusive
  inFlight_iff := h.inFlight_iff
  numbered := h.numbered
  same_watch := h.same_watch

theorem Loop.Coherent.eraseRuntime (h : l.Coherent listed) (id : String) :
    Loop.Coherent listed { l with runtimes := l.runtimes.erase id } where
  known id' r hr := by
    have hr : (l.runtimes.erase id).get id' = some r := hr
    rw [Dict.get_erase] at hr
    split at hr
    · cases hr
    · exact h.known id' r hr
  working := h.working
  behind task job r w v hjob hr := by
    have hr : (l.runtimes.erase id).get job.id = some r := hr
    rw [Dict.get_erase] at hr
    split at hr
    · cases hr
    · exact h.behind task job r w v hjob hr
  exclusive := h.exclusive
  inFlight_iff := h.inFlight_iff
  numbered := h.numbered
  same_watch := h.same_watch

/-- A job moves on; it stays a job of the same version. -/
theorem Loop.Coherent.setJob (h : l.Coherent listed) {task : Nat} {job job' : Job}
    (hjob : l.jobs.get task = some job) (hid : job'.id = job.id)
    (hwatch : job'.runtime.watch = job.runtime.watch)
    (hsame : ∀ value change committed, job'.stage = .committing value change committed →
      committed.watch = job.runtime.watch) (notes : List Note) :
    (l.advance task job' notes).Coherent listed := by
  have hget : ∀ task' k, (l.jobs.set task job').get task' = some k →
      ∃ j, l.jobs.get task' = some j ∧ j.id = k.id ∧ k.runtime.watch = j.runtime.watch := by
    intro task' k hk
    rw [Dict.get_set] at hk
    split at hk
    · rename_i heq
      obtain rfl := Option.some.inj hk
      exact ⟨job, heq ▸ hjob, hid.symm, hwatch⟩
    · exact ⟨k, hk, rfl, rfl⟩
  refine ⟨h.known, ?_, ?_, ?_, ?_, ?_, ?_⟩
  · intro task' k hk
    obtain ⟨j, hj, hjid, hjwatch⟩ := hget task' k hk
    rw [hjwatch, ← hjid]
    exact h.working task' j hj
  · intro task' k r w v hk hr hw
    obtain ⟨j, hj, hjid, hjwatch⟩ := hget task' k hk
    rw [← hjid] at hr
    rw [hjwatch] at hw
    exact h.behind task' j r w v hj hr hw
  · intro task' task'' k k' hk hk' heq
    obtain ⟨j, hj, hjid, _⟩ := hget task' k hk
    obtain ⟨j', hj', hjid', _⟩ := hget task'' k' hk'
    exact h.exclusive task' task'' j j' hj hj' (hjid.trans (heq.trans hjid'.symm))
  · intro id
    refine (h.inFlight_iff id).trans ⟨?_, ?_⟩
    · rintro ⟨task', j, hj, hjid⟩
      by_cases heq : task' = task
      · subst heq
        rw [hjob] at hj
        obtain rfl := Option.some.inj hj
        exact ⟨task', job', Dict.get_set_self, hid.trans hjid⟩
      · exact ⟨task', j, (Dict.get_set_ne heq).trans hj, hjid⟩
    · rintro ⟨task', k, hk, hkid⟩
      obtain ⟨j, hj, hjid, _⟩ := hget task' k hk
      exact ⟨task', j, hj, hjid.trans hkid⟩
  · intro task' k hk
    obtain ⟨j, hj, _⟩ := hget task' k hk
    exact h.numbered task' j hj
  · intro task' k value change committed hk hstage
    have hk : (l.jobs.set task job').get task' = some k := hk
    rw [Dict.get_set] at hk
    split at hk
    · obtain rfl := Option.some.inj hk
      rw [hwatch]
      exact hsame value change committed hstage
    · exact h.same_watch task' k value change committed hk hstage

theorem Loop.Coherent.retire (h : l.Coherent listed) {task : Nat} {job : Job}
    (hjob : l.jobs.get task = some job) : (l.retire task job).Coherent listed := by
  have hget : ∀ task' k, (l.jobs.erase task).get task' = some k →
      task' ≠ task ∧ l.jobs.get task' = some k := by
    intro task' k hk
    rw [Dict.get_erase] at hk
    split at hk
    · cases hk
    · exact ⟨by assumption, hk⟩
  refine ⟨h.known, fun task' k hk => h.working task' k (hget task' k hk).2,
    fun task' k r w v hk => h.behind task' k r w v (hget task' k hk).2,
    fun task' task'' k k' hk hk' =>
      h.exclusive task' task'' k k' (hget task' k hk).2 (hget task'' k' hk').2,
    fun id => ?_, fun task' k hk => h.numbered task' k (hget task' k hk).2,
    fun task' k value change committed hk =>
      h.same_watch task' k value change committed (hget task' k hk).2⟩
  show id ∈ l.inFlight.erase job.id ↔ _
  rw [Finset.mem_erase, h.inFlight_iff id]
  constructor
  · rintro ⟨hne, task', k, hk, hkid⟩
    refine ⟨task', k, ?_, hkid⟩
    refine (Dict.get_erase_ne fun heq => hne ?_).trans hk
    subst heq
    rw [hjob] at hk
    rw [← hkid, Option.some.inj hk]
  · rintro ⟨task', k, hk, hkid⟩
    obtain ⟨hne, hk⟩ := hget task' k hk
    exact ⟨fun heq => hne (h.exclusive task' task k job hk hjob (hkid.trans heq)), task', k, hk, hkid⟩

theorem Loop.Coherent.join (h : l.Coherent listed) {task : Nat} (hjoin : l.join os task = some l') :
    l'.Coherent listed := by
  obtain ⟨job, hjob, _, hmerge | ⟨_, rfl⟩⟩ := join_cases hjoin
  · obtain ⟨current, hcurrent, _, rfl⟩ := hmerge
    obtain ⟨w, hw, _, hid, hlisted⟩ := h.working task job hjob
    rw [merge_frame]
    refine Loop.Coherent.congr ((h.retire hjob).setRuntime
      (r := { job.runtime with
        dirty := (job.runtime.dirty || ((l.retire task job).follow os job.id job.runtime).2) ||
          current.dirty }) hw hid hlisted ?_) rfl rfl rfl rfl
    -- the watch has no other job
    intro task' other v hother hsame _
    have hother : (l.jobs.erase task).get task' = some other := hother
    rw [Dict.get_erase] at hother
    split at hother
    · cases hother
    · rename_i hne
      exact absurd (h.exclusive task' task other job hother hjob hsame) hne
  · exact h.retire hjob

theorem Loop.Coherent.load (h : l.Coherent listed) {watch : Watch} (hlisted : listed watch)
    (hlatest : ∀ v, listed v → v.id = watch.id → v.Precedes watch) :
    (Loop.load os now l watch).Coherent listed := by
  rw [load_frame]
  refine Loop.Coherent.congr (h.setRuntime
    (r := ((l.runtimes.get watch.id).getD .new).load watch now) rfl rfl hlisted ?_) rfl rfl rfl rfl
  intro task job v hjob hid hv
  obtain ⟨u, hu, _, huid, hu'⟩ := h.working task job hjob
  rw [hv] at hu
  obtain rfl := Option.some.inj hu
  exact hlatest v hu' (huid.trans hid)

theorem Loop.Coherent.drop (h : l.Coherent listed) (id : String) :
    (Loop.drop os l id).Coherent listed := by
  rw [drop_frame]
  exact (h.eraseRuntime id).congr rfl rfl rfl rfl

theorem Loop.Coherent.mark (h : l.Coherent listed) (p : Runtime → Bool) :
    (l.mark p).Coherent listed := by
  have hget : ∀ id r, (l.mark p).runtimes.get id = some r →
      ∃ q, l.runtimes.get id = some q ∧ r.watch = q.watch := by
    intro id r hr
    have hr : (l.runtimes.map _).get id = some r := hr
    rw [Dict.get_map] at hr
    obtain ⟨q, hq, rfl⟩ := Option.map_eq_some_iff.mp hr
    refine ⟨q, hq, ?_⟩
    split <;> rfl
  refine ⟨fun id r hr => ?_, h.working, fun task job r w v hjob hr hw hv => ?_, h.exclusive,
    h.inFlight_iff, h.numbered, h.same_watch⟩
  · obtain ⟨q, hq, hwatch⟩ := hget id r hr
    rw [hwatch]
    exact h.known id q hq
  · obtain ⟨q, hq, hwatch⟩ := hget job.id r hr
    rw [hwatch] at hv
    exact h.behind task job q w v hjob hq hw hv

theorem Loop.Coherent.spawn (h : l.Coherent listed) {id : String} {current : Runtime}
    {watch : Watch} (hcurrent : l.runtimes.get id = some current)
    (hwatch : current.watch = some watch) (hactive : watch.active = true)
    (hfree : id ∉ l.inFlight) : (l.spawn id current watch now).Coherent listed := by
  obtain ⟨w, hw, hid, hlisted⟩ := h.known id current hcurrent
  rw [hwatch] at hw
  obtain rfl := Option.some.inj hw
  have hnone : ∀ task job, l.jobs.get task = some job → job.id ≠ id := fun task job hjob heq =>
    hfree ((h.inFlight_iff id).mpr ⟨task, job, hjob, heq⟩)
  have hruntimes : ∀ id' r, (l.spawn id current watch now).runtimes.get id' = some r →
      ∃ q, l.runtimes.get id' = some q ∧ r.watch = q.watch := by
    intro id' r hr
    have hr : (l.runtimes.set id { current with dirty := false }).get id' = some r := hr
    rw [Dict.get_set] at hr
    split at hr
    · rename_i heq
      obtain rfl := Option.some.inj hr
      exact ⟨current, heq ▸ hcurrent, rfl⟩
    · exact ⟨r, hr, rfl⟩
  have hjobs : ∀ task job, (l.spawn id current watch now).jobs.get task = some job →
      (task = l.tasks ∧ job = ⟨id, now, { current with dirty := false }, .sampling⟩) ∨
        (task ≠ l.tasks ∧ l.jobs.get task = some job) := by
    intro task job hjob
    have hjob : (l.jobs.set l.tasks _).get task = some job := hjob
    rw [Dict.get_set] at hjob
    split at hjob
    · exact Or.inl ⟨by assumption, (Option.some.inj hjob).symm⟩
    · exact Or.inr ⟨by assumption, hjob⟩
  refine ⟨?_, ?_, ?_, ?_, ?_, ?_, ?_⟩
  · intro id' r hr
    obtain ⟨q, hq, heq⟩ := hruntimes id' r hr
    rw [heq]
    exact h.known id' q hq
  · intro task job hjob
    rcases hjobs task job hjob with ⟨_, rfl⟩ | ⟨_, hjob⟩
    · exact ⟨watch, hwatch, hactive, hid, hlisted⟩
    · exact h.working task job hjob
  · intro task job r w v hjob hr hw hv
    obtain ⟨q, hq, heq⟩ := hruntimes job.id r hr
    rw [heq] at hv
    rcases hjobs task job hjob with ⟨_, rfl⟩ | ⟨_, hjob⟩
    · rw [hcurrent] at hq
      obtain rfl := Option.some.inj hq
      have hw : current.watch = some w := hw
      rw [hv] at hw
      rw [Option.some.inj hw]
      exact .refl w
    · exact h.behind task job q w v hjob hq hw hv
  · intro task task' job job' hjob hjob' heq
    rcases hjobs task job hjob with ⟨rfl, rfl⟩ | ⟨_, hjob⟩
    · rcases hjobs task' job' hjob' with ⟨rfl, _⟩ | ⟨_, hjob'⟩
      · rfl
      · exact absurd heq.symm (hnone task' job' hjob')
    · rcases hjobs task' job' hjob' with ⟨rfl, rfl⟩ | ⟨_, hjob'⟩
      · exact absurd heq (hnone task job hjob)
      · exact h.exclusive task task' job job' hjob hjob' heq
  · intro id'
    show id' ∈ insert id l.inFlight ↔ _
    rw [Finset.mem_insert, h.inFlight_iff id']
    constructor
    · rintro (rfl | ⟨task, job, hjob, heq⟩)
      · exact ⟨l.tasks, _, Dict.get_set_self, rfl⟩
      · have hne : task ≠ l.tasks := Nat.ne_of_lt (h.numbered task job hjob)
        exact ⟨task, job, (Dict.get_set_ne hne).trans hjob, heq⟩
    · rintro ⟨task, job, hjob, heq⟩
      rcases hjobs task job hjob with ⟨_, rfl⟩ | ⟨_, hjob⟩
      · exact Or.inl heq.symm
      · exact Or.inr ⟨task, job, hjob, heq⟩
  · intro task job hjob
    show task < l.tasks + 1
    rcases hjobs task job hjob with ⟨rfl, _⟩ | ⟨_, hjob⟩
    · exact Nat.lt_succ_self _
    · exact Nat.lt_succ_of_lt (h.numbered task job hjob)
  · intro task job value change committed hjob hstage
    rcases hjobs task job hjob with ⟨_, rfl⟩ | ⟨_, hjob⟩
    · cases hstage
    · exact h.same_watch task job value change committed hjob hstage

theorem Loop.Coherent.dispatchOne (h : l.Coherent listed) (id : String) :
    (l.dispatchOne now id).Coherent listed := by
  rcases dispatchOne_cases l id now with
    ⟨current, watch, hcurrent, hwatch, hactive, _, hfree, _, heq⟩ | heq
  · rw [heq]
    exact h.spawn hcurrent hwatch hactive hfree
  · rw [heq]
    exact h

theorem Loop.Coherent.turn (h : l.Coherent listed) {branch : Branch} {ids : List String}
    (hloads : ∀ w ∈ branch.loads, listed w ∧ ∀ v, listed v → v.id = w.id → v.Precedes w)
    (hturn : l.turn os branch ids now = some l') : l'.Coherent listed :=
  turn_keeps hturn h (fun _ _ _ _ h => h.congr rfl rfl rfl rfl) (fun _ _ _ hjoin => h.join hjoin)
    (fun _ w hw _ h => h.load (hloads w hw).1 (hloads w hw).2) (fun _ id _ h => h.drop id)
    (fun _ p h => h.mark p) fun _ id h => h.dispatchOne id

end pieces

/-! ## Every reachable host is coherent -/

section host

variable {crates : Crates} {h t : Host} {act : Act}

def Host.Coherent (crates : Crates) (h : Host) : Prop :=
  h.loop.Coherent (Lists crates h.db)

theorem Host.Coherent.step (hh : h.Coherent crates) (hstep : h.step crates act = some t) :
    t.Coherent crates := by
  cases Host.step_moved hstep with
  | called hop => exact Loop.Coherent.mono hh fun w hw => hw.mono fun _ => Op.step_watch _
  | notified =>
      unfold Loop.notify Host.Coherent
      split
      · exact Loop.Coherent.congr hh rfl rfl rfl rfl
      · exact Loop.Coherent.congr hh rfl rfl rfl rfl
  | @sampled task job watch reply hjob hstage hwatch =>
      obtain ⟨hid, _, hsame, _⟩ := sampled_frame job watch reply
      refine Loop.Coherent.setJob hh hjob hid hsame ?_ _
      intro value change committed hcommitting
      unfold Job.sampled at hcommitting
      split at hcommitting
      · cases hcommitting
      · cases hcommitting
  | @compared task job watch observed busy hjob hstage hwatch =>
      obtain ⟨hid, _, hsame, _, hafter⟩ := compared_frame job watch observed
        (readBaseline crates h.db watch.id busy)
      exact Loop.Coherent.setJob hh hjob hid hsame
        (fun value change committed hcommitting => (hafter value change committed hcommitting).1) _
  | @committed task job watch value change after eventUuid uuid now stamp receipt db hjob hstage
      hwatch hnew hcommit =>
      have hlists := fun w (hw : Lists crates h.db w) =>
        hw.mono fun _ => Commits.watch (commitSample_commits hcommit)
      refine Loop.Coherent.setJob (Loop.Coherent.mono hh hlists) hjob (finish_id job true after) ?_ ?_ _
      · rw [finish_watch]
        exact hh.same_watch task job value change after hjob hstage
      · intro value change after hcommitting
        have hcommitting : Stage.finished = .committing value change after := hcommitting
        cases hcommitting
  | @refused task job watch value change after eventUuid uuid now stamp busy hjob hstage hwatch =>
      refine Loop.Coherent.setJob hh hjob (finish_id job false job.runtime)
        (finish_watch job false job.runtime) ?_ _
      intro value change after hcommitting
      have hcommitting : Stage.finished = .committing value change after := hcommitting
      cases hcommitting
  | turned hbranch hturn =>
      exact Loop.Coherent.turn hh (Branch.loads_keeps hbranch) hturn
  | reloaded hrows hturn =>
      refine Loop.Coherent.turn hh (fun w hw => ?_) hturn
      obtain ⟨_, hlisted, hlatest⟩ := loaded_spec hrows hw
      exact ⟨hlisted, hlatest⟩
  | restarted => exact coherent_new _

theorem Host.Reachable.coherent (h : Host.Reachable crates t) : t.Coherent crates :=
  Runs.Leads.invariant (fun _ _ _ hs hstep => Host.Coherent.step hs hstep) h (coherent_new [])

end host

end CodexMonitor.Collector
