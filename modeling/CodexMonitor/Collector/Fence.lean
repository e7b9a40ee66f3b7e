import CodexMonitor.Collector.Chain
import CodexMonitor.Store.Registry

/-!
# The lifecycle fence

A job may have been dispatched before its watch is paused, resumed or removed, and may
commit or be joined at any time after that.  The store compares epochs inside the
transaction, and the loop compares them when it joins a job; so what the job has found
reaches neither the store nor the runtime of a later epoch.
-/

namespace CodexMonitor.Collector

open Transaction

/-! ## Lifecycle actions -/

/-- The call pauses, resumes or removes the watch of the row. -/
inductive Governs (db : Db) (row : CodexMonitor.Watch) : Op → Prop
  | watch {thread name action : String} {now : Rat} {v : CodexMonitor.Watch} {t : Db}
      (h : (watchAction thread name action now).run db = (.ok v, t)) (hid : v.id = row.id) :
      Governs db row (.watchAction thread name action now)
  | route {action : String} {now : Rat} {receipt : RouteReceipt} {t : Db}
      (h : (routeAction row.binding action now).run db = (.ok receipt, t))
      (hlive : row.removed = false) : Governs db row (.routeAction row.binding action now)

section actions

variable {db : Db} {row : CodexMonitor.Watch} {op : Op}

/-- A lifecycle action moves the epoch of its watch on. -/
theorem Governs.epoch_lt (crates : Crates) (h : Governs db row op) (hrow : row ∈ db.managedWatches) :
    ∃ v ∈ (op.step crates db).managedWatches, v.id = row.id ∧ row.epoch < v.epoch := by
  cases h with
  | watch h hid =>
      obtain ⟨w, hw, hwid, _, _, _, hv, hepoch⟩ := watchAction_row h
      obtain rfl := CodexMonitor.Watch.eq_of_id hw hrow (hwid.trans hid)
      rw [step_of_run rfl h]
      exact ⟨_, hv, hid, by omega⟩
  | route h hlive =>
      obtain ⟨_, v, hv, hid, hepoch⟩ := routeAction_watches h hrow rfl hlive
      rw [step_of_run rfl h]
      exact ⟨v, hv, hid, by omega⟩

end actions

/-! ## What a job has of its watch -/

/-- The job's copy of the watch is of the row's epoch or an earlier one. -/
def Job.Behind (job : Job) (row : CodexMonitor.Watch) : Prop :=
  ∃ w, job.runtime.watch = some w ∧ w.id = row.id ∧ w.epoch ≤ row.epoch

/-- A candidate is of the epoch of its runtime. -/
def Runtime.Current (_ : String) (r : Runtime) : Prop :=
  ∀ c, r.candidate = some c → r.epoch = some c.epoch

/-- The candidate of a job is of its epoch, and is dropped when the job commits. -/
structure Job.Current (job : Job) : Prop where
  runtime : job.runtime.Current job.id
  committing : ∀ v change after, job.stage = .committing v change after → after.candidate = none

section current

variable {job : Job} {r : Runtime} {w : Watch} {id : String}

theorem current_none (hr : r.candidate = none) : r.Current id := by
  intro c hc
  rw [hr] at hc
  cases hc

theorem Runtime.Current.congr {r' : Runtime} (h : r.Current id) (hcandidate : r'.candidate = r.candidate)
    (hwatch : r'.watch = r.watch) : r'.Current id := by
  intro c hc
  rw [hcandidate] at hc
  unfold Runtime.epoch
  rw [hwatch]
  exact h c hc

/-- Another epoch drops the candidate. -/
theorem Runtime.Current.load {now : Rat} (h : r.Current id) : (r.load w now).Current id := by
  intro c hc
  have hc : (if r.epochChanged w = true then none else r.candidate) = some c := hc
  obtain ⟨hsame, hc⟩ := Option.ite_none_left_eq_some.mp hc
  have hepoch := h c hc
  obtain ⟨v, hv, hvc⟩ := Option.map_eq_some_iff.mp hepoch
  unfold Runtime.epochChanged at hsame
  rw [hv] at hsame
  have hsame : v.epoch = w.epoch := by simpa using hsame
  show some w.epoch = some c.epoch
  rw [← hsame, hvc]

theorem Job.Current.finish (h : r.Current job.id) (ok : Bool) : (job.finish ok r).Current where
  runtime := h.congr (finish_candidate job ok r) (finish_watch job ok r)
  committing v change after hstage := by
    have hstage : Stage.finished = .committing v change after := hstage
    cases hstage

theorem Job.Current.sampled (h : job.Current) (reply : Option FileSample) :
    (job.sampled w reply).1.Current := by
  obtain ⟨hid, _, hwatch, hcandidate, _⟩ := sampled_frame job w reply
  refine ⟨?_, ?_⟩
  · rw [hid]
    exact h.runtime.congr hcandidate hwatch
  · intro v change after hstage
    unfold Job.sampled at hstage
    split at hstage
    · cases hstage
    · cases hstage

theorem Job.Current.compared (h : job.Current) (hw : job.runtime.watch = some w) {observed : Value}
    {baseline : Option (Option Value)} : (job.compared w observed baseline).1.Current := by
  unfold Job.compared
  cases baseline with
  | none => exact Job.Current.finish h.runtime false
  | some b =>
      have hjudge := judge_spec job.runtime w observed b job.now
      simp only
      cases hjudged : judge job.runtime w observed b job.now with
      | ended r' =>
          rw [hjudged] at hjudge
          refine Job.Current.finish ?_ true
          cases hjudge with
          | unchanged => exact current_none rfl
          | fresh =>
              -- a new candidate is of the epoch of the job's watch
              intro c hc
              obtain rfl := Option.some.inj hc
              show job.runtime.watch.map Watch.epoch = some w.epoch
              rw [hw]
              rfl
          | young => exact h.runtime.congr rfl rfl
      | commit v change failed after =>
          rw [hjudged] at hjudge
          refine ⟨?_, fun v' change' after' hstage => ?_⟩
          · show failed.Current job.id
            cases hjudge with
            | first => exact h.runtime
            | prompt => exact h.runtime
            | ripe => exact current_none rfl
          · obtain ⟨rfl, rfl, rfl⟩ := Stage.committing.inj hstage
            cases hjudge with
            | first => rfl
            | prompt => rfl
            | ripe => rfl

theorem current_carries : Carries Runtime.Current Job.Current where
  load := by
    rintro id r w at_ (rfl | ⟨hr, _⟩)
    · exact current_none rfl
    · exact hr.load
  dirty _ _ _ hr := hr.congr rfl rfl
  spawn id r at_ hr := by
    refine ⟨hr.congr rfl rfl, ?_⟩
    intro v change after hstage
    cases hstage
  join _ _ hjob _ := hjob.runtime.congr rfl rfl

end current

section host

variable {crates : Crates} {h t a b c : Host} {act : Act} {row : CodexMonitor.Watch} {op : Op}

theorem Host.current_step (hh : h.loop.Each Runtime.Current Job.Current) (hc : h.Coherent crates)
    (hstep : h.step crates act = some t) : t.loop.Each Runtime.Current Job.Current := by
  cases Host.step_moved hstep with
  | called => exact hh
  | notified =>
      unfold Loop.notify
      split
      · exact hh.congr rfl rfl
      · exact hh.congr rfl rfl
  | sampled hjob => exact hh.setJob ((hh.job _ _ hjob).sampled _) _
  | compared hjob _ hwatch => exact hh.setJob ((hh.job _ _ hjob).compared hwatch) _
  | committed hjob hstage =>
      exact hh.setJob (Job.Current.finish
        (current_none ((hh.job _ _ hjob).committing _ _ _ hstage)) true) _
  | refused hjob => exact hh.setJob (Job.Current.finish (hh.job _ _ hjob).runtime false) _
  | turned hbranch hturn =>
      exact hh.turn current_carries hc (Branch.loads_keeps hbranch) hturn
  | reloaded hrows hturn =>
      exact hh.turn current_carries hc (fun w hw => (loaded_spec hrows hw).2) hturn
  | restarted => exact each_new _

theorem Host.Reachable.current (h : Host.Reachable crates t) :
    t.loop.Each Runtime.Current Job.Current := by
  have hall : t.Coherent crates ∧ t.loop.Each Runtime.Current Job.Current :=
    Runs.Leads.invariant (P := fun t => t.Coherent crates ∧ t.loop.Each Runtime.Current Job.Current)
      (fun _ _ _ hs hstep => ⟨hs.1.step hstep, Host.current_step hs.2 hs.1 hstep⟩) h
      ⟨coherent_new [], each_new []⟩
  exact hall.2

/-- A row only becomes a later version of itself. -/
theorem Host.leads_row (hleads : Runs.Leads (Host.step crates) h t)
    (hrow : row ∈ h.db.managedWatches) : ∃ v ∈ t.db.managedWatches, row.Becomes v := by
  refine Runs.Leads.invariant (P := fun t => ∃ v ∈ t.db.managedWatches, row.Becomes v) ?_ hleads
    ⟨row, hrow, .refl row⟩
  rintro s act u ⟨v, hv, hbecomes⟩ hstep
  have hnext : ∃ v' ∈ u.db.managedWatches, v.Becomes v' := by
    cases Host.step_moved hstep with
    | called => exact Op.step_watch _ hv
    | committed _ _ _ _ hcommit => exact Commits.watch (commitSample_commits hcommit) hv
    | notified | sampled | compared | refused | turned | reloaded | restarted =>
        exact ⟨v, hv, .refl v⟩
  obtain ⟨v', hv', hnext⟩ := hnext
  exact ⟨v', hv', hbecomes.trans hnext⟩

/-- A sample of a job that is behind is refused. -/
theorem behind_refused (hrow : row ∈ c.db.managedWatches) {task : Nat} {job : Job}
    (hjob : c.loop.jobs.get task = some job)
    (hbehind : ∃ w, job.runtime.watch = some w ∧ w.id = row.id ∧ w.epoch < row.epoch)
    {eventUuid uuid : Uuid} {now stamp : Rat} {busy : Bool}
    (hstep : c.step crates (.committed task eventUuid uuid now stamp busy) = some t) :
    t.db = c.db ∧ t.loop.notes = c.loop.notes := by
  obtain ⟨w, hw, hid, hlt⟩ := hbehind
  cases Host.step_moved hstep with
  | committed hjob' _ hwatch _ hcommit =>
      obtain rfl := Option.some.inj (hjob.symm.trans hjob')
      obtain rfl := Option.some.inj (hw.symm.trans hwatch)
      obtain ⟨v, hv, hvid, hepoch, _⟩ := commitSample_ok hcommit
      obtain rfl := CodexMonitor.Watch.eq_of_id hv hrow (hvid.trans hid)
      omega
  | refused => exact ⟨rfl, List.append_nil _⟩

/-- **The lifecycle fence.**  Once a pause, a resume or a removal of a watch has committed, then
after any further steps: the jobs there were for it are behind; the sample of a job that is behind
changes nothing in the store; and a runtime of a later epoch has no candidate of an earlier one. -/
theorem lifecycle_fence (ha : Host.Reachable crates a) (hrow : row ∈ a.db.managedWatches)
    (hgoverns : Governs a.db row op) (hstep : a.step crates (.called op) = some b)
    (hleads : Runs.Leads (Host.step crates) b c) :
    (∀ task job, a.loop.jobs.get task = some job → job.id = row.id → job.Behind row) ∧
    (∀ task job, c.loop.jobs.get task = some job → job.Behind row →
      ∀ eventUuid uuid now stamp busy t,
        c.step crates (.committed task eventUuid uuid now stamp busy) = some t →
          t.db = c.db ∧ t.loop.notes = c.loop.notes) ∧
    ∀ r w candidate, c.loop.runtimes.get row.id = some r → r.watch = some w →
      row.epoch < w.epoch → r.candidate = some candidate → row.epoch < candidate.epoch := by
  refine ⟨?_, ?_, ?_⟩
  · intro task job hjob hid
    obtain ⟨w, hw, _, hwid, hlisted⟩ := ha.coherent.working task job hjob
    obtain ⟨v, hv, hprecedes⟩ := hlisted.latest hrow (hid.symm.trans hwid.symm)
    have hepoch : v.epoch = row.epoch := by rw [watchFromValue_some hv]
    exact ⟨w, hw, hwid.trans hid, hepoch ▸ hprecedes.epoch_le⟩
  · intro task job hjob hbehind eventUuid uuid now stamp busy t hcommit
    have hb : b.db = op.step crates a.db := by
      cases Host.step_moved hstep
      rfl
    obtain ⟨v, hv, hvid, hlt⟩ := hgoverns.epoch_lt crates hrow
    rw [← hb] at hv
    obtain ⟨u, hu, hbecomes⟩ := Host.leads_row hleads hv
    obtain ⟨w, hw, hwid, hle⟩ := hbehind
    have hlater := hbecomes.epoch_le
    exact behind_refused hu hjob
      ⟨w, hw, hwid.trans (hvid.symm.trans hbecomes.id_eq.symm), by omega⟩ hcommit
  · intro r w candidate hr hw hlt hcandidate
    have hc : Host.Reachable crates c := (Runs.Leads.tail ha hstep).trans hleads
    have hepoch := hc.current.record row.id r hr candidate hcandidate
    unfold Runtime.epoch at hepoch
    rw [hw] at hepoch
    rw [← Option.some.inj hepoch]
    exact hlt

end host

/-! ## A pause while a job is at work -/

/-- A job has seen for five seconds that the file has changed; the watch is paused. -/
def pausedActs : List Act :=
  sampleBaseline ++
    sampleAttempt 1 12 [.sampled 1 (some (sampleContent "bb")), .compared 1 false] ++
    [.turned .works .woken [(sampleUuid 4).text] 17, .sampled 2 (some (sampleContent "bb")),
      .compared 2 false]

def pauseOp : Op := .watchAction "conversation-1" "build-log" "pause" 18

/-- The job tries to store what it has seen. -/
def lateCommit : Act := .committed 2 (sampleUuid 7) (sampleUuid 8) 18 18 false

theorem lifecycle_fence_sample :
    ∃ (a b t : Host) (row : CodexMonitor.Watch) (job : Job),
      Host.Reachable sampleFileCrates a ∧ row ∈ a.db.managedWatches ∧
      a.step sampleFileCrates (.called pauseOp) = some b ∧ a.loop.jobs.get 2 = some job ∧
      job.Behind row ∧ b.loop.jobs.get 2 = some job ∧
      b.step sampleFileCrates lateCommit = some t ∧ t.db = b.db ∧ t.loop.notes = b.loop.notes := by
  have hrun : (Runs.run? (Host.step sampleFileCrates) pausedActs .initial).any (fun a =>
      ((watchAction "conversation-1" "build-log" "pause" 18).run a.db).1.toOption.any (fun v =>
        ((a.loop.jobs.get 2).any fun job => job.id = v.id) = true ∧
          (a.db.managedWatches.rows.any fun row => row.id = v.id) = true) = true ∧
        ((a.step sampleFileCrates (.called pauseOp)).any fun b =>
          (b.step sampleFileCrates lateCommit).isSome) = true) = true := by
    decide +kernel
  obtain ⟨a, ha, hfacts⟩ := Option.any_eq_true _ _ |>.mp hrun
  obtain ⟨haction, hsteps⟩ := of_decide_eq_true hfacts
  obtain ⟨v, hv, hboth⟩ := Option.any_eq_true _ _ |>.mp haction
  obtain ⟨hjobs, hrows⟩ := of_decide_eq_true hboth
  obtain ⟨job, hjob, hjobid⟩ := Option.any_eq_true _ _ |>.mp hjobs
  obtain ⟨row, hrow, hrowid⟩ := List.any_eq_true.mp hrows
  obtain ⟨b, hb, hlate⟩ := Option.any_eq_true _ _ |>.mp hsteps
  obtain ⟨t, ht⟩ := Option.isSome_iff_exists.mp hlate
  have hrowid := of_decide_eq_true hrowid
  have hgoverns : Governs a.db row pauseOp := by
    cases haction : (watchAction "conversation-1" "build-log" "pause" 18).run a.db with
    | mk answer t =>
        rw [haction] at hv
        cases answer with
        | error error => cases hv
        | ok found =>
            obtain rfl := Option.some.inj hv
            exact .watch haction hrowid.symm
  have hreachable : Host.Reachable sampleFileCrates a := Runs.leads_run ha
  have hfence := lifecycle_fence hreachable hrow hgoverns hb .refl
  have hbehind := hfence.1 2 job hjob ((of_decide_eq_true hjobid).trans hrowid.symm)
  have hkept : b.loop.jobs.get 2 = some job := by
    cases Host.step_moved hb
    exact hjob
  obtain ⟨hdb, hnotes⟩ := hfence.2.1 2 job hkept hbehind _ _ _ _ _ t ht
  exact ⟨a, b, t, row, job, hreachable, hrow, hb, hjob, hbehind, hkept, ht, hdb, hnotes⟩

end CodexMonitor.Collector
