import CodexMonitor.Collector.Loop
import CodexMonitor.Lib.Runs
import CodexMonitor.Store.Operation

/-!
# The collector beside the store

A `Host` is the store and the collector that works on it.  The loop's turns, the steps
of its jobs, the callbacks of the native watcher and the calls of all other tasks come
in any order; what the loop does within a turn touches neither the store nor a job
that is not finished, so a turn is one step.  A restart loses everything but the
store.

Workers answer what the file is like, or fail; SQLite may be busy at any statement;
generated identifiers are new.
-/

namespace CodexMonitor.Collector

open Transaction

/-- `store.watches(None)`, which fails when a checkpoint is not JSON. -/
def watches (crates : Crates) : StoreM (List CodexMonitor.Watch) := do
  let rows ← Tx.query fun db => db.managedWatches.select (fun w => w.removed = false) fun v w =>
    v.thread < w.thread ∨ (v.thread = w.thread ∧ v.name ≤ w.name)
  Tx.bailIf (rows.any fun w => w.checkpoint.any fun text => (crates.fromStr text).isNone)
    (.sqlite "Conversion error")
  pure rows

/-! ## Jobs -/

/-- After an error the watch is due one interval later. -/
def Runtime.retry (r : Runtime) (now : Rat) : Runtime :=
  { r with nextDue := some (now + ((r.watch.map Watch.interval).getD 1)) }

/-- `process_watch` returned. -/
def Job.finish (job : Job) (ok : Bool) (runtime : Runtime) : Job :=
  { job with runtime := if ok = true then runtime else runtime.retry job.now, stage := .finished }

/-- A job moves on. -/
def Loop.advance (l : Loop) (task : Nat) (job : Job) (notes : List Note) : Loop :=
  { l with jobs := l.jobs.set task job, notes := l.notes ++ notes }

/-- The worker has answered. -/
def Job.sampled (job : Job) (watch : Watch) (reply : Option FileSample) : Job × List Note :=
  match look job.runtime (reply.map FileSample.value) with
  | .ended ok runtime =>
      (job.finish ok runtime, [.attempted job.id job.now watch.epoch none])
  | .observed value runtime => ({ job with runtime := runtime, stage := .comparing value }, [])

/-- The checkpoint is read, if it could be. -/
def Job.compared (job : Job) (watch : Watch) (observed : Value)
    (baseline : Option (Option Value)) : Job × List Note :=
  match baseline with
  | none => (job.finish false job.runtime, [.attempted job.id job.now watch.epoch none])
  | some baseline =>
      let note := Note.attempted job.id job.now watch.epoch (some observed)
      match judge job.runtime watch observed baseline job.now with
      | .ended runtime => (job.finish true runtime, [note])
      | .commit checkpoint change failed committed =>
          ({ job with runtime := failed, stage := .committing checkpoint change committed }, [note])

section job

variable (job : Job) (watch : Watch)

@[simp] theorem finish_id (ok : Bool) (r : Runtime) : (job.finish ok r).id = job.id := rfl

theorem finish_watch (ok : Bool) (r : Runtime) : (job.finish ok r).runtime.watch = r.watch := by
  unfold Job.finish
  cases ok <;> rfl

theorem finish_candidate (ok : Bool) (r : Runtime) :
    (job.finish ok r).runtime.candidate = r.candidate := by
  unfold Job.finish
  cases ok <;> rfl

theorem finish_dirty (ok : Bool) (r : Runtime) : (job.finish ok r).runtime.dirty = r.dirty := by
  unfold Job.finish
  cases ok <;> rfl

/-- A job keeps its watch, whatever the worker answers. -/
theorem sampled_frame (reply : Option FileSample) :
    (job.sampled watch reply).1.id = job.id ∧ (job.sampled watch reply).1.now = job.now ∧
      (job.sampled watch reply).1.runtime.watch = job.runtime.watch ∧
      (job.sampled watch reply).1.runtime.candidate = job.runtime.candidate ∧
      (job.sampled watch reply).1.runtime.dirty = job.runtime.dirty := by
  have hframe := look_frame job.runtime (reply.map FileSample.value)
  have hwatch := congrArg Runtime.watch hframe
  have hcandidate := congrArg Runtime.candidate hframe
  have hdirty := congrArg Runtime.dirty hframe
  unfold Job.sampled
  cases hlook : look job.runtime (reply.map FileSample.value) with
  | ended ok r =>
      rw [hlook] at hwatch hcandidate hdirty
      exact ⟨rfl, rfl, (finish_watch _ _ _).trans hwatch, (finish_candidate _ _ _).trans hcandidate,
        (finish_dirty _ _ _).trans hdirty⟩
  | observed value r =>
      rw [hlook] at hwatch hcandidate hdirty
      exact ⟨rfl, rfl, hwatch, hcandidate, hdirty⟩

/-- A job keeps its watch, whatever the checkpoint is. -/
theorem compared_frame (observed : Value) (baseline : Option (Option Value)) :
    (job.compared watch observed baseline).1.id = job.id ∧
      (job.compared watch observed baseline).1.now = job.now ∧
      (job.compared watch observed baseline).1.runtime.watch = job.runtime.watch ∧
      (job.compared watch observed baseline).1.runtime.dirty = job.runtime.dirty ∧
      ∀ value change after, (job.compared watch observed baseline).1.stage =
        .committing value change after →
          after.watch = job.runtime.watch ∧ after.dirty = job.runtime.dirty := by
  unfold Job.compared
  cases baseline with
  | none =>
      refine ⟨rfl, rfl, finish_watch job false job.runtime, finish_dirty job false job.runtime, ?_⟩
      intro value change after hstage
      have hstage : Stage.finished = .committing value change after := hstage
      cases hstage
  | some baseline =>
      have hjudge := judge_spec job.runtime watch observed baseline job.now
      simp only
      cases hjudged : judge job.runtime watch observed baseline job.now with
      | ended r =>
          rw [hjudged] at hjudge
          refine ⟨rfl, rfl, ?_, ?_, ?_⟩
          · rw [finish_watch]
            cases hjudge <;> rfl
          · rw [finish_dirty]
            cases hjudge <;> rfl
          · intro value change after hstage
            have hstage : Stage.finished = .committing value change after := hstage
            cases hstage
      | commit value change failed after =>
          rw [hjudged] at hjudge
          refine ⟨rfl, rfl, ?_, ?_, ?_⟩
          · cases hjudge <;> rfl
          · cases hjudge <;> rfl
          · intro value' change' after' hstage
            obtain ⟨rfl, rfl, rfl⟩ := Stage.committing.inj hstage
            cases hjudge <;> exact ⟨rfl, rfl⟩

/-- A worker's answer ends an attempt or nothing. -/
theorem sampled_notes (reply : Option FileSample) : ∀ note ∈ (job.sampled watch reply).2,
    note = .attempted job.id job.now watch.epoch none := by
  unfold Job.sampled
  split
  · exact fun note hnote => List.mem_singleton.mp hnote
  · exact fun note hnote => absurd hnote List.not_mem_nil

/-- The read of the checkpoint ends an attempt. -/
theorem compared_notes (observed : Value) (baseline : Option (Option Value)) :
    ∃ v, (job.compared watch observed baseline).2 =
      [.attempted job.id job.now watch.epoch v] := by
  unfold Job.compared
  cases baseline with
  | none => exact ⟨none, rfl⟩
  | some b =>
      simp only
      cases judge job.runtime watch observed b job.now <;> exact ⟨some observed, rfl⟩

end job

/-- What `checkpoint` answers a job, if it does. -/
def readBaseline (crates : Crates) (db : Db) (id : String) (busy : Bool) : Option (Option Value) :=
  if busy = true then none else ((checkpoint crates id).run db).1.toOption

/-! ## Steps -/

structure Host where
  db : Db
  loop : Loop

/-- A store and a collector that have never run. -/
def Host.initial : Host := ⟨Db.empty, .new []⟩

/-- The collector alone commits samples. -/
def Samples : Op → Bool
  | .commitSample .. => true
  | _ => false

/-- What can happen next. -/
inductive Act
  /-- a call of any other task or process -/
  | called (op : Op)
  /-- the native watcher's callback runs -/
  | notified (path : Path)
  /-- a worker answers a job, or fails it -/
  | sampled (task : Nat) (reply : Option FileSample)
  /-- a job reads its checkpoint -/
  | compared (task : Nat) (busy : Bool)
  /-- a job commits -/
  | committed (task : Nat) (eventUuid uuid : Uuid) (now stamp : Rat) (busy : Bool)
  /-- the loop takes a branch that needs no store -/
  | turned (os : Native) (branch : Branch) (ids : List String) (now : Rat)
  /-- the loop loads the watches -/
  | reloaded (os : Native) (at_ : Rat) (ids : List String) (now : Rat)
  /-- the process is gone, and another one starts -/
  | restarted

def Branch.reloads : Branch → Bool
  | .reloaded .. => true
  | _ => false

theorem Branch.loads_eq_nil {branch : Branch} (h : branch.reloads = false) : branch.loads = [] := by
  cases branch with
  | reloaded watches now => cases h
  | _ => rfl

/-- A branch that is no reload loads nothing. -/
theorem Branch.loads_keeps {branch : Branch} (h : branch.reloads = false) {P : Watch → Prop} :
    ∀ w ∈ branch.loads, P w := by
  rw [Branch.loads_eq_nil h]
  exact fun _ hw => absurd hw List.not_mem_nil

/-- One step; `none` when it is not possible. -/
def Host.step (crates : Crates) (h : Host) : Act → Option Host
  | .called op => if Samples op = true then none else some { h with db := op.step crates h.db }
  | .notified path => some { h with loop := h.loop.notify path }
  | .sampled task reply =>
      match h.loop.jobs.get task with
      | some ⟨id, now, runtime, .sampling⟩ =>
          match runtime.watch with
          | none => none
          | some watch =>
              if ∀ sample ∈ reply, sample.Answers watch.condition then
                let moved := Job.sampled ⟨id, now, runtime, .sampling⟩ watch reply
                some { h with loop := h.loop.advance task moved.1 moved.2 }
              else none
      | _ => none
  | .compared task busy =>
      match h.loop.jobs.get task with
      | some ⟨id, now, runtime, .comparing observed⟩ =>
          match runtime.watch with
          | none => none
          | some watch =>
              let moved := Job.compared ⟨id, now, runtime, .comparing observed⟩ watch observed
                (readBaseline crates h.db watch.id busy)
              some { h with loop := h.loop.advance task moved.1 moved.2 }
      | _ => none
  | .committed task eventUuid uuid now stamp busy =>
      match h.loop.jobs.get task with
      | some ⟨id, dispatched, runtime, .committing value change committed⟩ =>
          match runtime.watch with
          | none => none
          | some watch =>
              let job : Job := ⟨id, dispatched, runtime, .committing value change committed⟩
              if h.db.events.Any fun e => e.eventId = eventUuid.text then none
              else if busy = true then
                some { h with loop := h.loop.advance task (job.finish false runtime) [] }
              else
                match (commitSample crates watch.id watch.epoch value
                    (change.map (makeEvent eventUuid watch)) uuid now stamp).run h.db with
                | (.ok receipt, db) =>
                    some ⟨db, h.loop.advance task (job.finish true committed)
                      [.committed watch dispatched value change (receipt.map Receipt.deliveryId)]⟩
                | (.error _, db) =>
                    some ⟨db, h.loop.advance task (job.finish false runtime) []⟩
      | _ => none
  | .turned os branch ids now =>
      if branch.reloads = true then none
      else (h.loop.turn os branch ids now).map fun loop => { h with loop := loop }
  | .reloaded os at_ ids now =>
      match (watches crates).run h.db with
      -- the loop ends with an error; its jobs go on until the restart
      | (.error _, _) => none
      | (.ok rows, _) =>
          (h.loop.turn os (.reloaded (rows.filterMap (watchFromValue crates)) at_) ids now).map
            fun loop => { h with loop := loop }
  | .restarted => some { h with loop := .new (h.loop.notes ++ [.restarted]) }

/-- What a step did. -/
inductive Moved (crates : Crates) (h : Host) : Act → Host → Prop
  | called {op : Op} (hop : Samples op = false) :
      Moved crates h (.called op) { h with db := op.step crates h.db }
  | notified {path : Path} : Moved crates h (.notified path) { h with loop := h.loop.notify path }
  | sampled {task : Nat} {job : Job} {watch : Watch} {reply : Option FileSample}
      (hjob : h.loop.jobs.get task = some job) (hstage : job.stage = .sampling)
      (hwatch : job.runtime.watch = some watch)
      (hanswers : ∀ sample ∈ reply, sample.Answers watch.condition) :
      Moved crates h (.sampled task reply) { h with
        loop := h.loop.advance task (job.sampled watch reply).1 (job.sampled watch reply).2 }
  | compared {task : Nat} {job : Job} {watch : Watch} {observed : Value} {busy : Bool}
      (hjob : h.loop.jobs.get task = some job) (hstage : job.stage = .comparing observed)
      (hwatch : job.runtime.watch = some watch) :
      Moved crates h (.compared task busy) { h with
        loop := h.loop.advance task
          (job.compared watch observed (readBaseline crates h.db watch.id busy)).1
          (job.compared watch observed (readBaseline crates h.db watch.id busy)).2 }
  /-- the store took the sample -/
  | committed {task : Nat} {job : Job} {watch : Watch} {value : Value} {change : Option Change}
      {after : Runtime} {eventUuid uuid : Uuid} {now stamp : Rat} {receipt : Option Receipt} {db : Db}
      (hjob : h.loop.jobs.get task = some job) (hstage : job.stage = .committing value change after)
      (hwatch : job.runtime.watch = some watch)
      (hnew : ∀ e ∈ h.db.events, e.eventId ≠ eventUuid.text)
      (hcommit : (commitSample crates watch.id watch.epoch value
        (change.map (makeEvent eventUuid watch)) uuid now stamp).run h.db = (.ok receipt, db)) :
      Moved crates h (.committed task eventUuid uuid now stamp false)
        ⟨db, h.loop.advance task (job.finish true after)
          [.committed watch job.now value change (receipt.map Receipt.deliveryId)]⟩
  /-- the store refused the sample, or was busy -/
  | refused {task : Nat} {job : Job} {watch : Watch} {value : Value} {change : Option Change}
      {after : Runtime} {eventUuid uuid : Uuid} {now stamp : Rat} {busy : Bool}
      (hjob : h.loop.jobs.get task = some job) (hstage : job.stage = .committing value change after)
      (hwatch : job.runtime.watch = some watch) :
      Moved crates h (.committed task eventUuid uuid now stamp busy)
        { h with loop := h.loop.advance task (job.finish false job.runtime) [] }
  | turned {os : Native} {branch : Branch} {ids : List String} {now : Rat} {loop : Loop}
      (hbranch : branch.reloads = false) (hturn : h.loop.turn os branch ids now = some loop) :
      Moved crates h (.turned os branch ids now) { h with loop := loop }
  | reloaded {os : Native} {rows : List CodexMonitor.Watch} {at_ : Rat} {ids : List String}
      {now : Rat} {loop : Loop} {db : Db}
      (hrows : (watches crates).run h.db = (.ok rows, db))
      (hturn : h.loop.turn os (.reloaded (rows.filterMap (watchFromValue crates)) at_) ids now =
        some loop) :
      Moved crates h (.reloaded os at_ ids now) { h with loop := loop }
  | restarted :
      Moved crates h .restarted { h with loop := .new (h.loop.notes ++ [.restarted]) }

theorem commitSample_harmless (crates : Crates) (id : String) (epoch : Int) (value : Value)
    (event : Option Value) (uuid : Uuid) (now stamp : Rat) :
    Tx.Harmless (commitSample crates id epoch value event uuid now stamp) := by
  unfold commitSample
  exact (readOnly_bail _ _).bind_harmless fun _ => (readOnly_bail _ _).bind_harmless fun _ =>
    (readOnly_bail _ _).bind_harmless fun _ => harmless_withTx _

theorem Host.step_moved {crates : Crates} {h t : Host} {act : Act}
    (hstep : h.step crates act = some t) : Moved crates h act t := by
  cases act with
  | called op =>
      simp only [Host.step] at hstep
      split at hstep
      · cases hstep
      · rename_i hop
        obtain rfl := Option.some.inj hstep
        exact .called (Bool.eq_false_of_not_eq_true hop)
  | notified path =>
      obtain rfl := Option.some.inj hstep
      exact .notified
  | sampled task reply =>
      simp only [Host.step] at hstep
      split at hstep
      · rename_i id now runtime hjob
        split at hstep
        · cases hstep
        · rename_i watch hwatch
          split at hstep
          · rename_i hanswers
            obtain rfl := Option.some.inj hstep
            exact .sampled hjob rfl hwatch hanswers
          · cases hstep
      · cases hstep
  | compared task busy =>
      simp only [Host.step] at hstep
      split at hstep
      · rename_i id now runtime observed hjob
        split at hstep
        · cases hstep
        · rename_i watch hwatch
          obtain rfl := Option.some.inj hstep
          exact .compared hjob rfl hwatch
      · cases hstep
  | committed task eventUuid uuid now stamp busy =>
      simp only [Host.step] at hstep
      split at hstep
      · rename_i id dispatched runtime value change after hjob
        split at hstep
        · cases hstep
        · rename_i watch hwatch
          split at hstep
          · cases hstep
          · rename_i hnew
            split at hstep
            · obtain rfl := Option.some.inj hstep
              exact .refused hjob rfl hwatch
            · rename_i hbusy
              obtain rfl : busy = false := Bool.eq_false_of_not_eq_true hbusy
              split at hstep
              · rename_i receipt db hcommit
                obtain rfl := Option.some.inj hstep
                exact .committed hjob rfl hwatch (fun e he heq => hnew ⟨e, he, heq⟩) hcommit
              · rename_i error db hcommit
                have hkept := commitSample_harmless crates watch.id watch.epoch value
                  (change.map (makeEvent eventUuid watch)) uuid now stamp h.db error
                rw [hcommit] at hkept
                obtain rfl : db = h.db := hkept rfl
                obtain rfl := Option.some.inj hstep
                exact .refused hjob rfl hwatch
      · cases hstep
  | turned os branch ids now =>
      simp only [Host.step] at hstep
      split at hstep
      · cases hstep
      · rename_i hbranch
        obtain ⟨loop, hturn, rfl⟩ := Option.map_eq_some_iff.mp hstep
        exact .turned (Bool.eq_false_of_not_eq_true hbranch) hturn
  | reloaded os at_ ids now =>
      simp only [Host.step] at hstep
      split at hstep
      · cases hstep
      · rename_i rows db hrows
        obtain ⟨loop, hturn, rfl⟩ := Option.map_eq_some_iff.mp hstep
        exact .reloaded hrows hturn
  | restarted =>
      obtain rfl := Option.some.inj hstep
      exact .restarted

/-- Reachable from a store and a collector that have never run. -/
def Host.Reachable (crates : Crates) (h : Host) : Prop :=
  Runs.Leads (Host.step crates) .initial h

/-- Reachable by steps that meet `ok`. -/
def Host.ReachableBy (crates : Crates) (ok : Host → Act → Prop) (h : Host) : Prop :=
  Runs.LeadsBy (Host.step crates) ok .initial h

end CodexMonitor.Collector
