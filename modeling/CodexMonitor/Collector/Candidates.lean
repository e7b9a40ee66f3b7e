import CodexMonitor.Collector.Coherent
import CodexMonitor.Collector.Observation

/-!
# Candidates

What holds of every runtime and of every job by itself is carried from one to the
other: a job starts with a copy of the runtime and a join copies it back.  A candidate
is a flat value of a watch that has a debounce and a checkpoint, and a job that is
about to commit keeps none.
-/

namespace CodexMonitor.Collector

open Transaction

/-! ## Runtimes and jobs by themselves -/

/-- `R` holds of every runtime and `J` of every job. -/
structure Loop.Each (R : String → Runtime → Prop) (J : Job → Prop) (l : Loop) : Prop where
  record : ∀ id r, l.runtimes.get id = some r → R id r
  job : ∀ task job, l.jobs.get task = some job → J job

section each

variable {R : String → Runtime → Prop} {J : Job → Prop} {l l' : Loop} {listed : Watch → Prop}
  {os : Native} {now : Rat}

theorem each_new (notes : List Note) : (Loop.new notes).Each R J := by
  constructor
  · intro id r hr
    have hr : (∅ : Dict String Runtime).get id = some r := hr
    rw [Dict.get_empty] at hr
    cases hr
  · intro task job hjob
    have hjob : (∅ : Dict Nat Job).get task = some job := hjob
    rw [Dict.get_empty] at hjob
    cases hjob

theorem Loop.Each.congr (h : l.Each R J) (hruntimes : l'.runtimes = l.runtimes)
    (hjobs : l'.jobs = l.jobs) : l'.Each R J := by
  refine ⟨?_, ?_⟩
  · rw [hruntimes]
    exact h.record
  · rw [hjobs]
    exact h.job

theorem Loop.Each.setRuntime (h : l.Each R J) {id : String} {r : Runtime} (hr : R id r) :
    Loop.Each R J { l with runtimes := l.runtimes.set id r } where
  record id' r' hr' := by
    have hr' : (l.runtimes.set id r).get id' = some r' := hr'
    rw [Dict.get_set] at hr'
    split at hr'
    · rename_i heq
      obtain rfl := Option.some.inj hr'
      exact heq ▸ hr
    · exact h.record id' r' hr'
  job := h.job

theorem Loop.Each.setJob (h : l.Each R J) {task : Nat} {job : Job} (hjob : J job)
    (notes : List Note) : (l.advance task job notes).Each R J where
  record := h.record
  job task' job' hjob' := by
    have hjob' : (l.jobs.set task job).get task' = some job' := hjob'
    rw [Dict.get_set] at hjob'
    split at hjob'
    · obtain rfl := Option.some.inj hjob'
      exact hjob
    · exact h.job task' job' hjob'

theorem Loop.Each.retire (h : l.Each R J) (task : Nat) (job : Job) :
    (l.retire task job).Each R J where
  record := h.record
  job task' job' hjob' := by
    have hjob' : (l.jobs.erase task).get task' = some job' := hjob'
    rw [Dict.get_erase] at hjob'
    split at hjob'
    · cases hjob'
    · exact h.job task' job' hjob'

/-- What is needed to carry `R` from runtimes to jobs and back. -/
structure Carries (R : String → Runtime → Prop) (J : Job → Prop) : Prop where
  load : ∀ id r w now, r = .new ∨ (R id r ∧ ∃ v, r.watch = some v ∧ v.Precedes w) →
    R id (r.load w now)
  dirty : ∀ id r dirty, R id r → R id { r with dirty := dirty }
  spawn : ∀ id r now, R id r → J ⟨id, now, { r with dirty := false }, .sampling⟩
  join : ∀ job dirty, J job → job.stage = .finished → R job.id { job.runtime with dirty := dirty }

theorem Loop.Each.load (h : l.Each R J) (hc : Carries R J) (hl : l.Coherent listed) {w : Watch}
    (hlatest : ∀ v, listed v → v.id = w.id → v.Precedes w) : (Loop.load os now l w).Each R J := by
  rw [load_frame]
  refine (h.setRuntime (hc.load w.id _ w now ?_)).congr rfl rfl
  cases hr : l.runtimes.get w.id with
  | none => exact Or.inl rfl
  | some r =>
      obtain ⟨v, hv, hid, hlisted⟩ := hl.known w.id r hr
      exact Or.inr ⟨h.record w.id r hr, v, hv, hlatest v hlisted hid⟩

theorem Loop.Each.drop (h : l.Each R J) (id : String) : (Loop.drop os l id).Each R J := by
  rw [drop_frame]
  refine ⟨fun id' r hr => ?_, h.job⟩
  have hr : (l.runtimes.erase id).get id' = some r := hr
  rw [Dict.get_erase] at hr
  split at hr
  · cases hr
  · exact h.record id' r hr

theorem Loop.Each.mark (h : l.Each R J) (hc : Carries R J) (p : Runtime → Bool) :
    (l.mark p).Each R J := by
  refine ⟨fun id r hr => ?_, h.job⟩
  have hr : (l.runtimes.map _).get id = some r := hr
  rw [Dict.get_map] at hr
  obtain ⟨q, hq, rfl⟩ := Option.map_eq_some_iff.mp hr
  split
  · exact hc.dirty id q true (h.record id q hq)
  · exact h.record id q hq

theorem Loop.Each.join (h : l.Each R J) (hc : Carries R J) {task : Nat}
    (hjoin : l.join os task = some l') : l'.Each R J := by
  obtain ⟨job, hjob, hstage, hmerge | ⟨_, rfl⟩⟩ := join_cases hjoin
  · obtain ⟨current, _, _, rfl⟩ := hmerge
    rw [merge_frame]
    exact ((h.retire task job).setRuntime
      (hc.join job _ (h.job task job hjob) hstage)).congr rfl rfl
  · exact h.retire task job

theorem Loop.Each.dispatchOne (h : l.Each R J) (hc : Carries R J) (id : String) :
    (l.dispatchOne now id).Each R J := by
  rcases dispatchOne_cases l id now with ⟨current, watch, hcurrent, _, _, _, _, _, heq⟩ | heq
  · rw [heq]
    have hr := h.record id current hcurrent
    have hset : Loop.Each R J (Loop.advance
        { l with runtimes := l.runtimes.set id { current with dirty := false } } l.tasks
        ⟨id, now, { current with dirty := false }, .sampling⟩ []) :=
      (h.setRuntime (hc.dirty id current false hr)).setJob (hc.spawn id current now hr) []
    exact hset.congr rfl rfl
  · rw [heq]
    exact h

/-- What a turn keeps of each runtime and of each job. -/
theorem Loop.Each.turn (h : l.Each R J) (hc : Carries R J) (hl : l.Coherent listed)
    {branch : Branch} {ids : List String}
    (hloads : ∀ w ∈ branch.loads, listed w ∧ ∀ v, listed v → v.id = w.id → v.Precedes w)
    (hturn : l.turn os branch ids now = some l') : l'.Each R J := by
  refine (turn_keeps (P := fun m => m.Coherent listed ∧ m.Each R J) hturn ⟨hl, h⟩ ?_ ?_ ?_ ?_ ?_ ?_).2
  · exact fun m _ _ _ hm => ⟨hm.1.congr rfl rfl rfl rfl, hm.2.congr rfl rfl⟩
  · exact fun m _ _ hm => ⟨hl.join hm, h.join hc hm⟩
  · exact fun m w hw _ hm =>
      ⟨hm.1.load (hloads w hw).1 (hloads w hw).2, hm.2.load hc hm.1 (hloads w hw).2⟩
  · exact fun m id _ hm => ⟨hm.1.drop id, hm.2.drop id⟩
  · exact fun m p hm => ⟨hm.1.mark p, hm.2.mark hc p⟩
  · exact fun m id hm => ⟨hm.1.dispatchOne id, hm.2.dispatchOne hc id⟩

end each

/-! ## Checkpoints -/

/-- The watch has a checkpoint. -/
def Seen (db : Db) (id : String) : Prop :=
  ∃ row ∈ db.managedWatches, row.id = id ∧ row.checkpoint ≠ none

/-- A checkpoint is never taken back. -/
theorem Seen.mono {db t : Db}
    (hkept : ∀ row ∈ db.managedWatches, ∃ row' ∈ t.managedWatches, row.Becomes row') {id : String}
    (h : Seen db id) : Seen t id := by
  obtain ⟨row, hrow, hid, hcheckpoint⟩ := h
  obtain ⟨row', hrow', hbecomes⟩ := hkept row hrow
  exact ⟨row', hrow', hbecomes.id_eq.trans hid, hbecomes.kept hcheckpoint⟩

section baseline

variable {crates : Crates} {db : Db} {id : String} {busy : Bool} {b : Option Value}

/-- The checkpoint of a watch, if its text was read. -/
theorem readBaseline_spec (h : readBaseline crates db id busy = some b) :
    ((db.managedWatches.find? fun w => w.id = id).bind CodexMonitor.Watch.checkpoint = none ∧
        b = none) ∨
      ∃ row text v, row ∈ db.managedWatches ∧ row.id = id ∧ row.checkpoint = some text ∧
        crates.fromStr text = some v ∧ b = some v := by
  unfold readBaseline at h
  split at h
  · cases h
  · cases hrun : (checkpoint crates id).run db with
    | mk result t =>
        rw [hrun] at h
        cases result with
        | error e => cases h
        | ok value =>
            obtain rfl : value = b := Option.some.inj h
            simp only [checkpoint, Tx.bind_ok, validateIdentifier_ok, Tx.query_ok] at hrun
            obtain ⟨_, _, ⟨_, rfl⟩, row, _, ⟨hrow, rfl⟩, hrun⟩ := hrun
            cases hcheckpoint : row.bind CodexMonitor.Watch.checkpoint with
            | none =>
                rw [hcheckpoint] at hrun
                rw [Tx.pure_ok] at hrun
                refine Or.inl ⟨?_, hrun.1.symm⟩
                rw [hrow]
                exact hcheckpoint
            | some text =>
                rw [hcheckpoint] at hrun
                simp only [Tx.bind_ok, Tx.expect_ok, Tx.pure_ok] at hrun
                obtain ⟨v, _, ⟨hv, rfl⟩, rfl, _⟩ := hrun
                obtain ⟨w, rfl, hw⟩ := Option.bind_eq_some_iff.mp hcheckpoint
                obtain ⟨hmem, hid⟩ := Table.find?_some hrow
                exact Or.inr ⟨w, text, v, hmem, hid, hw, hv, rfl⟩

/-- A watch has a checkpoint when a value was read, and only then. -/
theorem seen_iff (h : readBaseline crates db id busy = some b) : Seen db id ↔ b ≠ none := by
  rcases readBaseline_spec h with ⟨hnone, rfl⟩ | ⟨row, text, v, hrow, hid, htext, _, rfl⟩
  · refine ⟨?_, fun hne => absurd rfl hne⟩
    rintro ⟨row, hrow, hid, hcheckpoint⟩
    rw [Table.find?_eq_of_unique hrow hid fun a ha haid =>
      CodexMonitor.Watch.eq_of_id ha hrow (haid.trans hid.symm)] at hnone
    exact absurd hnone hcheckpoint
  · refine ⟨fun _ => nofun, fun _ => ⟨row, hrow, hid, ?_⟩⟩
    rw [htext]
    exact nofun

end baseline

/-! ## Candidates -/

/-- A candidate is a flat value of a watch with a checkpoint and a debounce. -/
def Runtime.Waits (seen : String → Prop) (id : String) (r : Runtime) : Prop :=
  ∀ c, r.candidate = some c → Flat c.sample ∧ seen id ∧ ∀ w, r.watch = some w → w.debounce ≠ 0

/-- What a job compares and commits is flat, and a job that commits has no candidate. -/
structure Job.Waits (seen : String → Prop) (job : Job) : Prop where
  runtime : job.runtime.Waits seen job.id
  comparing : ∀ v, job.stage = .comparing v → Flat v
  committing : ∀ v change after, job.stage = .committing v change after →
    Flat v ∧ job.runtime.candidate = none ∧ after.candidate = none

def Host.Waits (h : Host) : Prop :=
  h.loop.Each (Runtime.Waits (Seen h.db)) (Job.Waits (Seen h.db))

section waits

variable {seen : String → Prop} {id : String} {r : Runtime} {job : Job} {w : Watch}

theorem waits_none (hr : r.candidate = none) : r.Waits seen id := by
  intro c hc
  rw [hr] at hc
  cases hc

theorem Runtime.Waits.congr {r' : Runtime} (h : r.Waits seen id) (hcandidate : r'.candidate = r.candidate)
    (hwatch : r'.watch = r.watch) : r'.Waits seen id := by
  intro c hc
  rw [hwatch]
  exact h c (hcandidate.symm.trans hc)

theorem Runtime.Waits.load {now : Rat} (h : r.Waits seen id) (hprecedes : ∃ v, r.watch = some v ∧ v.Precedes w) :
    (r.load w now).Waits seen id := by
  obtain ⟨v, hv, hprecedes⟩ := hprecedes
  intro c hc
  have hc : (if r.epochChanged w = true then none else r.candidate) = some c := hc
  split at hc
  · cases hc
  · obtain ⟨hflat, hseen, hdebounce⟩ := h c hc
    refine ⟨hflat, hseen, fun u hu => ?_⟩
    have hu : some w = some u := hu
    rw [← Option.some.inj hu, hprecedes.debounce_eq]
    exact hdebounce v hv

theorem Job.Waits.mono {seen' : String → Prop} (h : job.Waits seen) (hsub : ∀ id, seen id → seen' id) :
    job.Waits seen' where
  runtime c hc := by
    obtain ⟨hflat, hseen, hdebounce⟩ := h.runtime c hc
    exact ⟨hflat, hsub _ hseen, hdebounce⟩
  comparing := h.comparing
  committing := h.committing

/-- A job that is over keeps its candidate or drops it. -/
theorem Job.Waits.finish (h : r.Waits seen job.id) (ok : Bool) : (job.finish ok r).Waits seen where
  runtime := h.congr (finish_candidate job ok r) (finish_watch job ok r)
  comparing v hstage := by
    have hstage : Stage.finished = .comparing v := hstage
    cases hstage
  committing v change after hstage := by
    have hstage : Stage.finished = .committing v change after := hstage
    cases hstage

/-- A worker's answer leaves the candidate alone. -/
theorem Job.Waits.sampled (h : job.Waits seen) (hw : job.runtime.watch = some w)
    (hactive : w.active = true) {reply : Option FileSample}
    (hanswers : ∀ sample ∈ reply, sample.Answers w.condition) : (job.sampled w reply).1.Waits seen := by
  have hframe := look_frame job.runtime (reply.map FileSample.value)
  cases hlook : look job.runtime (reply.map FileSample.value) with
  | ended ok r' =>
      unfold Job.sampled
      rw [hlook] at hframe ⊢
      have hframe : r' = { job.runtime with nativePath := r'.nativePath } := hframe
      refine Job.Waits.finish ?_ ok
      rw [hframe]
      exact h.runtime.congr rfl rfl
  | observed v r' =>
      unfold Job.sampled
      rw [hlook] at hframe ⊢
      have hframe : r' = { job.runtime with nativePath := r'.nativePath } := hframe
      refine ⟨?_, ?_, ?_⟩
      · show r'.Waits seen job.id
        rw [hframe]
        exact h.runtime.congr rfl rfl
      · intro v' hstage
        obtain rfl := Stage.comparing.inj hstage
        cases reply with
        | none =>
            unfold look at hlook
            rw [hw, Option.filter_some, if_pos hactive] at hlook
            cases hlook
        | some sample =>
            have hlook : look job.runtime (some sample.value) = .observed v r' := hlook
            rw [look_sample hw hactive] at hlook
            split at hlook
            · cases hlook
            split at hlook
            · cases hlook
            rename_i hskips hmisses
            obtain ⟨rfl, _⟩ := Looked.observed.inj hlook
            exact observation_flat (hanswers sample rfl) (Bool.eq_false_of_not_eq_true hmisses)
              (Bool.eq_false_of_not_eq_true hskips)
      · intro v' change after hstage
        cases hstage

/-- Once the checkpoint is read a candidate is kept, begun, dropped or about to be committed. -/
theorem Job.Waits.compared (h : job.Waits seen) (hw : job.runtime.watch = some w) {observed : Value}
    (hflat : Flat observed) {baseline : Option (Option Value)}
    (hseen : ∀ b, baseline = some b → (seen job.id ↔ b ≠ none)) :
    (job.compared w observed baseline).1.Waits seen := by
  unfold Job.compared
  cases baseline with
  | none => exact Job.Waits.finish h.runtime false
  | some b =>
      have hiff := hseen b rfl
      have hjudge := judge_spec job.runtime w observed b job.now
      have hcommit : ∀ value change failed after, Flat value → failed.candidate = none →
          after.candidate = none →
          Job.Waits seen { job with
            runtime := failed, stage := .committing value change after } := by
        intro value change failed after hvalue hfailed hafter
        refine ⟨waits_none hfailed, ?_, ?_⟩
        · intro v hstage
          cases hstage
        · intro v change' after' hstage
          obtain ⟨rfl, rfl, rfl⟩ := Stage.committing.inj hstage
          exact ⟨hvalue, hfailed, hafter⟩
      simp only
      cases hjudged : judge job.runtime w observed b job.now with
      | ended r' =>
          rw [hjudged] at hjudge
          refine Job.Waits.finish ?_ true
          cases hjudge with
          | unchanged => exact waits_none rfl
          | fresh _ hdebounce _ =>
              intro c hc
              obtain rfl := Option.some.inj hc
              refine ⟨hflat, hiff.mpr nofun, fun u hu => ?_⟩
              have hu : job.runtime.watch = some u := hu
              rw [hw] at hu
              rw [← Option.some.inj hu]
              exact hdebounce
          | young => exact h.runtime.congr rfl rfl
      | commit value change failed after =>
          rw [hjudged] at hjudge
          refine hcommit value change failed after ?_ ?_ ?_
          · cases hjudge with
            | first => exact hflat
            | prompt => exact hflat
            | ripe _ _ hcandidate => exact (h.runtime _ hcandidate).1
          · cases hjudge with
            | first =>
                cases hcandidate : job.runtime.candidate with
                | none => rfl
                | some c => exact absurd rfl (hiff.mp (h.runtime c hcandidate).2.1)
            | prompt _ hdebounce =>
                cases hcandidate : job.runtime.candidate with
                | none => rfl
                | some c => exact absurd hdebounce ((h.runtime c hcandidate).2.2 w hw)
            | ripe => rfl
          · cases hjudge with
            | first => rfl
            | prompt => rfl
            | ripe => rfl

end waits

section host

variable {crates : Crates} {h t : Host} {act : Act}

theorem waits_carries (seen : String → Prop) :
    Carries (Runtime.Waits seen) (Job.Waits seen) where
  load := by
    rintro id r w at_ (rfl | ⟨hr, hprecedes⟩)
    · exact waits_none rfl
    · exact hr.load hprecedes
  dirty _ _ _ hr := hr.congr rfl rfl
  spawn id r at_ hr := by
    refine ⟨hr.congr rfl rfl, ?_, ?_⟩
    · intro v hstage
      cases hstage
    · intro v change after hstage
      cases hstage
  join _ _ hjob _ := hjob.runtime.congr rfl rfl

theorem Host.Waits.step (hh : h.Waits) (hc : h.Coherent crates)
    (hstep : h.step crates act = some t) : t.Waits := by
  have hmono : ∀ db : Db, (∀ row ∈ h.db.managedWatches, ∃ row' ∈ db.managedWatches, row.Becomes row') →
      h.loop.Each (Runtime.Waits (Seen db)) (Job.Waits (Seen db)) := by
    intro db hkept
    refine ⟨fun id r hr c hcandidate => ?_, fun task job hjob => ?_⟩
    · obtain ⟨hflat, hseen, hdebounce⟩ := hh.record id r hr c hcandidate
      exact ⟨hflat, hseen.mono hkept, hdebounce⟩
    · exact (hh.job task job hjob).mono fun _ hseen => hseen.mono hkept
  cases Host.step_moved hstep with
  | called hop => exact hmono _ fun _ => Op.step_watch _
  | notified =>
      unfold Loop.notify Host.Waits
      split
      · exact Loop.Each.congr hh rfl rfl
      · exact Loop.Each.congr hh rfl rfl
  | @sampled task job watch reply hjob hstage hwatch hanswers =>
      obtain ⟨w, hw, hactive, _, _⟩ := hc.working task job hjob
      rw [hwatch] at hw
      obtain rfl := Option.some.inj hw
      exact Loop.Each.setJob hh ((hh.job task job hjob).sampled hwatch hactive hanswers) _
  | @compared task job watch observed busy hjob hstage hwatch =>
      obtain ⟨w, hw, _, hid, _⟩ := hc.working task job hjob
      rw [hwatch] at hw
      obtain rfl := Option.some.inj hw
      have hwaits := hh.job task job hjob
      refine Loop.Each.setJob hh (hwaits.compared hwatch (hwaits.comparing observed hstage) ?_) _
      intro b hb
      rw [hid] at hb
      exact seen_iff hb
  | @committed task job watch value change after eventUuid uuid now stamp receipt db hjob hstage
      hwatch hnew hcommit =>
      have hkept := fun row hrow => Commits.watch (w := row) (commitSample_commits hcommit) hrow
      refine Loop.Each.setJob (hmono db hkept) (Job.Waits.finish (waits_none ?_) true) _
      exact ((hh.job task job hjob).committing value change after hstage).2.2
  | @refused task job watch value change after eventUuid uuid now stamp busy hjob hstage hwatch =>
      exact Loop.Each.setJob hh (Job.Waits.finish (hh.job task job hjob).runtime false) _
  | turned hbranch hturn =>
      exact Loop.Each.turn hh (waits_carries _) hc (Branch.loads_keeps hbranch) hturn
  | reloaded hrows hturn =>
      exact Loop.Each.turn hh (waits_carries _) hc (fun w hw => (loaded_spec hrows hw).2) hturn
  | restarted => exact each_new _

end host

end CodexMonitor.Collector
