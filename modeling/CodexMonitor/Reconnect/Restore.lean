import CodexMonitor.Reconnect.Execute

/-!
# A change is made or undone

The services of a plan have different files, and until the originals of all of them are in the
backup the service directory stays as it was.  A run that fails afterwards writes every original
back and asks every service it asked to stop to start again.
-/

namespace CodexMonitor

namespace Reconnect

open Faults (Fault Outcome Prog)
open Faults.Prog

/-! ## The services of a plan -/

section discovery

variable {host : Host} {files : Dict String Bytes}

theorem names_nodup : (host.names files).Nodup := by
  have hsorted : (files.keys.mergeSort fun a b => a ≤ b).Nodup :=
    (List.mergeSort_perm _ _).nodup_iff.mpr files.nodup
  unfold Host.names
  cases host.platform with
  | linux => exact hsorted
  | macos => exact hsorted.sublist (List.take_sublist _ _)

theorem Host.job_path {path : String} {job : Job} (h : host.job files path = some job) :
    job.path = path ∧ files.get path = some job.raw := by
  unfold Host.job at h
  split at h
  · cases h
  · obtain ⟨raw, hraw, h⟩ := Option.bind_eq_some_iff.mp h
    obtain ⟨settings, _, rfl⟩ := Option.map_eq_some_iff.mp h
    exact ⟨rfl, hraw⟩

/-- The paths of the services found under some names are some of the names. -/
theorem paths_sublist (names : List String) :
    ((names.filterMap (host.job files)).map Job.path).Sublist names := by
  induction names with
  | nil => exact List.Sublist.refl _
  | cons name names ih =>
      cases hjob : host.job files name with
      | none =>
          rw [List.filterMap_cons_none hjob]
          exact ih.cons name
      | some job =>
          rw [List.filterMap_cons_some hjob, List.map_cons, (Host.job_path hjob).1]
          exact ih.cons_cons name

theorem jobs_nodup : ((jobs host files).map Job.path).Nodup :=
  names_nodup.sublist (paths_sublist _)

theorem jobs_raw {job : Job} (h : job ∈ jobs host files) : files.get job.path = some job.raw := by
  obtain ⟨path, _, hjob⟩ := List.mem_filterMap.mp h
  obtain ⟨rfl, hraw⟩ := Host.job_path hjob
  exact hraw

theorem owner_ne_resident {endpoint : String} {job : Job} (h : isOwner endpoint job = true) :
    isResident endpoint job = false := by
  have howner : job.args.head?.bind fileName = some "codex" := by
    unfold isOwner at h
    simp only [Bool.decide_and, Bool.and_eq_true, decide_eq_true_eq] at h
    exact h.1
  unfold isResident
  rw [howner]
  rfl

/-- The files of a plan's services differ, and hold what the plan says. -/
structure Plan.Fits (plan : Plan) (files : Dict String Bytes) : Prop where
  nodup : (plan.jobs.map Job.path).Nodup
  raw_eq : ∀ job ∈ plan.jobs, files.get job.path = some job.raw

theorem configuration_fits {plan : Plan}
    (h : configuration host files plan.endpoint = .ok (plan.owner, plan.residents)) :
    plan.Fits files := by
  unfold configuration at h
  split at h
  · cases h
  · simp only at h
    split at h
    · rename_i owner howners
      split at h
      · cases h
      · split at h
        · cases h
        · simp only [Except.ok.injEq, Prod.mk.injEq] at h
          obtain ⟨rfl, hresidents⟩ := h
          have howner : plan.owner ∈ (jobs host files).filter (isOwner plan.endpoint) := by
            rw [howners]
            exact List.mem_cons_self
          obtain ⟨howner, hisOwner⟩ := List.mem_filter.mp howner
          have hresident : ∀ job ∈ plan.residents,
              job ∈ jobs host files ∧ isResident plan.endpoint job = true := by
            intro job hjob
            rw [← hresidents] at hjob
            exact List.mem_filter.mp hjob
          refine ⟨List.nodup_cons.mpr ⟨?_, ?_⟩, ?_⟩
          · intro hmem
            obtain ⟨job, hjob, hpath⟩ := List.mem_map.mp hmem
            obtain ⟨hfound, hisResident⟩ := hresident job hjob
            have hsame : job = plan.owner :=
              List.inj_on_of_nodup_map jobs_nodup hfound howner hpath
            rw [hsame, owner_ne_resident hisOwner] at hisResident
            cases hisResident
          · rw [← hresidents]
            exact jobs_nodup.sublist (List.filter_sublist.map _)
          · intro job hjob
            rcases List.mem_cons.mp hjob with rfl | hjob
            · exact jobs_raw howner
            · exact jobs_raw (hresident job hjob).1
    · cases h

end discovery

/-! ## Before the first stop -/

/-- Nothing was changed and nobody was asked anything. -/
structure Machine.Untouched (files : Dict String Bytes) (s : Machine) : Prop where
  files_eq : s.files = files
  asks_eq : s.asks = []
  stopped_eq : s.stopped = []

/-- The temporary file and the backup are apart. -/
theorem Machine.Untouched.aside {files : Dict String Bytes} {s : Machine} (h : s.Untouched files)
    (x : Option Bytes) (backups : Dict String Bytes) :
    Machine.Untouched files { s with temporary := x, backups := backups } :=
  ⟨h.files_eq, h.asks_eq, h.stopped_eq⟩

theorem step_spec {I : Machine → Prop} (place : Place) (message : String) :
    Spec I (step place message) (fun _ => I) I :=
  Keeps.probe _ _

theorem lift_spec {α : Type} {I : Machine → Prop} (x : Except String α) :
    Spec I (lift x) (fun a s => I s ∧ x = .ok a) I := by
  intro faults s hs
  cases x with
  | ok a => exact ⟨hs, rfl⟩
  | error message => exact hs

theorem bailIf_spec {I : Machine → Prop} (c : Prop) [Decidable c] (message : String) :
    Spec I (bailIf c message) (fun _ s => I s ∧ ¬ c) I := by
  intro faults s hs
  unfold bailIf Prog.bailIf
  by_cases hc : c
  · rw [if_pos hc]
    exact hs
  · rw [if_neg hc]
    exact ⟨hs, hc⟩

theorem read_spec {α : Type} {I E : Machine → Prop} (f : Machine → α) :
    Spec I (Prog.read f : ExecuteM α) (fun a s => I s ∧ f s = a) E :=
  fun _ _ hs => ⟨hs, rfl⟩

section writes

open Faults.Replace

variable {bytes : Bytes} {I J : Machine → Prop}

theorem privateWrite_spec (target : Target Place Machine Bytes) (hI : Steady target I)
    (hput : ∀ s, I s → J (target.put bytes s)) (hJ : Steady target J) :
    Spec I (privateWrite target bytes) (fun _ => J) (fun s => I s ∨ J s) :=
  replace_spec hI hput hJ

theorem privateWrite_replaced (target : Target Place Machine Bytes) {faults : Place → Fault}
    (hplan : ∀ step ∈ replacing, faults (target.place step) = .none) (hI : Steady target I)
    (hput : ∀ s, I s → J (target.put bytes s)) (hJ : Steady target J) :
    Spec I ((privateWrite target bytes).under faults) (fun _ => J) J :=
  replace_replaced hplan hI hput hJ

theorem privateWrite_keeps (target : Target Place Machine Bytes) (hI : Steady target I)
    (hput : ∀ s, I s → I (target.put bytes s)) : Prog.Keeps I (privateWrite target bytes) :=
  replace_keeps hI hput

end writes

section prepare

variable {host : Host} {plan : Plan} {policy : String} {files : Dict String Bytes}

theorem check_spec :
    Spec (Machine.Untouched files) (check host plan)
      (fun _ s => s.Untouched files ∧ plan.Fits files) (Machine.Untouched files) := by
  unfold check
  refine ((bailIf_spec _ _).mono (fun _ h => h) (fun _ _ h => h.1) fun _ h => h).bind fun _ => ?_
  refine (step_spec _ _).bind fun _ => (step_spec _ _).bind fun _ => ?_
  refine (step_spec _ _).bind fun _ => ?_
  have hread : Spec (Machine.Untouched files) (Prog.read Machine.files : ExecuteM _)
      (fun found s => s.Untouched files ∧ found = files) (Machine.Untouched files) :=
    fun _ _ hs => ⟨hs, hs.files_eq⟩
  refine hread.bind fun found => Spec.given fun hfound => ?_
  refine (lift_spec _).bind fun fresh => Spec.given fun hfresh => ?_
  refine (step_spec _ _).bind fun _ => ?_
  refine (bailIf_spec _ _).mono (fun _ h => h) (fun _ _ h => ⟨h.1, ?_⟩) fun _ h => h
  rw [not_not.mp (not_or.mp h.2).1, hfound] at hfresh
  exact configuration_fits hfresh

/-- The files of the services under a policy. -/
def rewritten (host : Host) (policy : String) : Bool → List Job → Option (List Job)
  | _, [] => some []
  | resident, job :: rest =>
      (policyArgs job.args policy resident).toOption.bind fun args =>
        (host.rewrite job args).bind fun raw =>
          (rewritten host policy true rest).map fun changed =>
            { job with raw := raw, settings := { job.settings with args := args } } :: changed

theorem rewriteJobs_spec {I : Machine → Prop} (resident : Bool) (jobs : List Job) :
    Spec I (rewriteJobs host policy resident jobs)
      (fun changed s => I s ∧ rewritten host policy resident jobs = some changed) I := by
  induction jobs generalizing resident with
  | nil => exact fun _ _ hs => ⟨hs, rfl⟩
  | cons job rest ih =>
      unfold rewriteJobs
      refine (step_spec _ _).bind fun _ => ?_
      refine ((read_spec _).mono (fun _ h => h) (fun _ _ h => h.1) fun _ h => h).bind fun _ => ?_
      refine ((bailIf_spec _ _).mono (fun _ h => h) (fun _ _ h => h.1) fun _ h => h).bind fun _ => ?_
      refine (lift_spec _).bind fun args => Spec.given fun hargs => ?_
      refine (lift_spec _).bind fun raw => Spec.given fun hraw => ?_
      refine (ih true).bind fun changed => Spec.given fun hchanged => Spec.pure fun s hs => ⟨hs, ?_⟩
      have hraw : host.rewrite job args = some raw := by
        cases hrewrite : host.rewrite job args with
        | none =>
            rw [hrewrite] at hraw
            cases hraw
        | some bytes =>
            rw [hrewrite] at hraw
            exact congrArg some (Except.ok.inj hraw)
      simp only [rewritten, hargs, Except.toOption, Option.bind_some, hraw, hchanged, Option.map_some]

/-- The originals of all services are in the backup. -/
def Machine.Saved (plan : Plan) (s : Machine) : Prop :=
  ∀ job ∈ plan.jobs, s.backups.get job.path = some job.raw

/-- An element of a list without repeated paths has another path than the ones before it. -/
theorem path_ne_of_split {jobs past rest : List Job} {job : Job} (h : (jobs.map Job.path).Nodup)
    (hsplit : jobs = past ++ job :: rest) : ∀ other ∈ past, other.path ≠ job.path := by
  intro other hother heq
  rw [hsplit, List.map_append, List.map_cons] at h
  have hdisjoint := (List.nodup_append.mp h).2.2
  exact hdisjoint _ (List.mem_map_of_mem hother) _ List.mem_cons_self heq

theorem prepare_spec (hfits : plan.Fits files) :
    Spec (Machine.Untouched files) (prepare host plan policy)
      (fun changed s => (s.Untouched files ∧ s.Saved plan) ∧
        rewritten host policy false plan.jobs = some changed) (Machine.Untouched files) := by
  unfold prepare
  refine (rewriteJobs_spec _ _).bind fun changed => Spec.given fun hchanged => ?_
  refine (Spec.each (I := fun _ => Machine.Untouched files) _ fun _ _ _ _ => step_spec _ _).bind
    fun _ => ?_
  refine (step_spec _ _).bind fun _ => ?_
  have hbackup : Spec (Machine.Untouched files)
      (Prog.each (fun job : Job => privateWrite (backupFile job.path) job.raw) plan.jobs)
      (fun _ s => s.Untouched files ∧ s.Saved plan) (Machine.Untouched files) := by
    refine (Spec.each (I := fun past s => s.Untouched files ∧
      ∀ job ∈ past, s.backups.get job.path = some job.raw) (E := Machine.Untouched files) plan.jobs
      fun past job rest hsplit => ?_).mono (fun s hs => ⟨hs, nofun⟩) (fun _ _ h => h) fun _ h => h
    have hne := path_ne_of_split hfits.nodup hsplit
    refine (privateWrite_spec (backupFile job.path)
      (J := fun s => s.Untouched files ∧
        ∀ other ∈ past ++ [job], s.backups.get other.path = some other.raw)
      (fun s x hs => ⟨hs.1.aside x s.backups, hs.2⟩) (fun s hs => ⟨hs.1.aside s.temporary _, ?_⟩)
      fun s x hs => ⟨hs.1.aside x s.backups, hs.2⟩).mono (fun _ h => h) (fun _ _ h => h) fun _ h => h.elim And.left And.left
    intro other hother
    show (s.backups.set job.path job.raw).get other.path = _
    rcases List.mem_append.mp hother with hpast | hlast
    · rw [Dict.get_set_ne (hne other hpast)]
      exact hs.2 other hpast
    · obtain rfl := List.mem_singleton.mp hlast
      exact Dict.get_set_self
  exact hbackup.bind fun _ => Spec.pure fun s hs => ⟨hs, hchanged⟩

theorem rewritten_paths {resident : Bool} {jobs changed : List Job}
    (h : rewritten host policy resident jobs = some changed) :
    changed.map Job.path = jobs.map Job.path := by
  induction jobs generalizing resident changed with
  | nil =>
      obtain rfl := Option.some.inj h
      rfl
  | cons job rest ih =>
      simp only [rewritten, Option.bind_eq_some_iff, Option.map_eq_some_iff] at h
      obtain ⟨args, _, raw, _, others, hothers, rfl⟩ := h
      rw [List.map_cons, List.map_cons, ih hothers]

end prepare

/-! ## One service -/

section service

variable {host : Host} {phase : Phase} {job : Job} {I J : Machine → Prop}

theorem stop_spec (hask : ∀ s, I s → J { s with asks := s.asks ++ [.stop job] }) :
    Spec I (stop host phase job) (fun _ => J) J := by
  unfold stop
  refine Spec.bind (Spec.tell hask) fun _ => (step_spec _ _).bind fun _ => ?_
  cases host.platform with
  | linux => exact step_spec _ _
  | macos => exact Keeps.pure _

theorem reload_spec : Spec I (reload host phase) (fun _ => I) I := by
  unfold reload
  cases host.platform with
  | linux => exact step_spec _ _
  | macos => exact Keeps.pure _

theorem caught_step_spec (place : Place) (message : String) :
    Spec J (Prog.caught (step place message)) (fun _ => J) J := by
  refine (Spec.caught (step_spec place message)).mono (fun _ h => h) (fun result _ h => ?_)
    fun _ h => h
  cases result <;> exact h

theorem bootstrapLoop_succ {fuel attempt : Nat}
    (hrest : Spec J (bootstrapLoop phase job (attempt + 1) fuel) (fun _ => J) J)
    (hask : ∀ s, I s → J { s with asks := s.asks ++ [.start job (s.files.get job.path)] }) :
    Spec I (bootstrapLoop phase job attempt (fuel + 1)) (fun _ => J) J := by
  refine Spec.bind (Spec.tell hask) fun _ => (caught_step_spec _ _).bind fun asked => ?_
  split
  · exact Keeps.pure _
  · refine (caught_step_spec _ _).bind fun running => ?_
    split
    · exact Keeps.pure _
    · exact hrest

theorem bootstrapLoop_keeps
    (hagain : ∀ s, J s → J { s with asks := s.asks ++ [.start job (s.files.get job.path)] })
    (fuel attempt : Nat) : Spec J (bootstrapLoop phase job attempt fuel) (fun _ => J) J := by
  induction fuel generalizing attempt with
  | zero => exact fun _ _ hs => hs
  | succ fuel ih => exact bootstrapLoop_succ (ih (attempt + 1)) hagain

/-- A service that is started is asked at least once. -/
theorem bootstrap_spec
    (hask : ∀ s, I s → J { s with asks := s.asks ++ [.start job (s.files.get job.path)] })
    (hagain : ∀ s, J s → J { s with asks := s.asks ++ [.start job (s.files.get job.path)] }) :
    Spec I (bootstrap host phase job) (fun _ => J) J := by
  unfold bootstrap
  cases host.platform with
  | linux =>
      exact Spec.bind (Spec.tell hask) fun _ =>
        (step_spec _ _).bind fun _ => step_spec _ _
  | macos => exact bootstrapLoop_succ (bootstrapLoop_keeps hagain 3 1) hask

end service

/-! ## The attempt -/

section attempt

variable {host : Host} {plan : Plan} {changed : List Job}

/-- The originals are in the backup, and the services that were asked to stop are known. -/
structure Machine.Underway (plan : Plan) (s : Machine) : Prop where
  saved : s.Saved plan
  asked : ∀ job, .stop job ∈ s.asks → job ∈ s.stopped
  known : ∀ job ∈ s.stopped, job ∈ plan.jobs

theorem Machine.Underway.files {s : Machine} (h : s.Underway plan) (x : Option Bytes)
    (files : Dict String Bytes) :
    Machine.Underway plan { s with temporary := x, files := files } :=
  ⟨h.saved, h.asked, h.known⟩

theorem Machine.Underway.start {s : Machine} (h : s.Underway plan) (job : Job)
    (bytes : Option Bytes) :
    Machine.Underway plan { s with asks := s.asks ++ [.start job bytes] } := by
  refine ⟨h.saved, fun other hother => h.asked other ?_, h.known⟩
  simpa using hother

theorem Machine.Underway.stop {s : Machine} (h : s.Underway plan) {job : Job}
    (hjob : job ∈ s.stopped) : Machine.Underway plan { s with asks := s.asks ++ [.stop job] } := by
  refine ⟨h.saved, fun other hother => ?_, h.known⟩
  rcases List.mem_append.mp hother with hold | hnew
  · exact h.asked other hold
  · obtain rfl := Ask.stop.inj (List.mem_singleton.mp hnew)
    exact hjob

theorem Machine.Untouched.underway {files : Dict String Bytes} {s : Machine}
    (h : s.Untouched files) (hsaved : s.Saved plan) : s.Underway plan := by
  refine ⟨hsaved, fun job hjob => ?_, fun job hjob => ?_⟩
  · rw [h.asks_eq] at hjob
    cases hjob
  · rw [h.stopped_eq] at hjob
    cases hjob

/-- The services of `jobs` have their new files. -/
def Machine.Written (jobs : List Job) (s : Machine) : Prop :=
  ∀ job ∈ jobs, s.files.get job.path = some job.raw

/-- A file that is written is written, and the ones before it stay. -/
theorem Machine.Written.put {jobs past rest : List Job} {job : Job} {s : Machine}
    (hnodup : (jobs.map Job.path).Nodup) (hsplit : jobs = past ++ job :: rest)
    (h : s.Written past) (x : Option Bytes) :
    Machine.Written (past ++ [job])
      { s with files := s.files.set job.path job.raw, temporary := x } := by
  have hne := path_ne_of_split hnodup hsplit
  intro other hother
  rcases List.mem_append.mp hother with hpast | hlast
  · rw [Dict.get_set_ne (hne other hpast)]
    exact h other hpast
  · obtain rfl := List.mem_singleton.mp hlast
    exact Dict.get_set_self

/-- An attempt that succeeds leaves every service with its new file, started under it. -/
theorem apply_spec (hnodup : (changed.map Job.path).Nodup) :
    Spec (Machine.Underway plan) (apply host plan changed)
      (fun _ s => s.Underway plan ∧ s.Written changed ∧
        ∀ next ∈ changed, .start next (some next.raw) ∈ s.asks) (Machine.Underway plan) := by
  unfold apply
  have hstops : Spec (Machine.Underway plan) (Prog.each (fun job => do
      Prog.tell fun s : Machine => { s with stopped := s.stopped ++ [job] }
      stop host .change job) (plan.residents ++ [plan.owner])) (fun _ => Machine.Underway plan)
      (Machine.Underway plan) := by
    refine Spec.each (I := fun _ => Machine.Underway plan) _ fun past job rest hsplit => ?_
    have hjob : job ∈ plan.jobs := by
      have hmem : job ∈ plan.residents ++ [plan.owner] := by
        rw [hsplit]
        exact List.mem_append_right _ List.mem_cons_self
      simpa [Plan.jobs, or_comm] using hmem
    have hpush : ∀ s : Machine, s.Underway plan →
        Machine.Underway plan { s with stopped := s.stopped ++ [job] } ∧
          job ∈ s.stopped ++ [job] := by
      intro s hs
      refine ⟨⟨hs.saved, fun other hother => List.mem_append_left _ (hs.asked other hother),
        fun other hother => ?_⟩, List.mem_append_right _ List.mem_cons_self⟩
      rcases List.mem_append.mp hother with hold | hnew
      · exact hs.known other hold
      · obtain rfl := List.mem_singleton.mp hnew
        exact hjob
    exact Spec.bind (Spec.tell (Q := fun s => s.Underway plan ∧ job ∈ s.stopped) hpush) fun _ =>
      stop_spec fun s hs => hs.1.stop hs.2
  have hwrites : Spec (Machine.Underway plan)
      (Prog.each (fun job : Job => privateWrite (serviceFile .change job.path) job.raw) changed)
      (fun _ s => s.Underway plan ∧ s.Written changed) (Machine.Underway plan) := by
    refine (Spec.each (I := fun past s => s.Underway plan ∧ s.Written past)
      (E := Machine.Underway plan) changed fun past job rest hsplit => ?_).mono
      (fun s hs => ⟨hs, nofun⟩) (fun _ _ h => h) fun _ h => h
    exact (privateWrite_spec (serviceFile .change job.path)
      (J := fun s => s.Underway plan ∧ s.Written (past ++ [job]))
      (fun s x hs => ⟨hs.1.files x s.files, hs.2⟩)
      (fun s hs => ⟨hs.1.files s.temporary _, hs.2.put hnodup hsplit s.temporary⟩)
      fun s x hs => ⟨hs.1.files x s.files, hs.2⟩).mono (fun _ h => h) (fun _ _ h => h)
        fun _ h => h.elim And.left And.left
  have hstarts : Spec (fun s => s.Underway plan ∧ s.Written changed)
      (Prog.each (bootstrap host .change) changed)
      (fun _ s => s.Underway plan ∧ s.Written changed ∧
        ∀ next ∈ changed, .start next (some next.raw) ∈ s.asks) (Machine.Underway plan) := by
    refine (Spec.each (I := fun past s => s.Underway plan ∧ s.Written changed ∧
      ∀ next ∈ past, .start next (some next.raw) ∈ s.asks) (E := Machine.Underway plan) changed
      fun past job rest hsplit => ?_).mono (fun s hs => ⟨hs.1, hs.2, nofun⟩) (fun _ _ h => h)
      fun _ h => h
    have hjob : job ∈ changed := by
      rw [hsplit]
      exact List.mem_append_right _ List.mem_cons_self
    refine (bootstrap_spec (J := fun s => s.Underway plan ∧ s.Written changed ∧
      ∀ next ∈ past ++ [job], .start next (some next.raw) ∈ s.asks) (fun s hs => ?_)
      fun s hs => ?_).mono (fun _ h => h) (fun _ _ h => h) fun _ h => h.1
    · refine ⟨hs.1.start _ _, hs.2.1, fun next hnext => ?_⟩
      rcases List.mem_append.mp hnext with hpast | hlast
      · exact List.mem_append_left _ (hs.2.2 next hpast)
      · obtain rfl := List.mem_singleton.mp hlast
        rw [hs.2.1 next hjob]
        exact List.mem_append_right _ List.mem_cons_self
    · exact ⟨hs.1.start _ _, hs.2.1, fun next hnext =>
        List.mem_append_left _ (hs.2.2 next hnext)⟩
  refine hstops.bind fun _ => hwrites.bind fun _ => ?_
  refine (reload_spec.mono (fun _ h => h) (fun _ _ h => h) fun _ h => h.1).bind fun _ => ?_
  exact hstarts.bind fun _ => (step_spec _ _).mono (fun _ h => h) (fun _ _ h => h) fun _ h => h.1

end attempt

/-! ## The way back -/

section restore

variable {host : Host} {plan : Plan} {faults : Place → Fault}

/-- The write that restores a service's file is carried out. -/
def Restores (faults : Place → Fault) (job : Job) : Prop :=
  ∀ step ∈ Faults.Replace.replacing, faults (.file .restore job.path step) = .none

/-- The service was asked to start, under the file it has now, and nobody was asked to stop
since. -/
def Machine.Restarted (s : Machine) (job : Job) : Prop :=
  ∃ earlier later, s.asks = earlier ++ .start job (s.files.get job.path) :: later ∧
    ∀ other, .stop other ∉ later

/-- The services with a restoring write that is carried out have their originals. -/
def Machine.Restored (faults : Place → Fault) (jobs : List Job) (s : Machine) : Prop :=
  ∀ job ∈ jobs, Restores faults job → s.files.get job.path = some job.raw

/-- An attempt has failed: nobody else is asked to stop any more. -/
structure Machine.Halting (plan : Plan) (stopped : List Job) (s : Machine) : Prop where
  underway : s.Underway plan
  stopped_eq : s.stopped = stopped

theorem Machine.Halting.files {stopped : List Job} {s : Machine} (h : s.Halting plan stopped)
    (x : Option Bytes) (files : Dict String Bytes) :
    Machine.Halting plan stopped { s with temporary := x, files := files } :=
  ⟨h.underway.files x files, h.stopped_eq⟩

theorem stops_restore (stopped : List Job) :
    Spec (Machine.Halting plan stopped) (Prog.tryEach (stop host .restore) stopped.reverse)
      (fun _ => Machine.Halting plan stopped) (Machine.Underway plan) := by
  refine Spec.tryEach (I := fun _ => Machine.Halting plan stopped) _ (fun past job rest hsplit => ?_)
    fun _ _ hs => hs.underway
  have hmem : job ∈ stopped.reverse := by
    rw [hsplit]
    exact List.mem_append_right _ List.mem_cons_self
  refine stop_spec (J := Machine.Halting plan stopped) fun s hs => ⟨hs.underway.stop ?_, hs.stopped_eq⟩
  rw [hs.stopped_eq]
  exact List.mem_reverse.mp hmem

theorem writes_restore (hnodup : (plan.jobs.map Job.path).Nodup) (stopped : List Job) :
    Spec (Machine.Halting plan stopped) (Prog.tryEach (fun job : Job =>
        (privateWrite (serviceFile .restore job.path) job.raw).under faults) plan.jobs)
      (fun _ s => s.Halting plan stopped ∧ s.Restored faults plan.jobs) (fun _ => True) := by
  refine (Spec.tryEach (I := fun past s => s.Halting plan stopped ∧ s.Restored faults past) plan.jobs
    (fun past job rest hsplit => ?_) fun _ _ _ => trivial).mono (fun s hs => ⟨hs, nofun⟩)
    (fun _ _ h => h) fun _ h => h
  have hne := path_ne_of_split hnodup hsplit
  have hold : ∀ (s : Machine) x, s.Restored faults past → ∀ other ∈ past, Restores faults other →
      (s.files.set job.path x).get other.path = some other.raw := by
    intro s x hs other hother hrestores
    rw [Dict.get_set_ne (hne other hother)]
    exact hs other hother hrestores
  by_cases hrestores : Restores faults job
  · refine privateWrite_replaced (serviceFile .restore job.path)
      (J := fun s => s.Halting plan stopped ∧ s.Restored faults (past ++ [job])) hrestores
      (fun s x hs => ⟨hs.1.files x s.files, hs.2⟩)
      (fun s hs => ⟨hs.1.files s.temporary _, fun other hother hother' => ?_⟩)
      fun s x hs => ⟨hs.1.files x s.files, hs.2⟩
    rcases List.mem_append.mp hother with hpast | hlast
    · exact hold s job.raw hs.2 other hpast hother'
    · obtain rfl := List.mem_singleton.mp hlast
      exact Dict.get_set_self
  · -- a write that is not carried out does no harm to the files before it
    have hlast : ∀ s : Machine, s.Halting plan stopped ∧ s.Restored faults past →
        s.Halting plan stopped ∧ s.Restored faults (past ++ [job]) := by
      intro s hs
      refine ⟨hs.1, fun other hother hother' => ?_⟩
      rcases List.mem_append.mp hother with hpast | hlast
      · exact hs.2 other hpast hother'
      · obtain rfl := List.mem_singleton.mp hlast
        exact absurd hother' hrestores
    have hkeeps : Prog.Keeps (fun s => s.Halting plan stopped ∧ s.Restored faults past)
        (privateWrite (serviceFile .restore job.path) job.raw) :=
      privateWrite_keeps _ (fun s x hs => ⟨hs.1.files x s.files, hs.2⟩)
        fun s hs => ⟨hs.1.files s.temporary _, hold s job.raw hs.2⟩
    exact (Spec.under hkeeps faults).mono (fun _ h => h) (fun _ s h => hlast s h) fun s h => hlast s h

/-- Since some moment with the asks `before` only starts were asked for, and every service of
`jobs` was started under the file in `files`. -/
def Starting (files : Dict String Bytes) (before : List Ask) (jobs : List Job) (s : Machine) :
    Prop :=
  s.files = files ∧ ∃ starts, s.asks = before ++ starts ∧ (∀ other, .stop other ∉ starts) ∧
    ∀ job ∈ jobs, .start job (files.get job.path) ∈ starts

theorem Starting.ask {files : Dict String Bytes} {before : List Ask} {jobs : List Job}
    {s : Machine} (h : Starting files before jobs s) (job : Job) :
    Starting files before (jobs ++ [job])
      { s with asks := s.asks ++ [.start job (s.files.get job.path)] } := by
  obtain ⟨hfiles, starts, hasks, hstops, hstarts⟩ := h
  refine ⟨hfiles, starts ++ [.start job (s.files.get job.path)], ?_, fun other hother => ?_, ?_⟩
  · simp [hasks]
  · rcases List.mem_append.mp hother with hold | hnew
    · exact hstops other hold
    · cases List.mem_singleton.mp hnew
  · intro other hother
    rcases List.mem_append.mp hother with hpast | hlast
    · exact List.mem_append_left _ (hstarts other hpast)
    · obtain rfl := List.mem_singleton.mp hlast
      rw [← hfiles]
      exact List.mem_append_right _ List.mem_cons_self

theorem Starting.again {files : Dict String Bytes} {before : List Ask} {jobs : List Job}
    {s : Machine} (h : Starting files before jobs s) (job : Job) :
    Starting files before jobs
      { s with asks := s.asks ++ [.start job (s.files.get job.path)] } := by
  obtain ⟨hfiles, starts, hasks, hstops, hstarts⟩ := h.ask job
  exact ⟨hfiles, starts, hasks, hstops, fun other hother =>
    hstarts other (List.mem_append_left _ hother)⟩

theorem starts_restore (files : Dict String Bytes) (before : List Ask) (jobs : List Job) :
    Spec (Starting files before []) (Prog.tryEach (bootstrap host .restore) jobs)
      (fun _ => Starting files before jobs) (fun _ => True) :=
  Spec.tryEach jobs (fun _ job _ _ =>
    bootstrap_spec (fun _ hs => hs.ask job) fun _ hs => hs.again job) fun _ _ _ => trivial

/-- After a failed attempt the files whose restoring writes are carried out have their originals,
and every service that was asked to stop is asked to start again. -/
theorem restore_done {s t : Machine} {restored : Bool} (hnodup : (plan.jobs.map Job.path).Nodup)
    (hs : s.Underway plan) (h : (restore host plan).run faults s = (.done restored, t)) :
    t.Restored faults plan.jobs ∧ ∀ job, .stop job ∈ t.asks → t.Restarted job := by
  simp only [restore, bind_done, read_done] at h
  obtain ⟨stopped, _, ⟨hstopped, rfl⟩, _, u, hhalt, _, v, hwrite, _, w, hreload, _, x, hstart,
    hend⟩ := h
  obtain ⟨_, rfl⟩ := pure_done.mp hend
  have hhalted := (stops_restore stopped).done ⟨hs, hstopped⟩ hhalt
  rw [run_tryEach_under faults faults] at hwrite
  have hwritten := (writes_restore hnodup stopped).done hhalted hwrite
  have hreloaded : w.Halting plan stopped ∧ w.Restored faults plan.jobs := by
    have hspec : Prog.Keeps (fun s => s.Halting plan stopped ∧ s.Restored faults plan.jobs)
        (reload host .restore) := reload_spec
    have hafter := (Spec.caught hspec).done hwritten hreload
    split at hafter <;> exact hafter
  obtain ⟨hfiles, starts, hasks, hstops, hstarts⟩ := (starts_restore w.files w.asks _).done
    ⟨rfl, [], (List.append_nil _).symm, fun _ => List.not_mem_nil, List.forall_mem_nil _⟩ hstart
  refine ⟨fun job hjob hrestores => ?_, fun job hjob => ?_⟩
  · rw [hfiles]
    exact hreloaded.2 job hjob hrestores
  · -- the service is among those asked to stop before, and all of these were started
    have hbefore : .stop job ∈ w.asks := by
      rw [hasks] at hjob
      exact (List.mem_append.mp hjob).resolve_right (hstops job)
    have hknown := hreloaded.1.underway.asked job hbefore
    have hplan := hreloaded.1.underway.known job hknown
    rw [hreloaded.1.stopped_eq] at hknown
    have hstarted := hstarts job (List.mem_filter.mpr ⟨hplan, decide_eq_true hknown⟩)
    obtain ⟨earlier, later, hsplit⟩ := List.append_of_mem hstarted
    refine ⟨w.asks ++ earlier, later, ?_, fun other hother => hstops other ?_⟩
    · rw [hasks, hsplit, hfiles, List.append_assoc]
    · rw [hsplit]
      exact List.mem_append_right _ (List.mem_cons_of_mem _ hother)

end restore

/-! ## All or nothing -/

section execute

variable {host : Host} {plan : Plan} {faults : Place → Fault} {files : Dict String Bytes}

/-- The service directory is as it was, or all originals are in the backup and every service has
its rewritten file ready. -/
def Machine.Covered (host : Host) (plan : Plan) (files : Dict String Bytes) (s : Machine) : Prop :=
  s.files = files ∨
    (∀ job ∈ plan.jobs, s.backups.get job.path = files.get job.path) ∧
      ∃ policy changed, plan.policy = some policy ∧
        rewritten host policy false plan.jobs = some changed

/-- Every service has its rewritten file, and was started under it. -/
def Machine.Changed (host : Host) (plan : Plan) (s : Machine) : Prop :=
  ∀ policy, plan.policy = some policy →
    ∃ changed, rewritten host policy false plan.jobs = some changed ∧ s.Written changed ∧
      ∀ next ∈ changed, .start next (some next.raw) ∈ s.asks

theorem Machine.Underway.covered {policy : String} {changed : List Job} {s : Machine}
    (h : s.Underway plan) (hfits : plan.Fits files) (hpolicy : plan.policy = some policy)
    (hchanged : rewritten host policy false plan.jobs = some changed) :
    s.Covered host plan files := by
  refine Or.inr ⟨fun job hjob => ?_, policy, changed, hpolicy, hchanged⟩
  rw [h.saved job hjob, hfits.raw_eq job hjob]

theorem restore_keeps : Prog.Keeps (Machine.Underway plan) (restore host plan) := by
  have hwrites : Prog.Keeps (Machine.Underway plan) (Prog.tryEach (fun job : Job =>
      privateWrite (serviceFile .restore job.path) job.raw) plan.jobs) :=
    Spec.tryEach (I := fun _ => Machine.Underway plan) _
      (fun _ job _ _ => privateWrite_keeps (serviceFile .restore job.path)
        (fun s x hs => hs.files x s.files) fun s hs => hs.files s.temporary _) fun _ _ hs => hs
  have hstarts : ∀ jobs, Prog.Keeps (Machine.Underway plan)
      (Prog.tryEach (bootstrap host .restore) jobs) := fun jobs =>
    Spec.tryEach (I := fun _ => Machine.Underway plan) _
      (fun _ job _ _ => bootstrap_spec (fun s hs => hs.start job _) fun s hs => hs.start job _)
      fun _ _ hs => hs
  have hreload : Prog.Keeps (Machine.Underway plan) (Prog.caught (reload host .restore)) := by
    refine (Spec.caught reload_spec).mono (fun _ h => h) (fun result _ h => ?_) fun _ h => h
    cases result <;> exact h
  unfold restore
  refine (read_spec _).bind fun stopped => ?_
  refine ((stops_restore stopped).mono (fun s hs => ⟨hs.1, hs.2⟩)
    (fun _ _ hs => hs.underway) fun _ hs => hs).bind fun _ => ?_
  exact hwrites.bind fun _ => hreload.bind fun _ => (hstarts _).bind fun _ => Keeps.pure _

theorem restore_not_failed {s t : Machine} {e : ExecuteError} :
    (restore host plan).run faults s ≠ (.failed e, t) := by
  intro h
  rcases bind_failed.mp h with h | ⟨_, _, _, h⟩
  · cases h
  rcases bind_failed.mp h with h | ⟨_, _, _, h⟩
  · exact tryEach_not_failed h
  rcases bind_failed.mp h with h | ⟨_, _, _, h⟩
  · exact tryEach_not_failed h
  rcases bind_failed.mp h with h | ⟨_, _, _, h⟩
  · exact caught_not_failed h
  rcases bind_failed.mp h with h | ⟨_, _, _, h⟩
  · exact tryEach_not_failed h
  · cases h

theorem changePolicy_spec {policy : String} (hfits : plan.Fits files)
    (hpolicy : plan.policy = some policy) :
    Spec (Machine.Untouched files) (changePolicy host plan policy)
      (fun _ s => s.Covered host plan files ∧ s.Changed host plan)
      (Machine.Covered host plan files) := by
  unfold changePolicy
  refine ((prepare_spec hfits).mono (fun _ h => h) (fun _ _ h => h)
    fun s h => Or.inl h.files_eq).bind fun changed => Spec.given fun hchanged => ?_
  have hnodup : (changed.map Job.path).Nodup := by
    rw [rewritten_paths hchanged]
    exact hfits.nodup
  have hcovered : ∀ s : Machine, s.Underway plan → s.Covered host plan files :=
    fun s hs => hs.covered hfits hpolicy hchanged
  have hattempt := Spec.caught (@apply_spec host plan changed hnodup)
  refine (hattempt.mono (fun s hs => hs.1.underway hs.2) (fun _ _ h => h)
    fun s hs => hcovered s hs).bind fun result => ?_
  cases result with
  | ok u =>
      refine Spec.pure fun s hs => ⟨hcovered s hs.1, fun other hother => ?_⟩
      obtain rfl : policy = other := Option.some.inj (hpolicy.symm.trans hother)
      exact ⟨changed, hchanged, hs.2⟩
  | error cause =>
      refine ((@restore_keeps host plan).mono (fun _ h => h) (fun _ _ h => h) hcovered).bind
        fun restored => ?_
      exact fun _ s hs => hcovered s hs

theorem execute_spec :
    Spec (Machine.Untouched files) (execute host plan)
      (fun _ s => s.Covered host plan files ∧ s.Changed host plan)
      (Machine.Covered host plan files) := by
  unfold execute
  refine (check_spec.mono (fun _ h => h) (fun _ _ h => h) fun s h => Or.inl h.files_eq).bind
    fun _ => Spec.given fun hfits => ?_
  split
  · rename_i policy hpolicy
    exact changePolicy_spec hfits hpolicy
  · rename_i hpolicy
    refine ((caught_step_spec _ _).mono (fun _ h => h) (fun _ _ h => h)
      fun s h => Or.inl h.files_eq).bind fun _ => ?_
    refine (step_spec _ _).mono (fun _ h => h) (fun _ s h => ⟨Or.inl h.files_eq, ?_⟩)
      fun s h => Or.inl h.files_eq
    intro policy hsome
    rw [hpolicy] at hsome
    cases hsome

/-- A run that fails has changed nothing, or everything is restored. -/
theorem execute_failed {s t : Machine} {e : ExecuteError} (hs : s.Untouched files)
    (h : (execute host plan).run faults s = (.failed e, t)) :
    t.Untouched files ∨ plan.Fits files ∧ t.Restored faults plan.jobs ∧
      ∀ job, .stop job ∈ t.asks → t.Restarted job := by
  rcases check_spec.peel hs h with huntouched | ⟨_, u, _, ⟨hu, hfits⟩, h⟩
  · exact Or.inl huntouched
  cases hpolicy : plan.policy with
  | none =>
      rw [hpolicy] at h
      have hrest : Spec (Machine.Untouched files) (do
          let _ ← Prog.caught (step .restart "restart")
          step .verify "Restart verification timed out; inspect services before retrying")
          (fun _ => Machine.Untouched files) (Machine.Untouched files) :=
        (caught_step_spec _ _).bind fun _ => step_spec _ _
      have hafter := hrest faults u hu
      rw [h] at hafter
      exact Or.inl hafter
  | some policy =>
      rw [hpolicy] at h
      rcases (prepare_spec hfits).peel hu h with huntouched | ⟨changed, v, _, ⟨hv, hchanged⟩, h⟩
      · exact Or.inl huntouched
      have hnodup : (changed.map Job.path).Nodup := by
        rw [rewritten_paths hchanged]
        exact hfits.nodup
      rcases bind_failed.mp h with hcaught | ⟨result, w, hresult, h⟩
      · exact absurd hcaught caught_not_failed
      have hattempt := (Spec.caught (@apply_spec host plan changed hnodup)).done
        (hv.1.underway hv.2) hresult
      cases result with
      | ok u => cases h
      | error cause =>
          rcases bind_failed.mp h with hrestore | ⟨restored, x, hrestore, h⟩
          · exact absurd hrestore restore_not_failed
          · obtain rfl : x = t := congrArg Prod.snd h
            exact Or.inr ⟨hfits, restore_done hfits.nodup hattempt hrestore⟩

/-- **A permission change is made or undone.**  When `execute` fails, every service of the plan
whose restoring write is carried out, if it came to that, has exactly its original file, and every
service that was asked to stop is asked to start again under the file it has.  Wherever a run
ends, the service directory is as it was unless all originals were in the backup and all rewrites
had succeeded.  And when `execute` succeeds every service is rewritten. -/
theorem execute_all_or_nothing (host : Host) (plan : Plan) (faults : Place → Fault)
    (files : Dict String Bytes) :
    (∀ e t, (execute host plan).run faults (Machine.start files) = (.failed e, t) →
      (∀ job ∈ plan.jobs, Restores faults job → t.files.get job.path = files.get job.path) ∧
        ∀ job, .stop job ∈ t.asks → t.Restarted job) ∧
    (((execute host plan).run faults (Machine.start files)).2.Covered host plan files) ∧
    ∀ t, (execute host plan).run faults (Machine.start files) = (.done (), t) →
      t.Changed host plan := by
  have hstart : (Machine.start files).Untouched files := ⟨rfl, rfl, rfl⟩
  refine ⟨fun e t h => ?_, ?_, fun t h => ?_⟩
  · rcases execute_failed hstart h with huntouched | ⟨hfits, hrestored, hrestarted⟩
    · refine ⟨fun job _ _ => by rw [huntouched.files_eq], fun job hjob => ?_⟩
      rw [huntouched.asks_eq] at hjob
      cases hjob
    · refine ⟨fun job hjob hrestores => ?_, hrestarted⟩
      rw [hfits.raw_eq job hjob]
      exact hrestored job hjob hrestores
  · rcases execute_spec.elim faults hstart with ⟨_, t, hrun, hcovered, _⟩ | ⟨_, hcovered⟩
    · rw [hrun]
      exact hcovered
    · exact hcovered
  · exact (execute_spec.done hstart h).2

end execute

end Reconnect

end CodexMonitor
