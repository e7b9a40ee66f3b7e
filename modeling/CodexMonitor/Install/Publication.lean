import CodexMonitor.Install.Layout
import CodexMonitor.Install.Recovery

/-!
# From the registration of a release to `current`

A release that is registered is one of the prefix as long as `current` was set before, or is set to
it.  `Meets` is the condition on where a run is cut off, `sound_attempt` says that such runs leave a
sound prefix, and `again_succeeds` that from one the next run publishes its release.
-/

namespace CodexMonitor

namespace Install

namespace Releases

open Faults (Fault Outcome Prog)
open Faults.Replace (Step Target writing replacing)
open Faults.Prog

/-! ## The links -/

/-- The prefix `b` with a release that is registered. -/
structure Committed (b : Root) (records : List Record) (record : Record) (release : Release)
    (s : Root) : Prop where
  marker : s.marker = some (records ++ [record])
  service : s.service = b.service
  releases : ∀ id, s.releases.get id = if id = record.id then some release else b.releases.get id
  launcher : b.launcher = true → s.launcher = true

/-- A release that is not in `b` and is what its record says. -/
structure Registrable (host : Host) (b : Root) (record : Record) (release : Release) : Prop where
  new : b.releases.get record.id = none
  verified : ∀ s : Root, s.releases.get record.id = some release →
    verifyRelease host s record = .ok ()

/-- The release is registered and nothing else is done yet. -/
def Waiting (b : Root) (records : List Record) (record : Record) (release : Release)
    (s : Root) : Prop :=
  Committed b records record release s ∧ s.current = b.current

/-- The launcher is there. -/
def Launched (b : Root) (records : List Record) (record : Record) (release : Release)
    (s : Root) : Prop :=
  Waiting b records record release s ∧ s.launcher = true

/-- The release is current. -/
def Switched (b : Root) (records : List Record) (record : Record) (release : Release)
    (s : Root) : Prop :=
  Committed b records record release s ∧ s.current = some record.id ∧ s.launcher = true

section links

variable {host : Host} {s₀ b s : Root} {records : List Record} {record : Record}
  {release : Release} {plan : Place → Fault}

theorem Holding.waiting (h : Holding (registered b records record) record.id release s) :
    Waiting b records record release s :=
  ⟨⟨h.marker, h.service, h.releases, fun hl => h.launcher.trans hl⟩, h.current⟩

theorem launched_steady : Steady (Launched b records record release) :=
  fun _ _ h => ⟨⟨⟨h.1.1.marker, h.1.1.service, h.1.1.releases, h.1.1.launcher⟩, h.1.2⟩, h.2⟩

theorem switched_steady : Steady (Switched b records record release) :=
  fun _ _ h => ⟨⟨h.1.marker, h.1.service, h.1.releases, h.1.launcher⟩, h.2⟩

/-- A registered release makes a sound prefix with a `current`. -/
theorem Committed.ended (h : Committed b records record release s) (hs : Sound host s₀)
    (hclaimed : Claimed s₀ b records) (hrelease : Registrable host b record release)
    (hcurrent : s.current = b.current ∧ b.current.isSome ∨ s.current = some record.id) :
    Ended host s₀ s := by
  have howned : Owned host s (records ++ [record]) :=
    (hclaimed.owned hs).register hrelease.new h.releases
      (hrelease.verified s (by rw [h.releases, if_pos rfl])) hcurrent
  refine howned.ended h.marker (h.service.trans (hclaimed.service.trans hs.service)) ?_ ?_
  · exact fun hl => h.launcher (hclaimed.launcher.trans hl)
  · intro _
    obtain ⟨hsame, hsome⟩ | hswitched := hcurrent
    · rw [hsame]
      exact hsome
    · simp [hswitched]

theorem ensureLauncher_spec :
    Spec (Waiting b records record release) ensureLauncher
      (fun _ => Launched b records record release) (Waiting b records record release) := by
  unfold ensureLauncher
  refine Spec.bind (Spec.write (Q := Waiting b records record release) (fun s h =>
    ⟨⟨h.1.marker, h.1.service, h.1.releases, h.1.launcher⟩, h.2⟩) fun _ h => h) fun _ => ?_
  refine (Spec.read _).bind fun launcher => ?_
  cases launcher with
  | true => exact Spec.pure fun s h => h
  | false =>
      refine Spec.bind (Spec.write (Q := Launched b records record release) (fun s h => ?_)
        fun s h => h.1) fun _ => Spec.write (fun _ h => h) fun s h => h.1
      exact ⟨⟨⟨h.1.1.marker, h.1.1.service, h.1.1.releases, fun _ => rfl⟩, h.1.2⟩, rfl⟩

/-- The clean-up after a switch. -/
theorem unlink_keeps {I : Root → Prop} (hI : Steady I) :
    Keeps I (do
      let left ← Prog.read fun s : Root => s.temporary.isSome
      if left then Prog.write .unlinkCurrent .io (Root.setTemporary none) else pure () :
        Run Unit) := by
  refine (Keeps.read _).bind fun left => ?_
  cases left with
  | true => exact Keeps.write fun s h => hI s none h
  | false => exact Keeps.pure _

theorem Launched.switch (h : Launched b records record release s) :
    Switched b records record release
      { s with current := some record.id, temporary := none } :=
  ⟨⟨h.1.1.marker, h.1.1.service, h.1.1.releases, h.1.1.launcher⟩, rfl, h.2⟩

theorem switchCurrent_spec :
    Spec (Launched b records record release) (switchCurrent record.id)
      (fun _ => Switched b records record release)
      (fun s => Launched b records record release s ∨ Switched b records record release s) := by
  have heither : Steady fun s =>
      Launched b records record release s ∨ Switched b records record release s :=
    fun s x h => h.imp (launched_steady s x) (switched_steady s x)
  unfold switchCurrent
  refine Spec.andThen ?_ (fun _ => unlink_keeps switched_steady) (unlink_keeps heither)
    fun _ _ h => Or.inr h
  refine Spec.bind (Spec.write (Q := Launched b records record release)
    (fun s h => launched_steady s _ h) fun s h => Or.inl h) fun _ => ?_
  refine Spec.bind (Spec.write (Q := Switched b records record release)
    (fun s h => h.switch) fun s h => Or.inl h) fun _ => ?_
  exact Spec.write (fun s h => h) fun s h => Or.inr h

/-- A switch that is not cut off before the link is renamed is done, but perhaps not reported. -/
theorem switchCurrent_switched (hlink : plan .linkCurrent = .none) (hswitch : plan .switch = .none) :
    Spec (Launched b records record release) ((switchCurrent record.id).under plan)
      (fun _ => Switched b records record release) (Switched b records record release) := by
  unfold switchCurrent
  rw [under_andThen]
  refine Spec.andThen ?_ (fun _ => (unlink_keeps switched_steady).under plan)
    ((unlink_keeps switched_steady).under plan) fun _ _ h => h
  rw [under_bind]
  refine Spec.bind (Total.write (Q := fun _ => Launched b records record release) hlink
    fun s h => launched_steady s _ h).spec fun _ => ?_
  rw [under_bind]
  refine Spec.bind (Total.write (Q := fun _ => Switched b records record release) hswitch
    fun s h => h.switch).spec fun _ => ?_
  exact (Spec.write (fun s h => h) fun s h => h).under plan

theorem ensureLauncher_total (hcalm : Calm plan [.createBin, .linkLauncher, .syncBin]) :
    Total plan (fun _ => True) ensureLauncher fun _ _ => True := by
  unfold ensureLauncher
  refine Total.bind (Q := fun _ _ => True) (Total.write (hcalm _ (by simp)) fun _ _ => trivial)
    fun _ => ?_
  refine Total.bind (Q := fun _ _ => True) (Total.read fun _ _ => trivial) fun launcher => ?_
  cases launcher with
  | true => exact Total.pure fun _ _ => trivial
  | false =>
      refine Total.bind (Q := fun _ _ => True) (Total.write (hcalm _ (by simp))
        fun _ _ => trivial) fun _ => ?_
      exact Total.write (hcalm _ (by simp)) fun _ _ => trivial

/-- What a run does after the registration. -/
def link (id : String) (installed : Installed) : Run Installed := do
  ensureLauncher
  switchCurrent id
  pure installed

theorem link_upgrade (installed : Installed) (hs : Sound host s₀) (hclaimed : Claimed s₀ b records)
    (hrelease : Registrable host b record release) (hcurrent : b.current.isSome) :
    Spec (Waiting b records record release) (link record.id installed)
      (fun done s => (Ended host s₀ s ∧ Switched b records record release s) ∧ done = installed)
      (Ended host s₀) := by
  have hwaiting : ∀ s, Waiting b records record release s → Ended host s₀ s :=
    fun s h => h.1.ended hs hclaimed hrelease (.inl ⟨h.2, hcurrent⟩)
  have hswitched : ∀ s, Switched b records record release s → Ended host s₀ s :=
    fun s h => h.1.ended hs hclaimed hrelease (.inr h.2.1)
  unfold link
  refine Spec.bind (ensureLauncher_spec.mono (fun _ h => h) (fun _ _ h => h) hwaiting) fun _ => ?_
  refine Spec.bind (switchCurrent_spec.mono (fun _ h => h) (fun _ _ h => h)
    fun s h => h.elim (fun h => hwaiting s h.1) (hswitched s)) fun _ => ?_
  exact Spec.pure fun s h => ⟨⟨hswitched s h, h⟩, rfl⟩

/-- The links of a first installation that is not cut off before `current` is set. -/
theorem link_install (installed : Installed) (hs : Sound host s₀) (hclaimed : Claimed s₀ b records)
    (hrelease : Registrable host b record release)
    (hcalm : Calm plan [.createBin, .linkLauncher, .syncBin, .linkCurrent, .switch]) :
    Spec (Waiting b records record release) ((link record.id installed).under plan)
      (fun done s => (Ended host s₀ s ∧ Switched b records record release s) ∧ done = installed)
      (Ended host s₀) := by
  have hswitched : ∀ s, Switched b records record release s → Ended host s₀ s :=
    fun s h => h.1.ended hs hclaimed hrelease (.inr h.2.1)
  have hplaces : Calm plan ([.createBin, .linkLauncher, .syncBin] ++ [.linkCurrent, .switch]) :=
    hcalm
  have hspec : Spec (Waiting b records record release) ensureLauncher
      (fun _ => Launched b records record release) (Waiting b records record release) :=
    ensureLauncher_spec
  have hlaunch := (ensureLauncher_total hplaces.left).and (hspec.under plan)
  unfold link
  rw [under_bind]
  refine Spec.bind (hlaunch.spec.mono (fun _ h => ⟨trivial, h⟩) (fun _ _ h => h.2)
    fun _ h => h) fun _ => ?_
  rw [under_bind]
  refine Spec.bind ((switchCurrent_switched (hcalm _ (by simp)) (hcalm _ (by simp))).mono
    (fun _ h => h) (fun _ _ h => h) hswitched) fun _ => ?_
  exact (Spec.pure fun s h => ⟨⟨hswitched s h, h⟩, rfl⟩).under plan

end links

/-! ## Whole runs -/

/-- The operations up to the registration of a release. -/
def releasePlaces (s : Root) : List Place := entryPlaces s ++ (stagePlaces ++ inspectPlaces)

/-- Once its release is registered, a first installation is not cut off before `current` is set;
an upgrade does not remove the release. -/
def Commits (a : Attempt) : Prop :=
  match a.action with
  | .install => Calm a.plan [.register .syncDir, .createBin, .linkLauncher, .syncBin, .linkCurrent,
      .switch]
  | .upgrade => a.plan (.register .syncDir) = .error → a.plan .unregister ≠ .none

/-- What a run must not do to the prefix `s`: leave a temporary file without a marker, a stage or a
release that is not registered, or a record without its release or without a `current`. -/
structure Meets (host : Host) (s : Root) (a : Attempt) : Prop where
  fresh : Fresh host a.source a.build s
  claimed : ClaimsSafely s a.plan
  staged : Allowed a.action s → checkSource a.source = .ok () →
    checkExpected host a.source = .ok () →
      Calm a.plan (entryPlaces s ++ (preparePlaces ++ [.createStage])) →
        Stages host a.source a.plan
  inspected : ∀ version, Allowed a.action s → Accepted host a.source version →
    Calm a.plan (entryPlaces s ++ stagePlaces) →
      Mended a.plan (fun _ => a.plan .discardRelease = .none) inspectPlaces
  registered : ∀ version, Allowed a.action s → Accepted host a.source version →
    Calm a.plan (releasePlaces s) →
      Mended a.plan (Unregisters a.plan) (replacing.map .register)
  committed : ∀ version, Allowed a.action s → Accepted host a.source version →
    Calm a.plan (releasePlaces s ++ replacing.map .register) → Commits a

/-- What a run answers when it is done. -/
def reportOf (host : Host) (action : Action) (record : Record) : Installed :=
  ⟨match action with | .install => "installed" | .upgrade => "upgraded", host.root, host.state,
    record.version, record.id, record.sha256, host.root ++ "/bin/codex-monitor-rs"⟩

section runs

variable {host : Host} {s₀ b s : Root} {records : List Record} {a : Attempt} {version : String}

theorem Kept.ended (h : Kept b s) (hs : Sound host s₀) (hclaimed : Claimed s₀ b records) :
    Ended host s₀ s := by
  have howned : Owned host s records := (hclaimed.owned hs).congr h.releases h.current h.launcher
  refine howned.ended (h.marker.trans hclaimed.marker)
    (h.service.trans (hclaimed.service.trans hs.service)) ?_ ?_
  · exact fun hl => h.launcher.trans (hclaimed.launcher.trans hl)
  · exact fun hc => by rwa [h.current, hclaimed.current]

theorem Fresh.claimed {source : Source} {build : Build} (h : Fresh host source build s₀)
    (hclaimed : Claimed s₀ b records) : Fresh host source build b :=
  ⟨by rw [hclaimed.releases]; exact h.stage, fun v => by rw [hclaimed.releases]; exact h.release v,
    h.apart⟩

theorem Calm.append {plan : Place → Fault} {ps qs : List Place} (hp : Calm plan ps)
    (hq : Calm plan qs) : Calm plan (ps ++ qs) :=
  fun place hplace => (List.mem_append.mp hplace).elim (hp place) (hq place)

/-- A run from the registration on. -/
theorem commit_spec (hs : Sound host s₀) (hm : Meets host s₀ a) (hclaimed : Claimed s₀ b records)
    (hallowed : Allowed a.action s₀) (haccepted : Accepted host a.source version)
    (hcalm : Calm a.plan (releasePlaces s₀)) {record : Record}
    (hrecord : record = recordOf host a.source a.build version) :
    Spec (fun s => Holding b record.id (made host a.source a.build version) s ∧ s.temporary = none)
      ((Prog.onFailure (atomicJson (markerFile .register) (.marker (records ++ [record])))
          (removeTree .unregister record.id) >>= fun _ =>
            link record.id (reportOf host a.action record)).under a.plan)
      (fun installed s => (Ended host s₀ s ∧
        Switched b records record (made host a.source a.build version) s) ∧
          installed = reportOf host a.action record)
      (Ended host s₀) := by
  have hfresh := hm.fresh.claimed hclaimed
  have hrelease : Registrable host b record (made host a.source a.build version) := by
    subst hrecord
    exact ⟨hfresh.release version, fun s hmade => verify_made haccepted hmade⟩
  have hcommits : Calm a.plan (replacing.map .register) → Commits a := fun hreplaced =>
    hm.committed version hallowed haccepted (Calm.append hcalm hreplaced)
  have hcommit : Calm a.plan (replacing.map .register) →
      a.plan (.register .syncDir) = .error → a.plan .unregister ≠ .none := by
    intro hreplaced hfault
    have hcommitted := hcommits hreplaced
    unfold Commits at hcommitted
    split at hcommitted
    · have hnone := hcommitted (.register .syncDir) (by simp)
      rw [hfault] at hnone
      cases hnone
    · exact hcommitted hfault
  have hregister := register_spec records (made host a.source a.build version) hrelease.new
    (hm.registered version hallowed haccepted hcalm) hcommit
  have hkept : ∀ s, Kept b s → Ended host s₀ s := fun s h => h.ended hs hclaimed
  rw [under_bind]
  cases haction : a.action with
  | install =>
      refine Spec.bind (hregister.mono (fun _ h => h) (fun _ s h => ⟨h.1.waiting, h.2⟩)
        fun s h => h.elim (hkept s) ?_) fun _ => Spec.given fun hwritten => ?_
      · intro h
        obtain ⟨hreplaced, hdir, -⟩ := h
        have hcommitted := hcommits hreplaced
        unfold Commits at hcommitted
        rw [haction] at hcommitted
        exact absurd (hcommitted _ List.mem_cons_self) hdir
      · have hcommitted := hcommits fun place hplace => hwritten place (by
          simp only [replacing, writing, List.map_cons, List.mem_cons] at hplace ⊢
          tauto)
        unfold Commits at hcommitted
        rw [haction] at hcommitted
        exact link_install _ hs hclaimed hrelease fun place hplace =>
          hcommitted place (List.mem_cons_of_mem _ hplace)
  | upgrade =>
      have hcurrent : b.current.isSome := by
        rw [hclaimed.current]
        rw [haction] at hallowed
        exact hallowed
      refine Spec.bind (hregister.mono (fun _ h => h) (fun _ s h => h.1.waiting)
        fun s h => h.elim (hkept s) fun h => ?_) fun _ =>
          (link_upgrade _ hs hclaimed hrelease hcurrent).under a.plan
      exact h.2.2.waiting.1.ended hs hclaimed hrelease (.inl ⟨h.2.2.waiting.2, hcurrent⟩)

/-- What a run that is done leaves. -/
structure Done (host : Host) (a : Attempt) (installed : Installed) (s : Root) : Prop where
  launcher : s.launcher = true
  current : s.current = some installed.release
  release : ∃ version, Accepted host a.source version ∧
    installed.release = host.releaseId a.source a.build version

/-- A run leaves a sound prefix, and a new release when it is done. -/
theorem installOrUpgrade_spec (hs : Sound host s₀) (hm : Meets host s₀ a) :
    Spec (fun s => s = s₀) ((installOrUpgrade host a.action a.source a.build).under a.plan)
      (fun installed s => Ended host s₀ s ∧ Done host a installed s) (Ended host s₀) := by
  unfold installOrUpgrade
  rw [under_bind]
  refine Spec.bind (enter_spec hs hm.claimed) fun records => ?_
  intro other b hb
  obtain ⟨hclaimed, hallowed, hentry⟩ := hb
  have hfresh := hm.fresh.claimed hclaimed
  suffices hrest : Spec (fun s => Kept b s ∧ s.temporary = none) _ _ _ from
    hrest other b ⟨⟨rfl, rfl, rfl, rfl, fun _ => rfl⟩, hclaimed.settled⟩
  rw [under_bind]
  refine Spec.bind ((prepareRelease_spec hfresh (fun hsource hexpected hcalm =>
    hm.staged hallowed hsource hexpected (Calm.append hentry hcalm)) fun version haccepted hcalm =>
      hm.inspected version hallowed haccepted (Calm.append hentry hcalm)).mono (fun _ h => h)
        (fun _ _ h => h) fun s h => h.ended hs hclaimed) fun record => ?_
  refine Spec.given fun hcalm => ?_
  intro plan s h
  obtain ⟨version, haccepted, hrecord, hholding⟩ := h
  refine ((commit_spec hs hm hclaimed hallowed haccepted (Calm.append hentry hcalm) hrecord).mono
    (fun _ h => h) (fun installed s h => ⟨h.1.1, ?_⟩) fun _ h => h) plan s hholding
  obtain ⟨⟨-, -, hcurrent, hlauncher⟩, rfl⟩ := h
  exact ⟨hlauncher, hcurrent, version, haccepted, by rw [hrecord]; rfl⟩

end runs

/-! ## Runs that are not disturbed -/

section totals

variable {host : Host} {s₀ b s : Root} {records : List Record} {action : Action} {source : Source}
  {build : Build} {version : String} {plan : Place → Fault}

theorem check_total {α : Type} {P : Root → Prop} {f : Root → Except InstallError α}
    (h : ∀ s, P s → ∃ a, f s = .ok a) :
    Total plan P (check f) fun a s => P s ∧ f s = .ok a := by
  intro s hs
  obtain ⟨a, ha⟩ := h s hs
  refine ⟨a, s, ?_, hs, ha⟩
  simp only [check, run_bind, Prog.read, ha]
  rfl

theorem openRoot_total (hcreate : plan .createRoot = .none) :
    Total plan (fun _ => True) openRoot fun _ _ => True := by
  unfold openRoot
  refine Total.bind (Q := fun _ _ => True) (Total.read fun _ _ => trivial) fun there => ?_
  cases there with
  | true => exact Total.pure fun _ _ => trivial
  | false => exact Total.write hcreate fun _ _ => trivial

theorem json_total {target : Target Place Root Content} {content : Content} (h : Plain target)
    (hplan : ∀ step ∈ writing, plan (target.place step) = .none) :
    Total plan (fun _ => True) (atomicJson target content) fun _ _ => True :=
  atomicJson_total content h (fun _ _ _ => trivial) (fun _ _ => trivial) (fun _ _ _ => trivial)
    hplan

theorem claimOrRead_total (hs : Sound host s₀) (hcalm : ∀ place, plan place = .none) :
    Total plan (fun s => s = s₀) (claimOrRead host) fun _ _ => True := by
  unfold claimOrRead
  have hopen := (openRoot_total (hcalm _)).and (openRoot_spec hs (hcalm .lock))
  refine Total.bind (hopen.mono (fun _ h => ⟨trivial, h⟩) fun _ _ h => h.2.1) fun _ => ?_
  refine Total.bind (Q := fun marker s => Opened s₀ s ∧ marker = s₀.marker)
    (Total.read fun s h => ⟨h, ?_⟩) fun marker => ?_
  · obtain ⟨there, rfl⟩ := h
    rfl
  intro s h
  obtain ⟨hopened, rfl⟩ := h
  cases hmarker : s₀.marker with
  | some records =>
      exact Total.bind (P := fun _ => True) (Q := fun _ _ => True)
        (Total.probe (hcalm _) fun _ _ => trivial)
        (fun _ => Total.pure fun _ _ => trivial) s trivial
  | none =>
      refine Total.bind (Q := fun occupied _ => occupied = false) (Total.read fun s h => ?_)
        (fun occupied => ?_) s hopened
      · obtain ⟨there, rfl⟩ := h
        exact (hs.unmarked hmarker).1
      intro s hfree
      subst hfree
      refine Total.bind (P := fun _ => True) (Q := fun _ _ => True)
        (Total.bailIf (by simp) fun _ _ => trivial) (fun _ => ?_) s trivial
      exact (json_total ⟨rfl, rfl⟩ fun _ _ => hcalm _).bind fun _ => Total.pure fun _ _ => trivial

theorem claimsSafely (hcalm : ∀ place, plan place = .none) : ClaimsSafely s plan :=
  fun _ _ => Calm.mended fun place _ => hcalm place

theorem verifyCurrent_total (howned : Owned host b records) {current : Option String}
    (hcurrent : b.current = current) (hcalm : ∀ place, plan place = .none) :
    Total plan (fun s => s = b) (verifyCurrent host records current) fun _ _ => True := by
  cases current with
  | none => exact Total.pure fun _ _ => trivial
  | some id =>
      obtain ⟨record, hrecord, -, hfound⟩ := howned.currentRecord hcurrent
      unfold verifyCurrent
      refine Total.bind (Q := fun r s => r = record ∧ s = b)
        (Total.ofExcept hfound fun s h => ⟨rfl, h⟩) fun r => ?_
      refine Total.bind (Q := fun _ s => r = record ∧ s = b)
        (Total.probe (hcalm _) fun _ h => h) fun _ => ?_
      refine (check_total fun s h => ⟨(), ?_⟩).mono (fun _ h => h) fun _ _ _ => trivial
      obtain ⟨rfl, rfl⟩ := h
      exact howned.verified r hrecord

theorem enter_total (hs : Sound host s₀) (hallowed : Allowed action s₀)
    (hcalm : ∀ place, plan place = .none) :
    Total plan (fun s => s = s₀) (enter host action) fun _ _ => True := by
  unfold enter
  refine Total.bind (Q := fun _ s => s = s₀) (Total.probe (hcalm _) fun _ h => h) fun _ => ?_
  have hclaim := (claimOrRead_total hs hcalm).and
    (claimOrRead_spec hs (claimsSafely hcalm) (hcalm .lock))
  refine Total.bind (hclaim.mono (fun _ h => ⟨h, h⟩) fun _ _ h => h.2.1) fun records => ?_
  intro b hclaimed
  have howned := hclaimed.owned hs
  suffices hrest : Total plan (fun s => s = b) _ _ from hrest b rfl
  refine Total.bind (Q := fun _ s => s = b) ((check_total fun s h => ⟨(), by
    rw [h, howned.checkLayout]⟩).mono (fun _ h => h) fun _ _ h => h.1) fun _ => ?_
  refine Total.bind (Q := fun service s => s = b ∧ service = false) (Total.read fun s h => ⟨h, ?_⟩)
    fun service => ?_
  · rw [h, hclaimed.service, hs.service]
  refine Total.bind (Q := fun _ s => s = b) (fun s h => ?_) fun _ => ?_
  · obtain ⟨rfl, rfl⟩ := h
    exact Total.bailIf (P := fun u => u = s) (by simp) (fun _ h => h) s rfl
  refine Total.bind (Q := fun current s => s = b ∧ current = b.current) ((check_total
    fun s h => ⟨b.current, by rw [h, howned.currentId]⟩).mono (fun _ h => h) fun current s h => ?_)
      fun current => ?_
  · obtain ⟨rfl, hcurrent⟩ := h
    rw [howned.currentId] at hcurrent
    exact ⟨rfl, (Except.ok.inj hcurrent).symm⟩
  intro s h
  obtain ⟨rfl, rfl⟩ := h
  have haction : checkAction action records s.current = .ok () := by
    rw [howned.checkAction]
    unfold Allowed at hallowed ⊢
    rwa [hclaimed.current]
  refine Total.bind (P := fun u => u = s) (Q := fun _ u => u = s)
    (Total.ofExcept haction fun _ h => h) (fun _ => ?_) s rfl
  exact (verifyCurrent_total howned rfl hcalm).bind fun _ => Total.pure fun _ _ => trivial

theorem copyBinary_total (hsmoke : smoke host source.bytes = .ok version)
    (hcalm : ∀ place, plan place = .none) :
    Total plan (fun _ => True) (copyBinary host source build) fun _ _ => True := by
  unfold copyBinary
  refine Total.bind (Q := fun _ _ => True) (Total.write (hcalm _) fun _ _ => trivial) fun _ => ?_
  refine Total.bind (Q := fun _ _ => True) (Total.probe (hcalm _) fun _ _ => trivial) fun _ => ?_
  refine Total.bind (Q := fun _ _ => True) (Total.write (hcalm _) fun _ _ => trivial) fun _ => ?_
  refine Total.bind (Q := fun _ _ => True) (Total.write (hcalm _) fun _ _ => trivial) fun _ => ?_
  refine Total.bind (Q := fun _ _ => True) (Total.probe (hcalm _) fun _ _ => trivial) fun _ => ?_
  refine Total.bind (Q := fun _ _ => True) (Total.probe (hcalm _) fun _ _ => trivial) fun _ => ?_
  exact Total.ofExcept hsmoke fun _ _ => trivial

/-- Under a calm plan every failure is as good as mended. -/
theorem mended_of_calm (hcalm : ∀ place, plan place = .none) {mends : Place → Prop}
    (places : List Place) : Mended plan mends places :=
  Calm.mended fun place _ => hcalm place

/-- The stage is published under a name that is free. -/
theorem publishStage_total (hfresh : Fresh host source build b) (version : String)
    (hcalm : ∀ place, plan place = .none) :
    Total plan (fun s => s.releases.get (host.releaseId source build version) = none)
      (publishStage host source build version) fun _ _ => True := by
  have hput : ∀ s : Root, s.releases.get (host.releaseId source build version) = none →
      ((provenanceFile build.stage).put
        (.provenance (host.provenance source build version)) s).releases.get
          (host.releaseId source build version) = none := by
    intro s h
    cases hstage : s.releases.get build.stage with
    | none => simpa [provenanceFile, hstage] using h
    | some release =>
        simp [provenanceFile, hstage, Root.setRelease, Dict.get_set, hfresh.apart version, h]
  have hsteady : Steady fun s =>
      s.releases.get (host.releaseId source build version) = none := fun _ _ h => h
  unfold publishStage
  refine Total.bind (atomicJson_total _ ⟨rfl, rfl⟩ hsteady hput hsteady fun _ _ => hcalm _)
    fun _ => ?_
  refine Total.bind (Q := fun taken _ => taken = false) (Total.read fun s h => by simp [h])
    fun taken => ?_
  intro s htaken
  subst htaken
  refine Total.bind (P := fun _ => True) (Q := fun _ _ => True)
    (Total.bailIf (by simp) fun _ _ => trivial) (fun _ => ?_) s trivial
  exact Total.write (hcalm _) fun _ _ => trivial

theorem fillStage_total (hfresh : Fresh host source build b)
    (hsmoke : smoke host source.bytes = .ok version) (hcalm : ∀ place, plan place = .none) :
    Total plan (fun s => Kept b s ∧ s.temporary = none) (fillStage host source build)
      fun _ _ => True := by
  have hguarded : Guarded plan (fun s => Kept b s ∧ s.temporary = none)
      (copyBinary host source build) _ _ :=
    copyBinary_guarded (hcalm .createStage) (mended_of_calm hcalm _)
      fun _ _ _ => hcalm .discardStage
  unfold fillStage
  refine Total.bind (Q := fun v s => s.releases.get (host.releaseId source build v) = none)
    (((copyBinary_total hsmoke hcalm).and hguarded.spec).mono (fun _ h => ⟨trivial, h⟩)
      fun v s h => ?_) fun v => ?_
  · rw [h.2.2.1.releases, if_neg (hfresh.apart v), hfresh.release]
  · exact (publishStage_total hfresh v hcalm).bind fun _ => Total.pure fun _ _ => trivial

theorem prepareRelease_total (hfresh : Fresh host source build b)
    (haccepted : Accepted host source version) (hcalm : ∀ place, plan place = .none) :
    Total plan (fun s => Kept b s ∧ s.temporary = none) (prepareRelease host source build)
      fun _ _ => True := by
  unfold prepareRelease
  refine Total.bind (Q := fun _ s => Kept b s ∧ s.temporary = none)
    (Total.probe (hcalm _) fun _ h => h) fun _ => ?_
  refine Total.bind (Q := fun _ s => Kept b s ∧ s.temporary = none)
    (Total.ofExcept haccepted.source_ok fun _ h => h) fun _ => ?_
  refine Total.bind (Q := fun _ s => Kept b s ∧ s.temporary = none)
    (Total.probe (hcalm _) fun _ h => h) fun _ => ?_
  refine Total.bind (Q := fun _ s => Kept b s ∧ s.temporary = none)
    (Total.ofExcept haccepted.expected fun _ h => h) fun _ => ?_
  refine Total.bind (Q := fun _ s => Kept b s ∧ s.temporary = none)
    (Total.write (hcalm _) fun s h => ⟨⟨h.1.marker, h.1.service, h.1.current, h.1.launcher,
      h.1.releases⟩, h.2⟩) fun _ => ?_
  refine (fillStage_total hfresh haccepted.smoked hcalm).onFailure.bind fun v => ?_
  refine Total.onFailure ?_
  unfold inspectRelease
  refine Total.bind (Q := fun _ _ => True) (Total.probe (hcalm _) fun _ _ => trivial) fun _ => ?_
  refine Total.bind (Q := fun _ _ => True) (Total.probe (hcalm _) fun _ _ => trivial) fun _ => ?_
  refine Total.bind (Q := fun _ _ => True) (Total.read fun _ _ => trivial) fun _ => ?_
  exact Total.pure fun _ _ => trivial

theorem switchCurrent_total (id : String) (hcalm : ∀ place, plan place = .none) :
    Total plan (fun _ => True) (switchCurrent id) fun _ _ => True := by
  unfold switchCurrent
  refine Total.andThen (Q := fun _ _ => True) ?_ fun _ => ?_
  · refine Total.bind (Q := fun _ _ => True) (Total.write (hcalm _) fun _ _ => trivial) fun _ => ?_
    refine Total.bind (Q := fun _ _ => True) (Total.write (hcalm _) fun _ _ => trivial) fun _ => ?_
    exact Total.probe (hcalm _) fun _ _ => trivial
  · refine Total.bind (Q := fun _ _ => True) (Total.read fun _ _ => trivial) fun left => ?_
    cases left with
    | true => exact Total.write (hcalm _) fun _ _ => trivial
    | false => exact Total.pure fun _ _ => trivial

theorem meets_of_calm {a : Attempt} (hfresh : Fresh host a.source a.build s)
    (hcalm : ∀ place, a.plan place = .none) : Meets host s a where
  fresh := hfresh
  claimed := claimsSafely hcalm
  staged _ _ _ _ := ⟨mended_of_calm hcalm _, fun _ _ _ => hcalm _,
    fun _ _ _ => mended_of_calm hcalm _⟩
  inspected _ _ _ _ := mended_of_calm hcalm _
  registered _ _ _ _ := mended_of_calm hcalm _
  committed _ _ _ _ := by
    unfold Commits
    split
    · exact fun place _ => hcalm place
    · intro hfault
      rw [hcalm] at hfault
      cases hfault

/-- Undisturbed, a run that the state allows publishes its release. -/
theorem again_succeeds {a : Attempt} (hs : Sound host s) (hallowed : Allowed a.action s)
    (haccepted : Accepted host a.source version) (hfresh : Fresh host a.source a.build s)
    (hcalm : ∀ place, a.plan place = .none) :
    ∃ installed u, (installOrUpgrade host a.action a.source a.build).run a.plan s =
        (.done installed, u) ∧ Ended host s u ∧ Done host a installed u := by
  have htotal : Total a.plan (fun t => t = s) (installOrUpgrade host a.action a.source a.build)
      fun _ _ => True := by
    have henter := (enter_total hs hallowed hcalm).and (enter_spec hs (claimsSafely hcalm))
    unfold installOrUpgrade
    refine Total.bind (henter.mono (fun _ h => ⟨h, h⟩) fun _ _ h => h.2.1) fun records => ?_
    intro b hclaimed
    have hprepare := prepareRelease_total (hfresh.claimed hclaimed) haccepted hcalm
    refine Total.bind hprepare (fun record => ?_) b
      ⟨⟨rfl, rfl, rfl, rfl, fun _ => rfl⟩, hclaimed.settled⟩
    refine Total.bind (Q := fun _ _ => True)
      (json_total ⟨rfl, rfl⟩ fun _ _ => hcalm _).onFailure fun _ => ?_
    refine (ensureLauncher_total fun place _ => hcalm place).bind fun _ => ?_
    exact (switchCurrent_total _ hcalm).bind fun _ => Total.pure fun _ _ => trivial
  have hspec := installOrUpgrade_spec hs (meets_of_calm hfresh hcalm)
  obtain ⟨installed, u, hrun, -, hended, hdone⟩ := (htotal.and hspec) s ⟨rfl, rfl⟩
  exact ⟨installed, u, hrun, hended, hdone⟩

end totals

/-! ## Runs of the installer -/

section attempts

variable {host : Host} {s t : Root} {a : Attempt}

theorem attempt_ended (hs : Sound host s) (hm : Meets host s a) :
    Ended host s ((installOrUpgrade host a.action a.source a.build).run a.plan s).2 :=
  Spec.final ((installOrUpgrade_spec hs hm).mono (fun _ h => h) (fun _ _ h => h.1) fun _ h => h)
    a.plan rfl

/-- A sound prefix stays sound. -/
theorem sound_attempt (hs : Sound host s) (hm : Meets host s a) :
    Sound host (attempt host s a) :=
  (attempt_ended hs hm).sound

theorem sound_fresh : Sound host fresh :=
  ⟨rfl, rfl, fun _ => ⟨rfl, fun _ => Dict.get_empty, rfl⟩, nofun⟩

/-- A launcher of a sound prefix resolves to a complete release. -/
theorem Sound.serves (h : Sound host s) (hlauncher : s.launcher = true) : Serves host s := by
  cases hmarker : s.marker with
  | none =>
      obtain ⟨-, -, hnone⟩ := h.unmarked hmarker
      rw [hlauncher] at hnone
      cases hnone
  | some records =>
      have howned := h.owned records hmarker
      obtain ⟨id, hid⟩ := Option.isSome_iff_exists.mp (howned.launched hlauncher)
      obtain ⟨record, hrecord, hsame⟩ := List.mem_map.mp (howned.known id hid)
      exact ⟨hlauncher, records, record, hmarker, hrecord, by rw [hid, hsame],
        howned.verified record hrecord⟩

theorem Ended.serves (h : Ended host s t) (hlauncher : t.launcher = true) : Serves host t := by
  obtain ⟨-, records, record, hmarker, hrecord, hcurrent, hverified⟩ := h.sound.serves hlauncher
  exact ⟨hlauncher, records, record, hmarker, hrecord, hcurrent, hverified⟩

/-- What is run again: an installation that has published its release is followed by an upgrade. -/
def Attempt.again (a : Attempt) (t : Root) : Action :=
  match a.action with
  | .install => if t.current.isSome then .upgrade else .install
  | .upgrade => .upgrade

/-- What a run leaves: the launcher stays and leads to a complete release, and the same run, or an
upgrade once a release is published, succeeds when nothing disturbs it. -/
structure Recovers (host : Host) (s : Root) (a : Attempt) (t : Root) : Prop where
  kept : s.launcher = true → t.launcher = true
  served : t.launcher = true → Serves host t
  again : ∀ version build, Accepted host a.source version → Allowed a.action s →
    Fresh host a.source build t →
      ∃ installed u, (installOrUpgrade host (a.again t) a.source build).run (fun _ => .none) t =
          (.done installed, u) ∧ u.current = some installed.release ∧
            installed.release = host.releaseId a.source build version ∧ Serves host u

theorem recovers_attempt (hs : Sound host s) (hm : Meets host s a) :
    Recovers host s a (attempt host s a) := by
  have hended := attempt_ended hs hm
  have hsound := sound_attempt hs hm
  refine ⟨hended.launcher, hsound.serves, ?_⟩
  intro version build haccepted hallowed hfresh
  have hnext : Allowed (a.again (attempt host s a)) (attempt host s a) := by
    unfold Attempt.again
    cases haction : a.action with
    | install =>
        by_cases hcurrent : (attempt host s a).current.isSome = true
        · simp [Allowed, hcurrent]
        · have hnone := Option.not_isSome_iff_eq_none.mp hcurrent
          simp [Allowed, hnone]
    | upgrade =>
        rw [haction] at hallowed
        exact hended.current hallowed
  obtain ⟨installed, u, hrun, hafter, hdone⟩ := again_succeeds
    (a := ⟨a.again (attempt host s a), a.source, build, fun _ => .none⟩) hsound hnext haccepted
      hfresh fun _ => rfl
  obtain ⟨other, hother, hrelease⟩ := hdone.release
  obtain rfl : version = other := Except.ok.inj (haccepted.smoked.symm.trans hother.smoked)
  exact ⟨installed, u, hrun, hdone.current, hrelease, hafter.serves hdone.launcher⟩

/-- In a run of the installer whose runs all meet the condition, every one of them recovers. -/
theorem recovers_run (hrun : Runs.LeadsBy (step host) (Meets host) fresh s) (hm : Meets host s a) :
    Recovers host s a (attempt host s a) := by
  refine recovers_attempt (hrun.invariant ?_ sound_fresh) hm
  intro u b v hu hb hv
  obtain rfl := Option.some.inj hv
  exact sound_attempt hu hb

end attempts

end Releases

/-! ## Both installers -/

/-- **What both installers recover from.**  In runs that are not cut off in the windows of
`Native.Meets` and `Releases.Meets`, the command leads to a complete release after every run, and
the same installation, or an upgrade once one is published, succeeds when nothing disturbs it. -/
theorem installs_recover (native : Native.Host) (links : String → Option Native.Entry)
    (disk : Native.Disk) (a : Native.Attempt) (host : Releases.Host) (root : Releases.Root)
    (b : Releases.Attempt) :
    (Runs.LeadsBy (Native.step native) (Native.Meets native) (Native.fresh links) disk →
      Native.Meets native disk a → Native.Recovers native disk a (Native.attempt native disk a)) ∧
    (Runs.LeadsBy (Releases.step host) (Releases.Meets host) Releases.fresh root →
      Releases.Meets host root b →
        Releases.Recovers host root b (Releases.attempt host root b)) :=
  ⟨fun hrun hm => Native.recovers_run hrun hm, fun hrun hm => Releases.recovers_run hrun hm⟩

/-- The way to a path without links leads through its directories. -/
def sampleThrough (path place : String) : Bool :=
  (place.toList ++ ['/']).isPrefixOf (path.toList ++ ['/'])

/-- One place where a native installation runs; a digest is the bytes, read as letters. -/
def sampleHost : Native.Host where
  root := "/p"
  binDir := "/b"
  binPlace := .outside
  home := "/h"
  through := sampleThrough
  through_refl _ := List.isPrefixOf_iff_prefix.mpr List.prefix_rfl
  legacyMarker := none
  sha256 bytes := String.ofList (bytes.map fun b => Char.ofNat b.toNat)

/-- An installation whose process is killed at one operation, if at all. -/
def sampleAttempt (b : UInt8) (killed : Option Native.Place) : Native.Attempt :=
  ⟨⟨"1", [b]⟩, false, fun place => if some place = killed then .stop else .none⟩

def sampleDisk : Native.Disk :=
  Native.attempt sampleHost (Native.fresh fun _ => none) (sampleAttempt 65 none)

theorem sampleThrough_apart (rest : String) :
    sampleThrough ("/p" ++ rest) "/b/codex-monitor" = false ∧
      sampleThrough "/b/codex-monitor" ("/p" ++ rest) = false := by
  simp [sampleThrough, String.toList_append, List.isPrefixOf]

theorem sample_apart (s : Native.Disk) : Native.Apart sampleHost false s := by
  refine ⟨⟨by decide, fun name file hfile => ?_⟩, nofun, nofun⟩
  obtain ⟨rest, rfl⟩ : ∃ rest, file = "/p" ++ rest := by
    simp only [Native.Host.files, Native.Host.releasePath, sampleHost, String.append_assoc,
      List.mem_cons, List.not_mem_nil, or_false] at hfile
    obtain rfl | rfl | rfl | rfl | rfl := hfile <;> exact ⟨_, rfl⟩
  exact sampleThrough_apart rest

/-- One place where the release installer runs. -/
def sampleReleases : Releases.Host where
  root := "/p"
  state := "/s"
  sha256 bytes := String.ofList (bytes.map fun b => Char.ofNat b.toNat)
  provenanceSha256 provenance := provenance.installedSha256
  smoke _ := .ok "1"

def sampleSource : Releases.Source := ⟨"/bin/x", [65], true, true, none⟩

/-- A run that makes up the name `name` and meets one fault, if any. -/
def sampleRun (action : Releases.Action) (name : String)
    (fault : Option (Releases.Place × Faults.Fault)) : Releases.Attempt where
  action := action
  source := sampleSource
  build := ⟨name ++ "s", "t", 0, "r" ++ name⟩
  plan place := (fault.map fun f => if place = f.1 then f.2 else .none).getD .none

def sampleRoot : Releases.Root :=
  Releases.attempt sampleReleases Releases.fresh (sampleRun .install "1" none)

/-- The name of a release ends as what a run makes up. -/
theorem releaseId_getLast (host : Releases.Host) (source : Releases.Source)
    (build : Releases.Build) (version : String) (h : build.releaseId.toList ≠ []) :
    (host.releaseId source build version).toList.getLast? = build.releaseId.toList.getLast? := by
  simp only [Releases.Host.releaseId, Releases.safeReleaseId, String.toList_append]
  rw [List.getLast?_append_of_ne_nil _ h]

/-- The names a sample run makes up are fresh when its release is. -/
theorem sample_fresh {s : Releases.Root} {build : Releases.Build}
    (hrelease : build.releaseId.toList ≠ [])
    (hapart : build.releaseId.toList.getLast? ≠ build.stage.toList.getLast?)
    (hnew : ∀ name : String, name = build.stage ∨
      name.toList.getLast? = build.releaseId.toList.getLast? → s.releases.get name = none) :
    Releases.Fresh sampleReleases sampleSource build s := by
  have hlast := fun version =>
    releaseId_getLast sampleReleases sampleSource build version hrelease
  refine ⟨hnew _ (.inl rfl), fun version => hnew _ (.inr (hlast version)), fun version h => ?_⟩
  have hname := hlast version
  rw [h] at hname
  exact hapart hname.symm

theorem sampleRoot_get {name : String} (hname : name ≠ "1-t-A-r1") :
    sampleRoot.releases.get name = none := by
  have hkeys : sampleRoot.releases.keys = ["1-t-A-r1"] := by decide
  cases hget : sampleRoot.releases.get name with
  | none => rfl
  | some release =>
      have hkey := Dict.mem_keys.mpr ⟨release, hget⟩
      rw [hkeys, List.mem_singleton] at hkey
      exact absurd hkey hname

theorem installs_recover_sample :
    Native.Recovers sampleHost sampleDisk (sampleAttempt 66 (some (.current .rename)))
        (Native.attempt sampleHost sampleDisk (sampleAttempt 66 (some (.current .rename)))) ∧
      Releases.Recovers sampleReleases sampleRoot (sampleRun .upgrade "2" (some (.switch, .stop)))
        (Releases.attempt sampleReleases sampleRoot
          (sampleRun .upgrade "2" (some (.switch, .stop)))) := by
  have hfirst : Runs.LeadsBy (Native.step sampleHost) (Native.Meets sampleHost)
      (Native.fresh fun _ => none) sampleDisk :=
    Relation.ReflTransGen.single ⟨sampleAttempt 65 none,
      ⟨sample_apart _, fun _ _ _ _ _ => rfl, fun _ _ _ _ _ => rfl⟩, rfl⟩
  have hmeets : Native.Meets sampleHost sampleDisk (sampleAttempt 66 (some (.current .rename))) := by
    refine ⟨sample_apart _, fun hnone => ?_, fun _ _ _ => ?_⟩
    · have hmarker : sampleDisk.marker.isSome = true := by decide
      rw [hnone] at hmarker
      cases hmarker
    · unfold Faults.Prog.Calm
      decide
  have hinstalled : Runs.LeadsBy (Releases.step sampleReleases) (Releases.Meets sampleReleases)
      Releases.fresh sampleRoot :=
    Relation.ReflTransGen.single ⟨sampleRun .install "1" none,
      Releases.meets_of_calm (sample_fresh (by decide) (by decide) fun _ _ => Dict.get_empty)
        fun _ => rfl, rfl⟩
  have hswitch : Releases.Meets sampleReleases sampleRoot
      (sampleRun .upgrade "2" (some (.switch, .stop))) := by
    have hcalm : ∀ places, Releases.Place.switch ∉ places →
        Faults.Prog.Calm (sampleRun .upgrade "2" (some (.switch, .stop))).plan places := by
      intro places hswitch place hplace
      show (if place = .switch then Faults.Fault.stop else .none) = .none
      rw [if_neg]
      intro heq
      exact hswitch (heq ▸ hplace)
    refine ⟨sample_fresh (by decide) (by decide) fun name hname => sampleRoot_get ?_,
      fun _ _ => (hcalm _ (by decide)).mended,
      fun _ _ _ _ => ⟨(hcalm _ (by decide)).mended, fun _ _ _ => rfl,
        fun _ _ _ => (hcalm _ (by decide)).mended⟩,
      fun _ _ _ _ => (hcalm _ (by decide)).mended, fun _ _ _ _ => (hcalm _ (by decide)).mended,
      fun _ _ _ _ => nofun⟩
    intro heq
    subst heq
    exact absurd hname (by decide)
  obtain ⟨hnative, hreleases⟩ := installs_recover sampleHost (fun _ => none) sampleDisk
    (sampleAttempt 66 (some (.current .rename))) sampleReleases sampleRoot
    (sampleRun .upgrade "2" (some (.switch, .stop)))
  exact ⟨hnative hfirst hmeets, hreleases hinstalled hswitch⟩

/-- The command's directory is one of the prefix. -/
def insideHost : Native.Host :=
  { sampleHost with binDir := "/p/bin", binPlace := .entry }

/-- The command's directory is the one of a legacy launcher, and no such launcher is there. -/
def adoptingHost : Native.Host :=
  { sampleHost with binDir := "/h/.local/share/codex-monitor/bin" }

/-- **An installation may be beyond recovery.**  Killed once it has its lock, or a directory for its
command in the prefix, a first installation refuses its own prefix; one that links its command as
the launcher of a legacy installation that it would adopt is not accepted again; killed before its
executable is made one, an update publishes it as it is; and an upgrade whose directory sync fails
removes the release that it has registered. -/
theorem installs_stuck :
    ((Native.install sampleHost ⟨"1", [65]⟩ false).run (fun _ => .none)
        (Native.attempt sampleHost (Native.fresh fun _ => none)
          (sampleAttempt 65 (some .takeLock)))).1.error? =
      some (.refused
        "Nonempty prefix is not owned by the native installer; select a new prefix") ∧
    ((Native.install insideHost ⟨"1", [65]⟩ false).run (fun _ => .none)
        (Native.attempt insideHost (Native.fresh fun _ => none)
          (sampleAttempt 65 (some .openLock)))).1.error? =
      some (.refused
        "Nonempty prefix is not owned by the native installer; select a new prefix") ∧
    (let first := (Native.install adoptingHost ⟨"1", [65]⟩ true).run (fun _ => .none)
        (Native.fresh fun _ => none)
     first.1.isDone = true ∧
       ((Native.install adoptingHost ⟨"1", [65]⟩ true).run (fun _ => .none)
         first.2.left).1.error? = some .io) ∧
    (let again := (Native.install sampleHost ⟨"1", [66]⟩ false).run (fun _ => .none)
        (Native.attempt sampleHost sampleDisk (sampleAttempt 66 (some .permissions)))
     again.1.isDone = true ∧ again.2.current = some "1-B" ∧
       again.2.executableOf "1-B" = some ⟨[66], false⟩) ∧
    sampleRoot.launcher = true ∧
    ((Releases.installOrUpgrade sampleReleases .upgrade sampleSource ⟨"3s", "t", 0, "r3"⟩).run
        (fun _ => .none) (Releases.attempt sampleReleases sampleRoot
          (sampleRun .upgrade "2" (some (.register .syncDir, .error))))).1.error? =
      some (.refused "release layout differs from ownership marker (missing: 1-t-A-r2)") := by
  decide +kernel

end Install

end CodexMonitor
