import CodexMonitor.Install.Native

/-!
# What the native installer recovers from

`Sound` says what every installation may count on, and `Going` what one keeps wherever it is.  A
sound prefix stays sound when a first installation is not cut off between the first thing it makes
there and its marker, and none is between the rename of its executable and its mode (`Meets`): the
marker comes last but the lock file, or a command's directory in the prefix, makes the prefix
foreign without it, and an executable that is there is compared but its mode is not.  From a sound
prefix the same installation, undisturbed, publishes its release: `sound_attempt`, `again_succeeds`.
-/

namespace CodexMonitor

namespace Install

namespace Native

open Faults (Fault Outcome Prog)
open Faults.Replace (Step Target writing)

/-! ## What an installation may find and leave -/

/-- A release that runs: its executable, in full and executable, under the name it gets from its
digest, with its manifest. -/
def Complete (host : Host) (s : Disk) (name : String) : Prop :=
  ∃ release x manifest, s.releases name = some release ∧ release.executable = some x ∧
    x.executable = true ∧ release.manifest = some manifest ∧
    manifest.sha256 = host.sha256 x.bytes ∧ name = host.releaseName manifest.version x.bytes

/-- The command resolves to a complete release. -/
def Serves (host : Host) (s : Disk) : Prop :=
  s.links host.target = some (.link host.currentCommand) ∧
    ∃ name, s.current = some name ∧ Complete host s name

/-- What the checks of an installation ask for. -/
structure Accepted (host : Host) (program : Program) (adopt : Bool) (s : Disk) : Prop where
  root : isAbsolute host.root = true
  binDir : isAbsolute host.binDir = true
  command : ∃ previous, previousCommand host adopt (s.links host.target) = .ok previous
  legacy : ∃ previous, legacyPrevious host adopt (s.links host.legacyLauncher) = .ok previous
  bytes : ∀ x, s.executableOf (host.name program) = some x → x.bytes = program.bytes

/-- What every installation may count on. -/
structure Sound (host : Host) (s : Disk) : Prop where
  unmarked : s.marker = none → s.occupied = false ∧ ∀ name, s.releases name = none
  settled : s.temporary = none
  runs : ∀ name x, s.executableOf name = some x → x.executable = true
  complete : ∀ name, s.current = some name → Complete host s name

/-- What an installation from `s₀` keeps wherever it is. -/
structure Going (host : Host) (program : Program) (s₀ s : Disk) : Prop where
  runs : ∀ name x, s.executableOf name = some x → x.executable = true
  complete : ∀ name, s.current = some name → Complete host s name
  marker : s₀.marker.isSome → s.marker.isSome
  current : s₀.current.isSome → s.current.isSome
  command : s.links host.target = s₀.links host.target ∨
    s.links host.target = some (.link host.currentCommand) ∧ s.current.isSome
  launcher : s.links host.legacyLauncher = s₀.links host.legacyLauncher ∨
    s.links host.legacyLauncher = some (.link host.currentCommand) ∧
      ((s₀.links host.legacyLauncher).isSome ∨ host.target = host.legacyLauncher)
  bytes : (∀ x, s₀.executableOf (host.name program) = some x → x.bytes = program.bytes) →
    ∀ x, s.executableOf (host.name program) = some x → x.bytes = program.bytes

section going

variable {host : Host} {program : Program} {s₀ s : Disk}

theorem Sound.going (h : Sound host s) : Going host program s s :=
  ⟨h.runs, h.complete, id, id, .inl rfl, .inl rfl, id⟩

@[simp] theorem setRelease_self (s : Disk) (name : String) (release : Release) :
    (s.setRelease name release).releases name = some release := by
  simp [Disk.setRelease]

@[simp] theorem setRelease_other {name other : String} (release : Release) (h : other ≠ name) :
    (s.setRelease name release).releases other = s.releases other := by
  simp [Disk.setRelease, h]

theorem executableOf_setRelease (name other : String) (release : Release) :
    (s.setRelease name release).executableOf other =
      if other = name then release.executable else s.executableOf other := by
  unfold Disk.executableOf
  by_cases h : other = name
  · subst h
    simp
  · simp [h]

theorem Complete.setRelease {name other : String} (h : Complete host s name) (release : Release)
    (hother : other ≠ name) : Complete host (s.setRelease other release) name := by
  obtain ⟨r, x, manifest, hr, hrest⟩ := h
  exact ⟨r, x, manifest, by rw [setRelease_other release (Ne.symm hother)]; exact hr, hrest⟩

/-- A release that `current` does not point to is changed. -/
theorem Going.setRelease {name : String} {release : Release} (h : Going host program s₀ s)
    (hcurrent : s.current = some name → Complete host (s.setRelease name release) name)
    (hruns : ∀ x, release.executable = some x → x.executable = true)
    (hbytes : name = host.name program → ∀ x, release.executable = some x →
      s.executableOf name = some x ∨ x.bytes = program.bytes) :
    Going host program s₀ (s.setRelease name release) where
  runs other x hx := by
    rw [executableOf_setRelease] at hx
    split at hx
    · exact hruns x hx
    · exact h.runs other x hx
  complete other hother := by
    by_cases heq : name = other
    · subst heq
      exact hcurrent hother
    · exact (h.complete other hother).setRelease release heq
  marker := h.marker
  current := h.current
  command := h.command
  launcher := h.launcher
  bytes hs x hx := by
    rw [executableOf_setRelease] at hx
    split at hx
    · rename_i heq
      obtain hkept | hnew := hbytes heq.symm x hx
      · exact h.bytes hs x (heq ▸ hkept)
      · exact hnew
    · exact h.bytes hs x hx

theorem Going.setTemporary (x : Option Content) (h : Going host program s₀ s) :
    Going host program s₀ (s.setTemporary x) :=
  ⟨h.runs, h.complete, h.marker, h.current, h.command, h.launcher, h.bytes⟩

theorem Going.left (h : Going host program s₀ s) : Going host program s₀ s.left :=
  ⟨h.runs, h.complete, h.marker, h.current, h.command, h.launcher, h.bytes⟩

theorem Going.makeBin (inside : Bool) (h : Going host program s₀ s) :
    Going host program s₀ (s.makeBin inside) :=
  ⟨h.runs, h.complete, h.marker, h.current, h.command, h.launcher, h.bytes⟩

theorem Going.lock (h : Going host program s₀ s) :
    Going host program s₀ { s with lockFile := true } :=
  ⟨h.runs, h.complete, h.marker, h.current, h.command, h.launcher, h.bytes⟩

theorem createRelease_isSome (name : String) (s : Disk) :
    ((createRelease name s).releases name).isSome := by
  unfold Native.createRelease
  split
  · rename_i hr
    simp [hr]
  · simp [Disk.setRelease]

theorem executableOf_createRelease (name other : String) (s : Disk) :
    (createRelease name s).executableOf other = s.executableOf other := by
  unfold Native.createRelease
  split
  · rfl
  · rename_i hr
    show (s.setRelease name ⟨none, none⟩).executableOf other = s.executableOf other
    rw [executableOf_setRelease]
    split
    · rename_i heq
      simp [Disk.executableOf, heq, hr]
    · rfl

theorem Going.createRelease (h : Going host program s₀ s) (name : String) :
    Going host program s₀ (createRelease name s) := by
  unfold Native.createRelease
  split
  · exact ⟨h.runs, h.complete, h.marker, h.current, h.command, h.launcher, h.bytes⟩
  · rename_i hnone
    have hset : Going host program s₀ (s.setRelease name ⟨none, none⟩) := by
      refine h.setRelease ?_ nofun nofun
      intro hcurrent
      obtain ⟨r, _, _, hr, -⟩ := h.complete name hcurrent
      rw [hnone] at hr
      cases hr
    exact ⟨hset.runs, hset.complete, hset.marker, hset.current, hset.command, hset.launcher,
      hset.bytes⟩

theorem Going.setCurrent {name : String} (h : Going host program s₀ s)
    (hname : Complete host s name) : Going host program s₀ { s with current := some name } where
  runs := h.runs
  complete other hother := by
    obtain rfl := Option.some.inj hother
    exact hname
  marker := h.marker
  current _ := rfl
  command := h.command.imp_right fun hlink => ⟨hlink.1, rfl⟩
  launcher := h.launcher
  bytes := h.bytes

/-- The command, or the launcher of a legacy installation that is there, is linked. -/
theorem Going.setLink {path : String} (h : Going host program s₀ s) (hcurrent : s.current.isSome)
    (hpath : path = host.target ∨ (s₀.links host.legacyLauncher).isSome) :
    Going host program s₀ (s.setLink path host.currentCommand) where
  runs := h.runs
  complete := h.complete
  marker := h.marker
  current := h.current
  command := by
    by_cases htarget : host.target = path
    · exact Or.inr ⟨by simp [Disk.setLink, htarget], hcurrent⟩
    · simpa [Disk.setLink, htarget] using h.command
  launcher := by
    by_cases hlauncher : host.legacyLauncher = path
    · refine Or.inr ⟨by simp [Disk.setLink, hlauncher], ?_⟩
      exact hpath.symm.imp_right fun htarget => htarget.symm.trans hlauncher.symm
    · simpa [Disk.setLink, hlauncher] using h.launcher
  bytes := h.bytes

theorem Going.marked (manifest : Manifest) (h : Going host program s₀ s) :
    Going host program s₀ { s with marker := some manifest } :=
  ⟨h.runs, h.complete, fun _ => rfl, h.current, h.command, h.launcher, h.bytes⟩

/-- The release has its executable. -/
def Placed (host : Host) (program : Program) (s : Disk) : Prop :=
  ∃ release, s.releases (host.name program) = some release ∧
    release.executable = some ⟨program.bytes, true⟩

@[simp] theorem setRelease_setRelease (s : Disk) (name : String) (r q : Release) :
    (s.setRelease name r).setRelease name q = s.setRelease name q := by
  simp [Disk.setRelease]

theorem setPermissions_setTemporary (name : String) (x : Option Content) (s : Disk) :
    setPermissions name (s.setTemporary x) = (setPermissions name s).setTemporary x := by
  cases hr : s.releases name with
  | none => simp [setPermissions, Disk.setTemporary, hr]
  | some release =>
      simp only [setPermissions, Disk.setTemporary, hr]
      rfl

/-- An executable that is written and made executable is in its place. -/
theorem Going.place (h : Going host program s₀ s)
    (hrelease : (s.releases (host.name program)).isSome)
    (hnone : s.executableOf (host.name program) = none) :
    Going host program s₀ (setPermissions (host.name program)
        ((executableFile (host.name program)).put (.bytes program.bytes) s)) ∧
      Placed host program (setPermissions (host.name program)
        ((executableFile (host.name program)).put (.bytes program.bytes) s)) := by
  obtain ⟨release, hr⟩ := Option.isSome_iff_exists.mp hrelease
  have hput : setPermissions (host.name program)
      ((executableFile (host.name program)).put (.bytes program.bytes) s) =
        s.setRelease (host.name program)
          { release with executable := some ⟨program.bytes, true⟩ } := by
    simp [executableFile, setPermissions, hr]
  rw [hput]
  refine ⟨h.setRelease ?_ ?_ ?_, _, setRelease_self _ _ _, rfl⟩
  · intro hcurrent
    obtain ⟨r, x, _, hr', hx, -⟩ := h.complete _ hcurrent
    simp [Disk.executableOf, hr', hx] at hnone
  · intro x hx
    obtain rfl := Option.some.inj hx
    rfl
  · intro _ x hx
    obtain rfl := Option.some.inj hx
    exact Or.inr rfl

end going

/-! ## The steps of an installation -/

section steps

open Faults.Prog

variable {host : Host} {program : Program} {s₀ : Disk}

/-- What does not depend on the temporary file. -/
def Steady (I : Disk → Prop) : Prop := ∀ s x, I s → I (s.setTemporary x)

theorem Steady.and {I J : Disk → Prop} (hI : Steady I) (hJ : Steady J) :
    Steady fun s => I s ∧ J s :=
  fun s x h => ⟨hI s x h.1, hJ s x h.2⟩

theorem going_steady : Steady (Going host program s₀) := fun _ x h => h.setTemporary x

/-- The files of an installation are written under the process's temporary file. -/
def Plain (target : Target Place Disk Content) : Prop :=
  target.temporary = Disk.temporary ∧ target.setTemporary = Disk.setTemporary

section write

variable {target : Target Place Disk Content} (content : Content) {I J : Disk → Prop}

theorem Plain.steady (h : Plain target) (hI : Steady I) : Faults.Replace.Steady target I := by
  intro s x hs
  rw [h.2]
  exact hI s x hs

theorem privateWrite_spec (h : Plain target) (hI : Steady I)
    (hput : ∀ s, I s → J (target.put content s)) (hJ : Steady J) :
    Spec I (privateWrite target content) (fun _ => J) (fun s => I s ∨ J s) :=
  Faults.Replace.replace_spec (h.steady hI) hput (h.steady hJ)

theorem privateWrite_total (plan : Place → Fault) (h : Plain target) (hI : Steady I)
    (hput : ∀ s, I s → J (target.put content s)) (hJ : Steady J)
    (hplan : ∀ step ∈ writing, plan (target.place step) = .none) :
    Total plan I (privateWrite target content) fun _ => J := by
  refine Faults.Replace.replace_total hplan (h.steady hI) hput (h.steady hJ) ?_
  intro s
  rw [h.1, h.2]
  rfl

theorem privateWrite_untouched {plan : Place → Fault} (h : Plain target) (hI : Steady I)
    (hplan : ¬ ∀ step ∈ Faults.Replace.replacing, plan (target.place step) = .none) :
    Spec I ((privateWrite target content).under plan) (fun _ _ => False) I :=
  Faults.Replace.replace_untouched hplan (h.steady hI)

theorem privateWrite_replaced {plan : Place → Fault} (h : Plain target) (hI : Steady I)
    (hput : ∀ s, I s → J (target.put content s)) (hJ : Steady J)
    (hplan : ∀ step ∈ Faults.Replace.replacing, plan (target.place step) = .none) :
    Spec I ((privateWrite target content).under plan) (fun _ => J) J :=
  Faults.Replace.replace_replaced hplan (h.steady hI) hput (h.steady hJ)

end write

/-- The executable is placed, or nothing of it is seen: not when the process is cut off between
its rename and its mode. -/
theorem placeExecutable_spec {plan : Place → Fault}
    (hcut : s₀.executableOf (host.name program) = none →
      (∀ step ∈ Faults.Replace.replacing, plan (.executable step) = .none) →
        plan (.executable .syncDir) = .none ∧ plan .permissions = .none) :
    Spec (fun s => Going host program s₀ s ∧ (s.releases (host.name program)).isSome ∧
        s.executableOf (host.name program) = s₀.executableOf (host.name program))
      ((placeExecutable host program).under plan)
      (fun _ s => Going host program s₀ s ∧ Placed host program s) (Going host program s₀) := by
  unfold placeExecutable
  rw [under_bind]
  refine ((Spec.read _).under plan).bind fun existing => ?_
  cases existing with
  | some x =>
      refine Spec.under ?_ plan
      refine Spec.bind (Q := fun _ s => (Going host program s₀ s ∧
        (s.releases (host.name program)).isSome ∧
          s.executableOf (host.name program) = s₀.executableOf (host.name program)) ∧
            s.executableOf (host.name program) = some x)
        (Spec.write (fun s hs => hs) fun s hs => hs.1.1) fun _ => ?_
      refine (Spec.bailIf fun s hs => hs.1.1).mono (fun _ hs => hs) ?_ fun _ hs => hs
      intro _ s hs
      obtain ⟨⟨⟨hgoing, hrelease, -⟩, hx⟩, hbytes⟩ := hs
      obtain ⟨release, hr⟩ := Option.isSome_iff_exists.mp hrelease
      refine ⟨hgoing, release, hr, ?_⟩
      have hx' : release.executable = some x := by simpa [Disk.executableOf, hr] using hx
      have hruns := hgoing.runs _ _ hx
      have hsame : x.bytes = program.bytes := not_not.mp hbytes
      rw [hx', ← hsame, ← hruns]
  | none =>
      have hplain : Plain (executableFile (host.name program)) := ⟨rfl, rfl⟩
      have hI : Steady fun s => Going host program s₀ s ∧
          (s.releases (host.name program)).isSome ∧ s.executableOf (host.name program) = none :=
        fun s x hs => ⟨hs.1.setTemporary x, hs.2⟩
      suffices hwrite : s₀.executableOf (host.name program) = none →
          Spec (fun s => Going host program s₀ s ∧ (s.releases (host.name program)).isSome ∧
              s.executableOf (host.name program) = none)
            ((privateWrite (executableFile (host.name program)) (.bytes program.bytes) >>= fun _ =>
              Prog.write .permissions .io (setPermissions (host.name program))).under plan)
            (fun _ s => Going host program s₀ s ∧ Placed host program s)
            (Going host program s₀) by
        refine (Spec.given hwrite).mono ?_ (fun _ _ hs => hs) fun _ hs => hs
        intro s hs
        obtain ⟨⟨hgoing, hrelease, hsame⟩, hnone⟩ := hs
        exact ⟨⟨hgoing, hrelease, hnone⟩, hsame ▸ hnone⟩
      intro hnone
      by_cases hcalm : ∀ step ∈ Faults.Replace.replacing, plan (.executable step) = .none
      · -- the new file is not left without its mode
        obtain ⟨hsync, hmode⟩ := hcut hnone hcalm
        have hwritten := privateWrite_total (.bytes program.bytes) plan
          (J := fun s => Going host program s₀ (setPermissions (host.name program) s) ∧
            Placed host program (setPermissions (host.name program) s)) hplain hI
          (fun s hs => hs.1.place hs.2.1 hs.2.2) ?_ ?_
        · exact (hwritten.bind fun _ => Total.write hmode fun s hs => hs).spec
        · intro s x hs
          rw [setPermissions_setTemporary]
          exact ⟨hs.1.setTemporary x, hs.2⟩
        · simp only [writing, List.forall_mem_cons]
          simp only [Faults.Replace.replacing, List.forall_mem_cons] at hcalm
          exact ⟨hcalm.1, hcalm.2.1, hcalm.2.2.1, hcalm.2.2.2.1, hsync, List.forall_mem_nil _⟩
      · rw [under_bind]
        refine Spec.bind (Q := fun _ _ => False) ?_ fun _ _ _ hs => hs.elim
        exact (privateWrite_untouched _ hplain hI hcalm).mono (fun _ hs => hs) (fun _ _ hs => hs)
          fun _ hs => hs.1

theorem atomicLink_spec (place : LinkStep → Place) (target : String) {put : Disk → Disk}
    {I J : Disk → Prop} (hI : Steady I) (hJ : Steady J) (hput : ∀ s, I s → J (put s)) :
    Spec I (atomicLink place target put) (fun _ => J) I := by
  unfold atomicLink
  refine (Spec.write (fun s hs => hI s _ hs) fun _ hs => hs).bind fun _ => ?_
  exact Spec.write (fun s hs => hJ _ _ (hput s hs)) fun _ hs => hs

/-- The release is complete and current. -/
def Current (host : Host) (program : Program) (s : Disk) : Prop :=
  Complete host s (host.name program) ∧ s.current = some (host.name program)

def Published (host : Host) (program : Program) (s : Disk) : Prop :=
  Current host program s ∧ s.links host.target = some (.link host.currentCommand)

theorem writeManifest_spec (previous legacy : Option String) :
    Spec (fun s => Going host program s₀ s ∧ Placed host program s)
      (privateWrite (manifestFile (host.name program))
        (.manifest (manifestOf host program previous legacy)))
      (fun _ s => Going host program s₀ s ∧ Complete host s (host.name program))
      (Going host program s₀) := by
  refine (privateWrite_spec (I := fun s => Going host program s₀ s ∧ Placed host program s)
    (J := fun s => Going host program s₀ s ∧ Complete host s (host.name program)) _ ⟨rfl, rfl⟩
    (going_steady.and fun _ _ h => h) ?_ (going_steady.and fun _ _ h => h)).mono
      (fun _ hs => hs) (fun _ _ hs => hs) fun _ hs => hs.elim And.left And.left
  intro s hs
  obtain ⟨hgoing, release, hr, hx⟩ := hs
  have hput : (manifestFile (host.name program)).put
      (.manifest (manifestOf host program previous legacy)) s =
        s.setRelease (host.name program)
          { release with manifest := some (manifestOf host program previous legacy) } := by
    simp [manifestFile, hr]
  rw [hput]
  have hcomplete : Complete host (s.setRelease (host.name program)
      { release with manifest := some (manifestOf host program previous legacy) })
        (host.name program) :=
    ⟨_, _, _, setRelease_self _ _ _, hx, rfl, rfl, rfl, rfl⟩
  refine ⟨hgoing.setRelease (fun _ => hcomplete) ?_ ?_, hcomplete⟩
  · intro x hx'
    rw [show release.executable = some x from hx'] at hx
    obtain rfl := Option.some.inj hx
    rfl
  · intro _ x hx'
    rw [show release.executable = some x from hx'] at hx
    obtain rfl := Option.some.inj hx
    exact Or.inr rfl

theorem linkCommand_spec (place : LinkStep → Place) (path : String)
    (hpath : path = host.target ∨ (s₀.links host.legacyLauncher).isSome) {P : Disk → Prop}
    (hsteady : Steady P)
    (hP : ∀ s : Disk, P s → (s.setLink path host.currentCommand).links host.target =
      some (.link host.currentCommand)) :
    Spec (fun s => (Going host program s₀ s ∧ Current host program s) ∧ P s)
      (atomicLink place host.currentCommand (Disk.setLink path host.currentCommand))
      (fun _ s => Going host program s₀ s ∧ Published host program s)
      (Going host program s₀) := by
  refine (atomicLink_spec place _ ((going_steady.and fun _ _ h => h).and hsteady)
    (J := fun s => Going host program s₀ s ∧ Published host program s)
    (going_steady.and fun _ _ h => h) ?_).mono (fun _ hs => hs) (fun _ _ hs => hs)
      fun _ hs => hs.1.1
  intro s hs
  have hcurrent : s.current.isSome := by simp [hs.1.2.2]
  exact ⟨hs.1.1.setLink hcurrent hpath, hs.1.2, hP s hs.2⟩

/-- Everything up to the last link keeps what was served, and links the command to the new
release when it is done. -/
theorem publish_spec {plan : Place → Fault} (previous legacy : Option String)
    (hlegacy : legacy.isSome → (s₀.links host.legacyLauncher).isSome)
    (hcut : s₀.executableOf (host.name program) = none →
      Calm plan [.openLock, .takeLock, .createRelease] →
        (∀ step ∈ Faults.Replace.replacing, plan (.executable step) = .none) →
          plan (.executable .syncDir) = .none ∧ plan .permissions = .none) :
    Spec (fun s => Going host program s₀ s ∧
        s.executableOf (host.name program) = s₀.executableOf (host.name program))
      ((publish host program previous legacy).under plan)
      (fun _ s => Going host program s₀ s ∧ Published host program s)
      (Going host program s₀) := by
  unfold publish
  rw [under_bind]
  refine Spec.bind (Spec.known (c := fun _ => plan .openLock = .none) ((Spec.write
    (Q := fun s => Going host program s₀ s ∧
      s.executableOf (host.name program) = s₀.executableOf (host.name program))
    (fun s hs => ⟨hs.1.lock, hs.2⟩) fun s hs => hs.1).under plan)
      fun s u t hrun => (write_done.mp hrun).1) fun _ => ?_
  refine Spec.given fun hopen => ?_
  rw [under_bind]
  refine Spec.bind (Spec.known (c := fun _ => plan .takeLock = .none) ((Spec.write
    (Q := fun s => Going host program s₀ s ∧
      s.executableOf (host.name program) = s₀.executableOf (host.name program))
    (fun s hs => hs) fun s hs => hs.1).under plan) fun s u t hrun => (write_done.mp hrun).1)
      fun _ => ?_
  refine Spec.given fun htake => ?_
  rw [under_bind]
  refine Spec.bind (Spec.known (c := fun _ => plan .createRelease = .none) ((Spec.write
    (Q := fun s => Going host program s₀ s ∧ (s.releases (host.name program)).isSome ∧
      s.executableOf (host.name program) = s₀.executableOf (host.name program))
    ?_ fun s hs => hs.1).under plan) fun s u t hrun => (write_done.mp hrun).1) fun _ => ?_
  · intro s hs
    exact ⟨hs.1.createRelease _, createRelease_isSome _ _,
      (executableOf_createRelease _ _ _).trans hs.2⟩
  refine Spec.given fun hcreate => ?_
  rw [under_bind]
  refine Spec.bind (placeExecutable_spec fun hnone hcalm => hcut hnone ?_ hcalm) fun _ => ?_
  · simp only [Calm, List.forall_mem_cons]
    exact ⟨hopen, htake, hcreate, nofun⟩
  refine Spec.under ?_ plan
  refine (writeManifest_spec previous legacy).bind fun _ => ?_
  refine Spec.bind (Q := fun _ s => Going host program s₀ s ∧ Current host program s)
    ((atomicLink_spec .current _ (going_steady.and fun _ _ h => h)
      (going_steady.and fun _ _ h => h) ?_).mono (fun _ hs => hs) (fun _ _ hs => hs)
        fun _ hs => hs.1) fun _ => ?_
  · intro s hs
    exact ⟨hs.1.setCurrent hs.2, hs.2, rfl⟩
  refine Spec.bind ((linkCommand_spec .command host.target (.inl rfl) (P := fun _ => True)
    (fun _ _ h => h) fun _ _ => by simp [Disk.setLink]).mono (fun _ hs => ⟨hs, trivial⟩)
      (fun _ _ hs => hs) fun _ hs => hs) fun _ => ?_
  split
  · rename_i hsome
    refine (linkCommand_spec .legacy host.legacyLauncher (.inr (hlegacy hsome))
      (P := fun s => s.links host.target = some (.link host.currentCommand)) (fun _ _ h => h)
      ?_).mono (fun s hs => ⟨⟨hs.1, hs.2.1⟩, hs.2.2⟩) (fun _ _ hs => hs) fun _ hs => hs
    intro s hs
    by_cases htarget : host.target = host.legacyLauncher
    · simp [Disk.setLink, htarget]
    · simpa [Disk.setLink, htarget] using hs
  · exact Spec.pure fun s hs => hs

/-- The operations of the checks. -/
def entering : List Place := [.readRoot, .readSource, .readCommand, .readLegacy, .createRoot]

/-- The operations up to the release. -/
def starting : List Place := [.createBinParent, .createBin, .openLock, .takeLock, .createRelease]

/-- What is known once the checks are done. -/
structure Entered (host : Host) (adopt : Bool) (s : Disk) (links : Option String × Option String) :
    Prop where
  root : isAbsolute host.root = true
  binDir : isAbsolute host.binDir = true
  command : previousCommand host adopt (s.links host.target) = .ok links.1
  legacy : legacyPrevious host adopt (s.links host.legacyLauncher) = .ok links.2

theorem enter_done {adopt : Bool} {plan : Place → Fault} {s t : Disk}
    {links : Option String × Option String}
    (h : (enter host adopt).run plan s = (.done links, t)) :
    Entered host adopt s links ∧ Calm plan entering := by
  unfold enter at h
  simp only [bind_done, bailIf_done, probe, write_done, read_done, ofExcept_done, pure_done] at h
  obtain ⟨_, _, ⟨hpaths, rfl⟩, _, _, ⟨hroot, rfl⟩, _, _, ⟨-, rfl⟩, _, _, ⟨-, rfl⟩, _, _,
    ⟨hsource, rfl⟩, _, _, ⟨hread, rfl⟩, _, _, ⟨rfl, rfl⟩, previous, _, ⟨hcommand, rfl⟩, _, _,
    ⟨hlegacy, rfl⟩, _, _, ⟨rfl, rfl⟩, legacy, _, ⟨hlauncher, rfl⟩, _, _, ⟨hcreate, rfl⟩, rfl,
    rfl⟩ := h
  simp only [not_or, Bool.not_eq_false] at hpaths
  refine ⟨⟨hpaths.1, hpaths.2, hcommand, hlauncher⟩, ?_⟩
  simp only [Calm, entering, List.forall_mem_cons]
  exact ⟨hroot, hsource, hread, hlegacy, hcreate, List.forall_mem_nil _⟩

theorem enter_keeps (I : Disk → Prop) (adopt : Bool) : Keeps I (enter host adopt) := by
  unfold enter
  refine (Keeps.bailIf _ _).bind fun _ => (Keeps.probe _ _).bind fun _ => (Keeps.read _).bind
    fun _ => (Keeps.bailIf _ _).bind fun _ => (Keeps.probe _ _).bind fun _ =>
    (Keeps.probe _ _).bind fun _ => (Keeps.read _).bind fun _ => (Keeps.ofExcept _).bind fun _ =>
    (Keeps.probe _ _).bind fun _ => (Keeps.read _).bind fun _ => (Keeps.ofExcept _).bind fun _ =>
    (Keeps.probe _ _).bind fun _ => Keeps.pure _

theorem enter_total {adopt : Bool} {plan : Place → Fault}
    (haccepted : Accepted host program adopt s₀) (howned : s₀.marker = none → s₀.occupied = false)
    (hcalm : Calm plan entering) :
    Total plan (fun s => s = s₀) (enter host adopt)
      fun links s => s = s₀ ∧ Entered host adopt s₀ links := by
  obtain ⟨previous, hcommand⟩ := haccepted.command
  obtain ⟨legacy, hlegacy⟩ := haccepted.legacy
  intro s hs
  subst hs
  refine ⟨(previous, legacy), s, ?_, rfl, haccepted.root, haccepted.binDir, hcommand, hlegacy⟩
  have hplace : ∀ place ∈ entering, plan place = .none := hcalm
  have hforeign : (s.marker.isNone && s.occupied) = false := by
    cases hmarker : s.marker with
    | none => simp [howned hmarker]
    | some manifest => rfl
  unfold enter
  simp only [bind_done, bailIf_done, probe, write_done, read_done, ofExcept_done, pure_done]
  refine ⟨(), s, ⟨by simp [haccepted.root, haccepted.binDir], rfl⟩, (), s,
    ⟨hplace _ (by decide), rfl⟩, _, s, ⟨rfl, rfl⟩, (), s, ⟨by simp [hforeign], rfl⟩, (), s,
    ⟨hplace _ (by decide), rfl⟩, (), s, ⟨hplace _ (by decide), rfl⟩, _, s, ⟨rfl, rfl⟩, previous, s,
    ⟨hcommand, rfl⟩, (), s, ⟨hplace _ (by decide), rfl⟩, _, s, ⟨rfl, rfl⟩, legacy, s,
    ⟨hlegacy, rfl⟩, (), s, ⟨hplace _ (by decide), rfl⟩, rfl, rfl⟩

theorem legacyPrevious_isSome {adopt : Bool} {entry : Option Entry} {legacy : Option String}
    (h : legacyPrevious host adopt entry = .ok legacy) (hsome : legacy.isSome) :
    adopt = true ∧ entry.isSome := by
  cases entry with
  | none =>
      obtain rfl := Except.ok.inj h
      cases hsome
  | some entry =>
      cases adopt with
      | false =>
          obtain rfl := Except.ok.inj h
          cases hsome
      | true => exact ⟨rfl, rfl⟩

theorem enter_spec (adopt : Bool) (plan : Place → Fault) :
    Spec (fun s => s = s₀) ((enter host adopt).under plan)
      (fun links s => s = s₀ ∧ Entered host adopt s₀ links ∧ Calm plan entering)
      (fun s => s = s₀) := by
  intro other s hs
  subst hs
  have hkept := ((@enter_keeps host (fun x => x = s) adopt).under plan) other s rfl
  rcases hrun : ((enter host adopt).under plan).run other s with ⟨links | e | _, t⟩ <;>
    rw [hrun] at hkept <;> obtain rfl := hkept
  · exact ⟨rfl, enter_done hrun⟩
  · rfl
  · rfl

theorem createBin_spec {I : Disk → Prop} {plan : Place → Fault}
    (hI : ∀ inside s, I s → I (s.makeBin inside)) :
    Spec I ((createBin host).under plan)
      (fun _ s => I s ∧ Calm plan [.createBinParent, .createBin]) I := by
  have hspec : Spec I (createBin host) (fun _ => I) I :=
    Spec.bind (Spec.write (Q := I) (fun s hs => hI _ s hs) fun _ hs => hs) fun _ =>
      Spec.write (fun s hs => hI _ s hs) fun _ hs => hs
  refine (hspec.under plan).known fun s _ t hrun => ?_
  simp only [createBin, bind_done, write_done] at hrun
  obtain ⟨_, _, ⟨hparent, -⟩, hbin, -⟩ := hrun
  simp only [Calm, List.forall_mem_cons]
  exact ⟨hparent, hbin, List.forall_mem_nil _⟩

/-- An installation keeps what was served, and has published its release when it is done. -/
theorem install_spec (program : Program) (adopt : Bool) (plan : Place → Fault) (hs : Sound host s₀)
    (hmode : s₀.executableOf (host.name program) = none → (∃ links, Entered host adopt s₀ links) →
      Calm plan (entering ++ starting ++ Faults.Replace.replacing.map .executable) →
        Calm plan [.executable .syncDir, .permissions]) :
    Spec (fun s => s = s₀) ((install host program adopt).under plan)
      (fun _ s => Going host program s₀ s ∧ Published host program s) (Going host program s₀) := by
  unfold install
  rw [under_bind]
  refine Spec.bind ((enter_spec adopt plan).mono (fun _ h => h) (fun _ _ h => h) ?_)
    fun links => ?_
  · intro s h
    rw [h]
    exact hs.going
  refine Spec.mono (P := fun s => (Going host program s₀ s ∧
    s.executableOf (host.name program) = s₀.executableOf (host.name program)) ∧
      (Entered host adopt s₀ links ∧ Calm plan entering)) (Spec.given fun hknown => ?_)
      (fun s h => ⟨by rw [h.1]; exact ⟨hs.going, rfl⟩, h.2⟩) (fun _ _ h => h) fun _ h => h
  obtain ⟨hentered, hcalm⟩ := hknown
  rw [under_bind]
  refine Spec.bind ((createBin_spec fun inside s hs => ⟨hs.1.makeBin inside, hs.2⟩).mono
    (fun _ hs => hs) (fun _ _ hs => hs) fun _ hs => hs.1) fun _ => Spec.given fun hbin => ?_
  rw [under_bind]
  refine Spec.bind (publish_spec links.1 links.2 ?_ ?_) fun _ => ?_
  · intro hsome
    exact (legacyPrevious_isSome hentered.legacy hsome).2
  · intro hnone hlock hfile
    have hplaces : Calm plan (entering ++ starting ++
        Faults.Replace.replacing.map .executable) := by
      intro place hplace
      have hstarting : starting = [.createBinParent, .createBin] ++
        [.openLock, .takeLock, .createRelease] := rfl
      simp only [hstarting, List.mem_append, List.mem_map] at hplace
      obtain (hplace | hplace | hplace) | ⟨step, hstep, rfl⟩ := hplace
      · exact hcalm place hplace
      · exact hbin place hplace
      · exact hlock place hplace
      · exact hfile step hstep
    have hrest := hmode hnone ⟨links, hentered⟩ hplaces
    exact ⟨hrest _ (by simp), hrest _ (by simp)⟩
  refine Spec.under ?_ plan
  refine Spec.bind (Q := fun _ s => Going host program s₀ s ∧ Published host program s)
    ((privateWrite_spec _ ⟨rfl, rfl⟩ (going_steady.and fun _ _ h => h) ?_
      (going_steady.and fun _ _ h => h)).mono (fun _ h => h) (fun _ _ h => h)
        fun _ h => h.elim And.left And.left) fun _ => Spec.pure fun s h => h
  exact fun s h => ⟨h.1.marked _, h.2⟩

/-! ### Installations that are not disturbed -/

theorem write_total {target : Target Place Disk Content} {content : Content}
    {plan : Place → Fault} (h : Plain target)
    (hplan : ∀ step ∈ writing, plan (target.place step) = .none) :
    Total plan (fun _ => True) (privateWrite target content) fun _ _ => True :=
  privateWrite_total content plan h (fun _ _ _ => trivial) (fun _ _ => trivial)
    (fun _ _ _ => trivial) hplan

theorem atomicLink_total {place : LinkStep → Place} {target : String} {put : Disk → Disk}
    {plan : Place → Fault} (hplan : ∀ step, plan (place step) = .none) :
    Total plan (fun _ => True) (atomicLink place target put) fun _ _ => True := by
  unfold atomicLink
  exact (Total.write (Q := fun _ _ => True) (hplan .create) fun _ _ => trivial).bind fun _ =>
    Total.write (hplan .rename) fun _ _ => trivial

theorem createBin_total {plan : Place → Fault} {I : Disk → Prop}
    (hcalm : Calm plan [.createBinParent, .createBin]) (hI : ∀ inside s, I s → I (s.makeBin inside)) :
    Total plan I (createBin host) fun _ => I :=
  (Total.write (Q := fun _ => I) (hcalm _ (by simp)) fun s hs => hI _ s hs).bind fun _ =>
    Total.write (hcalm _ (by simp)) fun s hs => hI _ s hs

/-- The plan lets the executable be placed: it compares the one that is there, or writes it. -/
def Places (host : Host) (program : Program) (plan : Place → Fault) (s : Disk) : Prop :=
  match s.executableOf (host.name program) with
  | some x => x.bytes = program.bytes ∧ plan .readExecutable = .none
  | none => (∀ step ∈ writing, plan (.executable step) = .none) ∧ plan .permissions = .none

theorem placeExecutable_total {plan : Place → Fault} :
    Total plan (Places host program plan) (placeExecutable host program) fun _ _ => True := by
  unfold placeExecutable
  refine Total.bind (Q := fun existing s => Places host program plan s ∧
    s.executableOf (host.name program) = existing) (Total.read fun s hs => ⟨hs, rfl⟩)
      fun existing => ?_
  intro s hs
  obtain ⟨hplaces, hexisting⟩ := hs
  unfold Places at hplaces
  rw [hexisting] at hplaces
  cases existing with
  | some x =>
      exact Total.bind (P := fun _ => True) (Q := fun _ _ => True)
        (Total.probe hplaces.2 fun _ _ => trivial)
        (fun _ => Total.bailIf (not_not.mpr hplaces.1) fun _ _ => trivial) s trivial
  | none =>
      exact (write_total ⟨rfl, rfl⟩ hplaces.1).bind (fun _ =>
        Total.write hplaces.2 fun _ _ => trivial) s trivial

theorem publish_total {plan : Place → Fault} (previous legacy : Option String)
    (hlock : Calm plan [.openLock, .takeLock, .createRelease])
    (hmanifest : ∀ step ∈ writing, plan (.manifest step) = .none)
    (hcurrent : ∀ step, plan (.current step) = .none)
    (hcommand : ∀ step, plan (.command step) = .none)
    (hlegacy : legacy.isSome → ∀ step, plan (.legacy step) = .none) :
    Total plan (Places host program plan) (publish host program previous legacy)
      fun _ _ => True := by
  unfold publish
  refine Total.bind (Q := fun _ => Places host program plan)
    (Total.write (hlock .openLock (by simp)) fun _ hs => hs) fun _ => ?_
  refine Total.bind (Q := fun _ => Places host program plan)
    (Total.probe (hlock .takeLock (by simp)) fun _ hs => hs) fun _ => ?_
  refine Total.bind (Q := fun _ => Places host program plan)
    (Total.write (hlock .createRelease (by simp)) fun s hs => ?_) fun _ => ?_
  · unfold Places
    rw [executableOf_createRelease]
    exact hs
  refine placeExecutable_total.bind fun _ => ?_
  refine (write_total ⟨rfl, rfl⟩ hmanifest).bind fun _ => ?_
  refine (atomicLink_total hcurrent).bind fun _ => ?_
  refine (atomicLink_total hcommand).bind fun _ => ?_
  split
  · rename_i hsome
    exact atomicLink_total (hlegacy hsome)
  · exact Total.pure fun _ _ => trivial

/-! ## Runs -/

/-- The operations up to the first that leaves something in the prefix: the one that makes the
directory of the command when that lies there, else the one that makes the lock file. -/
def claiming (host : Host) : List Place :=
  entering ++
    match host.binPlace with
    | .outside => [.createBinParent, .createBin, .openLock]
    | .entry => [.createBinParent, .createBin]
    | .below => [.createBinParent]

/-- The operations of a first installation up to the marker, the checks left out. -/
def firstPlaces (host : Host) (adopt : Bool) (s : Disk) : List Place :=
  starting ++ writing.map .executable ++ [.permissions] ++
    writing.map .manifest ++ [.current .create, .current .rename, .command .create,
      .command .rename] ++
    (if adopt = true ∧ (s.links host.legacyLauncher).isSome then
      [.legacy .create, .legacy .rename] else []) ++
    Faults.Replace.replacing.map .marker

/-- A link is beside the prefix and its files: it is none of them, and no way to one leads through
the other. -/
structure Beside (host : Host) (path : String) : Prop where
  root : host.through host.root path = false
  files : ∀ name, ∀ file ∈ host.files name,
    host.through file path = false ∧ host.through path file = false

/-- The links are not in the installation's own way, and a command that is linked where the
launcher of a legacy installation would be has a legacy installation that is ours. -/
structure Apart (host : Host) (adopt : Bool) (s : Disk) : Prop where
  command : Beside host host.target
  launcher : adopt = true →
    Beside host host.legacyLauncher ∧ host.through host.binDir host.legacyLauncher = false
  legacy : adopt = true → host.through host.target host.legacyLauncher = true →
    s.links host.legacyLauncher = none →
      ∃ previous, legacyPrevious host true (some (.link host.currentCommand)) = .ok previous

/-- The links are apart; a first installation is not cut off from the first thing that it leaves
in the prefix to its marker, and no installation is between the rename of its executable and its
mode. -/
structure Meets (host : Host) (s : Disk) (a : Attempt) : Prop where
  apart : Apart host a.adopt s
  first : s.marker = none → Accepted host a.program a.adopt s →
    Calm a.plan (claiming host) → Calm a.plan (firstPlaces host a.adopt s)
  mode : s.executableOf (host.name a.program) = none → Accepted host a.program a.adopt s →
    Calm a.plan (entering ++ starting ++ Faults.Replace.replacing.map .executable) →
      Calm a.plan [.executable .syncDir, .permissions]

theorem Entered.accepted {adopt : Bool} {links : Option String × Option String}
    (h : Entered host adopt s₀ links)
    (hbytes : ∀ x, s₀.executableOf (host.name program) = some x → x.bytes = program.bytes) :
    Accepted host program adopt s₀ :=
  ⟨h.root, h.binDir, ⟨_, h.command⟩, ⟨_, h.legacy⟩, hbytes⟩

/-- Where an installation is that is cut off before it leaves anything in the prefix. -/
theorem claiming_cut {plan : Place → Fault} (henter : Calm plan entering)
    (hcut : ¬ Calm plan (claiming host)) (hparent : plan .createBinParent = .none) :
    host.binPlace ≠ .below ∧ (plan .createBin = .none →
      host.binPlace = .outside ∧ plan .openLock ≠ .none) := by
  have hplaces : ∀ places, ¬ Calm plan (entering ++ places) → ¬ Calm plan places := by
    intro places hcut hcalm
    refine hcut fun place hplace => ?_
    exact (List.mem_append.mp hplace).elim (henter place) (hcalm place)
  cases hbin : host.binPlace with
  | outside =>
      have hrest := hplaces _ hcut
      refine ⟨nofun, fun hcreate => ⟨rfl, fun hopen => ?_⟩⟩
      simp [hbin, Calm, hparent, hcreate, hopen] at hrest
  | entry =>
      have hrest := hplaces _ hcut
      refine ⟨nofun, fun hcreate => ?_⟩
      simp [hbin, Calm, hparent, hcreate] at hrest
  | below =>
      have hrest := hplaces _ hcut
      simp [hbin, Calm, hparent] at hrest

theorem makeBin_false (s : Disk) : s.makeBin false = s := by
  simp [Disk.makeBin]

/-- A directory outside the prefix leaves it as it was, and so does one that is not made. -/
theorem makeBin_untouched {place : Place} {plan : Place → Fault} {inside : Bool}
    (hinside : plan place = .none → inside = false) :
    Spec (fun s => s = s₀) ((Prog.write place InstallError.io (Disk.makeBin inside)).under plan)
      (fun _ s => s = s₀ ∧ plan place = .none) (fun s => s = s₀) := by
  by_cases hplace : plan place = .none
  · refine (Spec.write (fun s hs => ⟨?_, hplace⟩) fun _ hs => hs).under plan
    rw [hinside hplace, makeBin_false]
    exact hs
  · exact (Spec.blocked hplace).mono (fun _ hs => hs) (fun _ _ hs => hs.elim) fun _ hs => hs

/-- A first installation that is cut off before it leaves anything in the prefix leaves it as it
was. -/
theorem install_untouched {adopt : Bool} {plan : Place → Fault}
    (hcut : ∀ links, Entered host adopt s₀ links → ¬ Calm plan (claiming host)) :
    Spec (fun s => s = s₀) ((install host program adopt).under plan) (fun _ _ => False)
      (fun s => s = s₀) := by
  unfold install
  rw [under_bind]
  refine (enter_spec adopt plan).bind fun links => Spec.given fun hknown => ?_
  obtain ⟨hentered, hcalm⟩ := hknown
  have hclaiming := claiming_cut hcalm (hcut links hentered)
  rw [under_bind]
  refine Spec.bind (Q := fun _ s => s = s₀ ∧ plan .openLock ≠ .none) ?_ fun _ =>
    Spec.given fun hopen => ?_
  · unfold createBin
    rw [under_bind]
    refine Spec.bind (makeBin_untouched fun hparent => ?_) fun _ => Spec.given fun hparent => ?_
    · exact decide_eq_false (hclaiming hparent).left
    · have houtside := (hclaiming hparent).right
      refine (makeBin_untouched fun hcreate => ?_).mono (fun _ hs => hs) ?_ fun _ hs => hs
      · simp [houtside hcreate]
      · exact fun _ s hs => ⟨hs.left, (houtside hs.right).right⟩
  rw [under_bind]
  refine Spec.bind (Q := fun _ _ => False) ?_ fun _ _ _ h => h.elim
  unfold publish
  rw [under_bind]
  refine Spec.bind (Q := fun _ _ => False) ?_ fun _ _ _ h => h.elim
  exact Spec.blocked hopen

/-- A first installation that is not cut off before its marker leaves one. -/
theorem install_marks {adopt : Bool} {plan : Place → Fault}
    (haccepted : Accepted host program adopt s₀) (hfree : s₀.occupied = false)
    (hnone : s₀.executableOf (host.name program) = none)
    (henter : Calm plan entering) (hfirst : Calm plan (firstPlaces host adopt s₀)) :
    Spec (fun s => s = s₀) ((install host program adopt).under plan) (fun _ s => s.marker.isSome)
      (fun s => s.marker.isSome) := by
  unfold install
  rw [under_bind]
  refine (enter_total haccepted (fun _ => hfree) henter).spec.bind fun links =>
    Spec.given fun hentered => ?_
  have hbin : Total plan (fun s => s.executableOf (host.name program) = none) (createBin host)
      fun _ s => s.executableOf (host.name program) = none := by
    refine createBin_total ?_ fun _ _ hs => hs
    simp only [Calm, List.forall_mem_cons]
    exact ⟨hfirst _ (by simp [firstPlaces, starting]), hfirst _ (by simp [firstPlaces, starting]),
      nofun⟩
  rw [under_bind]
  refine (hbin.spec.mono (fun s hs => by rw [hs, hnone]) (fun _ _ hs => hs) fun _ hs => hs).bind
    fun _ => ?_
  have hpublish : Total plan (Places host program plan)
      (publish host program links.1 links.2) fun _ _ => True := by
    refine publish_total links.1 links.2 ?_ ?_ ?_ ?_ ?_
    · simp only [Calm, List.forall_mem_cons]
      exact ⟨hfirst _ (by simp [firstPlaces, starting]), hfirst _ (by simp [firstPlaces, starting]),
        hfirst _ (by simp [firstPlaces, starting]), nofun⟩
    · intro step hstep
      exact hfirst _ (by simp [firstPlaces, hstep])
    · intro step
      cases step <;> exact hfirst _ (by simp [firstPlaces])
    · intro step
      cases step <;> exact hfirst _ (by simp [firstPlaces])
    · intro hsome step
      have hlauncher := legacyPrevious_isSome hentered.legacy hsome
      cases step <;> exact hfirst _ (by simp [firstPlaces, hlauncher])
  rw [under_bind]
  refine Spec.bind (Q := fun _ _ => True) (hpublish.spec.mono ?_ (fun _ _ _ => trivial)
    fun _ h => h) fun _ => ?_
  · intro s hs
    unfold Places
    rw [hs]
    exact ⟨fun step hstep => hfirst _ (by simp [firstPlaces, hstep]),
      hfirst _ (by simp [firstPlaces])⟩
  rw [under_bind]
  refine Spec.bind (Q := fun _ s => s.marker.isSome = true) (privateWrite_replaced _ ⟨rfl, rfl⟩
    (fun _ _ _ => trivial) (fun _ _ => rfl) (fun _ _ h => h) ?_) fun _ => Spec.pure fun _ h => h
  intro step hstep
  exact hfirst _ (by simp [firstPlaces, markerFile, hstep])

/-- Undisturbed, an installation that is accepted publishes its release. -/
theorem again_succeeds {adopt : Bool} (hs : Sound host s₀)
    (haccepted : Accepted host program adopt s₀) :
    ∃ installed u, (install host program adopt).run (fun _ => .none) s₀ = (.done installed, u) ∧
      Going host program s₀ u ∧ Published host program u := by
  have hcalm : ∀ places, Calm (fun _ : Place => Fault.none) places := fun _ _ _ => rfl
  have htotal : Total (fun _ => .none) (fun s => s = s₀) (install host program adopt)
      fun _ _ => True := by
    unfold install
    refine (enter_total haccepted (fun hnone => (hs.unmarked hnone).1) (hcalm _)).bind
      fun links => ?_
    refine Total.bind (Q := fun _ s => s.executableOf (host.name program) =
      s₀.executableOf (host.name program)) ((createBin_total (hcalm _) fun _ _ hs => hs).mono
        (fun s h => by rw [h.1]) fun _ _ h => h) fun _ => ?_
    refine Total.bind (Q := fun _ _ => True) ((publish_total links.1 links.2 (hcalm _)
      (fun _ _ => rfl) (fun _ => rfl) (fun _ => rfl) fun _ _ => rfl).mono ?_ fun _ _ h => h)
        fun _ => ?_
    · intro s h
      unfold Places
      rw [h]
      cases hx : s₀.executableOf (host.name program) with
      | some x => exact ⟨haccepted.bytes x hx, rfl⟩
      | none => exact ⟨fun _ _ => rfl, rfl⟩
    · exact (write_total ⟨rfl, rfl⟩ fun _ _ => rfl).bind fun _ => Total.pure fun _ _ => trivial
  have hspec := install_spec program adopt (fun _ => .none) hs
    fun _ _ _ => hcalm _
  obtain ⟨installed, u, hrun, -, hgoing, hpublished⟩ := (htotal.and hspec) s₀ ⟨rfl, rfl⟩
  exact ⟨installed, u, hrun, hgoing, hpublished⟩

end steps

section runs

open Faults.Prog

variable {host : Host} {s t : Disk} {a : Attempt}

theorem attempt_going (hs : Sound host s) (hm : Meets host s a) :
    Going host a.program s (attempt host s a) := by
  refine Going.left ?_
  have hspec := install_spec a.program a.adopt a.plan hs
    fun hnone hentered => ?_
  · exact (hspec.mono (fun _ h => h) (fun _ _ h => h.1) fun _ h => h).final a.plan rfl
  · obtain ⟨links, hentered⟩ := hentered
    refine hm.mode hnone (hentered.accepted ?_)
    simp [hnone]

/-- A sound prefix stays sound. -/
theorem sound_attempt (hs : Sound host s) (hm : Meets host s a) :
    Sound host (attempt host s a) := by
  have hgoing := attempt_going hs hm
  refine ⟨?_, rfl, hgoing.runs, hgoing.complete⟩
  intro hunmarked
  cases hmarker : s.marker with
  | some manifest =>
      have hmarked := hgoing.marker (by simp [hmarker])
      simp [hunmarked] at hmarked
  | none =>
      obtain ⟨hfree, hempty⟩ := hs.unmarked hmarker
      have hnone : s.executableOf (host.name a.program) = none := by
        simp [Disk.executableOf, hempty]
      by_cases hcut : ∃ links, Entered host a.adopt s links ∧ Calm a.plan (claiming host)
      · obtain ⟨links, hentered, hcalm⟩ := hcut
        have haccepted : Accepted host a.program a.adopt s := hentered.accepted (by simp [hnone])
        have hmarked : (attempt host s a).marker.isSome :=
          (install_marks haccepted hfree hnone hcalm.left (hm.first hmarker haccepted hcalm)).final
            a.plan rfl
        simp [hunmarked] at hmarked
      · have hsame : ((install host a.program a.adopt).run a.plan s).2 = s :=
          (Spec.mono (install_untouched fun links hentered hcalm => hcut ⟨links, hentered, hcalm⟩)
            (fun _ h => h) (fun _ _ h => h.elim) fun _ h => h).final a.plan rfl
        unfold attempt
        rw [hsame]
        refine ⟨?_, hempty⟩
        simpa [Disk.left, Disk.occupied, hs.settled] using hfree

theorem sound_fresh (links : String → Option Entry) : Sound host (fresh links) :=
  ⟨fun _ => ⟨rfl, fun _ => rfl⟩, rfl, nofun, nofun⟩

/-- What an installation accepted once, it accepts again. -/
theorem Going.accepted {program : Program} {adopt : Bool} (h : Going host program s t)
    (haccepted : Accepted host program adopt s) (hapart : Apart host adopt s) :
    Accepted host program adopt t := by
  refine ⟨haccepted.root, haccepted.binDir, ?_, ?_, h.bytes haccepted.bytes⟩
  · obtain hsame | ⟨hours, -⟩ := h.command
    · rw [hsame]
      exact haccepted.command
    · exact ⟨some host.currentCommand, by simp [hours, previousCommand]⟩
  · obtain hsame | ⟨hours, hthere⟩ := h.launcher
    · rw [hsame]
      exact haccepted.legacy
    · rw [hours]
      cases adopt with
      | false => exact ⟨none, rfl⟩
      | true =>
          obtain hnone | ⟨entry, hentry⟩ := Option.eq_none_or_eq_some (s.links host.legacyLauncher)
          · refine hapart.legacy rfl ?_ hnone
            rw [hthere.resolve_left (by simp [hnone])]
            exact host.through_refl _
          obtain ⟨previous, hprevious⟩ := haccepted.legacy
          refine ⟨some host.currentCommand, ?_⟩
          rw [hentry] at hprevious
          unfold legacyPrevious at hprevious ⊢
          cases hmarker : host.legacyMarker with
          | none => simp [hmarker] at hprevious
          | some marker =>
              cases entry with
              | other => simp [hmarker] at hprevious
              | link link =>
                  by_cases howner : marker.getStr "owner" = some "codex-monitor-local-installer"
                  · simp [howner]
                  · simp [hmarker, howner] at hprevious

/-- What an attempt leaves: the command that served still does, a command that was not ours is
untouched or serves, and the same installation succeeds when nothing disturbs it. -/
structure Recovers (host : Host) (s : Disk) (a : Attempt) (t : Disk) : Prop where
  served : Serves host s → Serves host t
  kept : t.links host.target = s.links host.target ∨ Serves host t
  again : Accepted host a.program a.adopt s →
    ∃ installed u, (install host a.program a.adopt).run (fun _ => .none) t = (.done installed, u) ∧
      u.current = some (host.name a.program) ∧ Serves host u

theorem recovers_attempt (hs : Sound host s) (hm : Meets host s a) :
    Recovers host s a (attempt host s a) := by
  have hgoing := attempt_going hs hm
  have hserves : (attempt host s a).links host.target = some (.link host.currentCommand) →
      (attempt host s a).current.isSome → Serves host (attempt host s a) := by
    intro hlink hcurrent
    obtain ⟨name, hname⟩ := Option.isSome_iff_exists.mp hcurrent
    exact ⟨hlink, name, hname, hgoing.complete name hname⟩
  refine ⟨?_, hgoing.command.imp_right fun h => hserves h.1 h.2, ?_⟩
  · intro hserved
    obtain ⟨hlink, name, hname, -⟩ := hserved
    refine hserves ?_ (hgoing.current (by simp [hname]))
    exact hgoing.command.elim (fun hsame => hsame.trans hlink) And.left
  · intro haccepted
    obtain ⟨installed, u, hrun, -, ⟨hcomplete, hcurrent⟩, hlink⟩ :=
      again_succeeds (sound_attempt hs hm) (hgoing.accepted haccepted hm.apart)
    exact ⟨installed, u, hrun, hcurrent, hlink, _, hcurrent, hcomplete⟩

/-- In a run whose installations all meet the condition, every one of them recovers. -/
theorem recovers_run {links : String → Option Entry}
    (hrun : Runs.LeadsBy (step host) (Meets host) (fresh links) s) (hm : Meets host s a) :
    Recovers host s a (attempt host s a) := by
  refine recovers_attempt (hrun.invariant ?_ (sound_fresh links)) hm
  intro u b v hu hb hv
  obtain rfl := Option.some.inj hv
  exact sound_attempt hu hb

end runs

end Native

end Install

end CodexMonitor
