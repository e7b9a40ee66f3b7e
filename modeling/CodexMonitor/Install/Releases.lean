import CodexMonitor.Lib.Dict
import CodexMonitor.Lib.Replace
import CodexMonitor.Install.Native

/-!
# The release installer

The installer that keeps releases registered in an ownership marker.  A copy of the binary is
staged among the releases, validated, renamed to its release directory and registered; then the
launcher is made and `current` is switched.  The next run refuses a prefix whose release directory
differs from the marker, and a marker with releases but without `current`.

What it reads back it wrote itself, so the checks of the marker's syntax pass and are left out; a
digest of a file is a function of what the file is written from.
-/

namespace CodexMonitor

namespace Install

namespace Releases

open Faults (Fault Outcome Prog)
open Faults.Replace (Step Target)

/-! ## The prefix -/

structure Executable where
  bytes : Bytes
  executable : Bool
deriving DecidableEq, Repr

structure Provenance where
  version : String
  source : String
  sourceSha256 : String
  installedSha256 : String
  validatedAt : Nat
deriving DecidableEq, Repr

structure Release where
  executable : Option Executable
  provenance : Option Provenance
deriving DecidableEq, Repr

/-- The record of a release in the marker. -/
structure Record where
  id : String
  version : String
  sha256 : String
  sourceSha256 : String
  validatedAt : Nat
  files : List (String × String)
deriving DecidableEq, Repr

/-- The content of a file that is written under a temporary name. -/
inductive Content
  | empty
  | marker (releases : List Record)
  | provenance (provenance : Provenance)
  | link (release : String)
deriving DecidableEq, Repr

/-- A prefix.  `current` and the launcher are links; the launcher always points into `current`. -/
structure Root where
  there : Bool
  marker : Option (List Record)
  hasReleases : Bool
  releases : Dict String Release
  current : Option String
  hasBin : Bool
  launcher : Bool
  /-- a service is installed -/
  service : Bool
  /-- the temporary file of the running process -/
  temporary : Option Content
  /-- a temporary file of an earlier process is left -/
  stray : Bool

def Root.occupied (s : Root) : Bool :=
  s.marker.isSome || s.hasReleases || s.current.isSome || s.hasBin || s.service || s.stray

/-- A prefix that is not there yet. -/
def fresh : Root := ⟨false, none, false, ∅, none, false, false, false, none, false⟩

/-- The process has ended; what it left of a temporary file has a name nobody uses again. -/
def Root.left (s : Root) : Root :=
  { s with temporary := none, stray := s.stray || s.temporary.isSome }

/-! ## One run -/

/-- Where the installer runs, the digests of files, and what a binary answers to `--version` and
`--help`: its version, or what is wrong with it. -/
structure Host where
  root : String
  state : String
  sha256 : Bytes → String
  provenanceSha256 : Provenance → String
  smoke : Bytes → Except String String

/-- The binary to install. -/
structure Source where
  path : String
  bytes : Bytes
  regular : Bool
  executable : Bool
  expectedSha256 : Option String
deriving DecidableEq, Repr

/-- The names and the time a run makes up. -/
structure Build where
  stageId : String
  time : String
  validatedAt : Nat
  releaseId : String
deriving DecidableEq, Repr

inductive Action
  | install
  | upgrade
deriving DecidableEq, Repr

def Action.text : Action → String
  | .install => "install"
  | .upgrade => "upgrade"

inductive InstallError
  | refused (message : String)
  | io
deriving DecidableEq, Repr

inductive Place
  | lock
  | createRoot
  | claim (step : Step)
  | readMarker
  | verify
  | checkSource
  | hashSource
  | createReleases
  | createStage
  | createStageBin
  | copy
  | permissions
  | hashCopy
  | smoke
  | provenance (step : Step)
  | publish
  | discardStage
  | syncReleases
  | inventory
  | discardRelease
  | register (step : Step)
  | unregister
  | createBin
  | linkLauncher
  | syncBin
  | linkCurrent
  | switch
  | syncRoot
  | unlinkCurrent
deriving DecidableEq, Repr

structure Installed where
  action : String
  root : String
  state : String
  version : String
  release : String
  sha256 : String
  executable : String
deriving DecidableEq, Repr

def Host.releasePath (host : Host) (id : String) : String := host.root ++ "/releases/" ++ id

def Build.stage (build : Build) : String := ".stage-" ++ build.stageId

/-- A character that stays in a release name. -/
def isReleaseChar (c : Char) : Bool :=
  c.isAlphanum || c = '.' || c = '+' || c = '-'

/-- `_safe_release_id`. -/
def safeReleaseId (build : Build) (version digest : String) : String :=
  String.ofList (version.toList.map fun c => if isReleaseChar c then c else '_') ++ "-" ++
    build.time ++ "-" ++ String.ofList (digest.toList.take 12) ++ "-" ++ build.releaseId

/-- `_inventory`. -/
def Release.inventory (host : Host) (release : Release) : List (String × String) :=
  (release.executable.map fun x => ("bin/codex-monitor-rs", host.sha256 x.bytes)).toList ++
    (release.provenance.map fun p => ("provenance.json", host.provenanceSha256 p)).toList

/-! ### Checks -/

/-- `_current_id`. -/
def currentId (host : Host) (s : Root) (records : List Record) :
    Except InstallError (Option String) :=
  match s.current with
  | none => .ok none
  | some id =>
      match records.filter fun record => record.id = id with
      | [_] =>
          match s.releases.get id with
          | some _ => .ok (some id)
          | none =>
              .error (.refused ("managed current release is missing or symlinked: " ++
                host.releasePath id))
      | _ => .error (.refused ("unknown owned release: " ++ id))

def sorted (names : List String) : List String := names.mergeSort fun a b => a ≤ b

def layoutDetail (actual known : List String) : String :=
  let missing := sorted (known.filter fun id => id ∉ actual)
  let extra := sorted (actual.filter fun id => id ∉ known)
  "; ".intercalate
    ((if missing = [] then [] else ["missing: " ++ ", ".intercalate missing]) ++
      (if extra = [] then [] else ["untracked: " ++ ", ".intercalate extra]))

/-- `_check_layout`. -/
def checkLayout (host : Host) (s : Root) (records : List Record) : Except InstallError Unit :=
  let known := records.map Record.id
  let actual := s.releases.keys
  if s.hasReleases = true ∧ ¬ ((∀ id ∈ actual, id ∈ known) ∧ ∀ id ∈ known, id ∈ actual) then
    .error (.refused ("release layout differs from ownership marker (" ++
      layoutDetail actual known ++ ")"))
  else
    match currentId host s records with
    | .error error => .error error
    | .ok _ => .ok ()

/-- The installed binary of a release that is what its record says. -/
def checkBinary (host : Host) (record : Record) (path : String) :
    Option Executable → Except InstallError Unit
  | none => .error (.refused ("release binary is missing or symlinked: " ++ path))
  | some x =>
      if host.sha256 x.bytes ≠ record.sha256 then
        .error (.refused ("release binary SHA256 does not match provenance: " ++ path))
      else if x.executable = false then
        .error (.refused ("binary is not executable: " ++ path))
      else
        match host.smoke x.bytes with
        | .error message => .error (.refused message)
        | .ok version =>
            if version ≠ record.version then
              .error (.refused ("release version does not match provenance: " ++ path))
            else .ok ()

/-- `_verify_release`. -/
def verifyRelease (host : Host) (s : Root) (record : Record) : Except InstallError Unit :=
  let path := host.releasePath record.id
  match s.releases.get record.id with
  | none => .error (.refused ("owned release is missing or symlinked: " ++ path))
  | some release =>
      if release.inventory host ≠ record.files then
        .error (.refused ("release was modified or has untracked files: " ++ path))
      else
        match release.provenance with
        | none => .error (.refused ("cannot read release provenance: " ++ path ++
            "/provenance.json"))
        | some provenance =>
            if provenance.version ≠ record.version ∨
                provenance.installedSha256 ≠ record.sha256 ∨
                  provenance.sourceSha256 ≠ record.sourceSha256 then
              .error (.refused ("release provenance does not match its ownership record: " ++ path))
            else checkBinary host record (path ++ "/bin/codex-monitor-rs") release.executable

/-- The record of `current`. -/
def currentRecord (records : List Record) (id : String) : Except InstallError Record :=
  match records.filter fun record => record.id = id with
  | [record] => .ok record
  | _ => .error (.refused ("unknown owned release: " ++ id))

/-- What is refused for the state of the prefix. -/
def checkAction (action : Action) (records : List Record) (current : Option String) :
    Except InstallError Unit :=
  match action, current with
  | .install, some _ => .error (.refused "Rust runtime is already installed; use upgrade")
  | .install, none =>
      if records ≠ [] then
        .error (.refused
          "prefix contains owned releases without a current pointer; refusing implicit adoption")
      else .ok ()
  | .upgrade, none => .error (.refused "Rust runtime is not installed; use install")
  | .upgrade, some _ => .ok ()

def checkSource (source : Source) : Except InstallError Unit :=
  if source.regular = false then
    .error (.refused ("binary must be a regular file: " ++ source.path))
  else if source.executable = false then
    .error (.refused ("binary is not executable: " ++ source.path))
  else .ok ()

def checkExpected (host : Host) (source : Source) : Except InstallError Unit :=
  match source.expectedSha256 with
  | some expected =>
      if host.sha256 source.bytes ≠ expected then
        .error (.refused "binary SHA256 does not match --sha256")
      else .ok ()
  | none => .ok ()

def smoke (host : Host) (bytes : Bytes) : Except InstallError String :=
  match host.smoke bytes with
  | .ok version => .ok version
  | .error message => .error (.refused message)

/-! ### Operations -/

abbrev Run := Prog Place Root InstallError

/-- A check of the state. -/
def check {α : Type} (f : Root → Except InstallError α) : Run α := do
  let result ← Prog.read f
  Prog.ofExcept result

def Root.setTemporary (x : Option Content) (s : Root) : Root := { s with temporary := x }

def Root.setRelease (s : Root) (name : String) (release : Release) : Root :=
  { s with releases := s.releases.set name release }

/-- The marker, written at the claim of the prefix or at a registration. -/
def markerFile (place : Step → Place) : Target Place Root Content where
  place := place
  temporary := Root.temporary
  setTemporary := Root.setTemporary
  put content s :=
    match content with
    | .marker records => { s with marker := some records }
    | _ => s

def provenanceFile (stage : String) : Target Place Root Content where
  place := .provenance
  temporary := Root.temporary
  setTemporary := Root.setTemporary
  put content s :=
    match content, s.releases.get stage with
    | .provenance provenance, some release =>
        s.setRelease stage { release with provenance := some provenance }
    | _, _ => s

/-- `_atomic_json`; giving the temporary file its mode counts as part of its sync. -/
def atomicJson (target : Target Place Root Content) (content : Content) : Run Unit :=
  Faults.Replace.replace target .io .empty content

/-- The marker that is there is read; a prefix without one is claimed. -/
def readOrClaim (host : Host) : Option (List Record) → Run (List Record)
  | some records => do
      Prog.probe .readMarker .io
      pure records
  | none => do
      let occupied ← Prog.read Root.occupied
      Prog.bailIf (occupied = true)
        (.refused ("refusing to claim non-empty unowned prefix: " ++ host.root))
      atomicJson (markerFile .claim) (.marker [])
      pure []

def openRoot : Run Unit := do
  let there ← Prog.read Root.there
  if there then pure () else Prog.write .createRoot .io fun s => { s with there := true }

/-- `_claim_or_read`. -/
def claimOrRead (host : Host) : Run (List Record) := do
  openRoot
  let marker ← Prog.read Root.marker
  readOrClaim host marker

/-- `_remove_tree` of a directory that is there. -/
def removeTree (place : Place) (name : String) : Run Unit := do
  let there ← Prog.read fun s => (s.releases.get name).isSome
  if there then Prog.write place .io fun s => { s with releases := s.releases.erase name }
  else pure ()

def Root.change (s : Root) (name : String) (f : Release → Release) : Root :=
  match s.releases.get name with
  | some release => s.setRelease name (f release)
  | none => s

/-- The binary is copied into the stage and answers with its version. -/
def copyBinary (host : Host) (source : Source) (build : Build) : Run String := do
  Prog.write .createStage .io fun s => s.setRelease build.stage ⟨none, none⟩
  Prog.probe .createStageBin .io
  Prog.write .copy .io fun s =>
    s.change build.stage fun release => { release with executable := some ⟨source.bytes, false⟩ }
  Prog.write .permissions .io fun s =>
    s.change build.stage fun release =>
      { release with executable := release.executable.map fun x =>
          { x with executable := source.executable } }
  Prog.probe .hashCopy .io
  Prog.probe .smoke .io
  Prog.ofExcept (smoke host source.bytes)

def Host.provenance (host : Host) (source : Source) (build : Build) (version : String) :
    Provenance where
  version := version
  source := source.path
  sourceSha256 := host.sha256 source.bytes
  installedSha256 := host.sha256 source.bytes
  validatedAt := build.validatedAt

def Host.releaseId (host : Host) (source : Source) (build : Build) (version : String) : String :=
  safeReleaseId build version (host.sha256 source.bytes)

/-- The stage is renamed to its release; an id that is taken is refused. -/
def publishStage (host : Host) (source : Source) (build : Build) (version : String) :
    Run Unit := do
  atomicJson (provenanceFile build.stage) (.provenance (host.provenance source build version))
  let taken ← Prog.read fun s => (s.releases.get (host.releaseId source build version)).isSome
  Prog.bailIf (taken = true)
    (.refused ("release id already exists: " ++ host.releaseId source build version))
  Prog.write .publish .io fun s =>
    match s.releases.get build.stage with
    | some release =>
        { s with releases :=
            (s.releases.erase build.stage).set (host.releaseId source build version) release }
    | none => s

/-- The stage is filled and published; answers with the version. -/
def fillStage (host : Host) (source : Source) (build : Build) : Run String := do
  let version ← copyBinary host source build
  publishStage host source build version
  pure version

/-- The record of a release that is published. -/
def inspectRelease (host : Host) (source : Source) (build : Build) (version : String) :
    Run Record := do
  Prog.probe .syncReleases .io
  Prog.probe .inventory .io
  let files ← Prog.read fun s =>
    ((s.releases.get (host.releaseId source build version)).map (Release.inventory host)).getD []
  pure ⟨host.releaseId source build version, version, host.sha256 source.bytes,
    host.sha256 source.bytes, build.validatedAt, files⟩

/-- `_prepare_release`: a stage is removed when it cannot be published, and a release when it
cannot be inspected. -/
def prepareRelease (host : Host) (source : Source) (build : Build) : Run Record := do
  Prog.probe .checkSource .io
  Prog.ofExcept (checkSource source)
  Prog.probe .hashSource .io
  Prog.ofExcept (checkExpected host source)
  Prog.write .createReleases .io fun s => { s with hasReleases := true }
  let version ← Prog.onFailure (fillStage host source build)
    (removeTree .discardStage build.stage)
  Prog.onFailure (inspectRelease host source build version)
    (removeTree .discardRelease (host.releaseId source build version))

/-- `_ensure_launcher`. -/
def ensureLauncher : Run Unit := do
  Prog.write .createBin .io fun s => { s with hasBin := true }
  let launcher ← Prog.read Root.launcher
  if launcher then pure ()
  else do
    Prog.write .linkLauncher .io fun s => { s with launcher := true }
    Prog.probe .syncBin .io

/-- `_switch_current`. -/
def switchCurrent (id : String) : Run Unit :=
  Prog.andThen (do
      Prog.write .linkCurrent .io (Root.setTemporary (some (.link id)))
      Prog.write .switch .io fun s => { s with current := some id, temporary := none }
      Prog.probe .syncRoot .io)
    (do
      let left ← Prog.read fun s => s.temporary.isSome
      if left then Prog.write .unlinkCurrent .io (Root.setTemporary none) else pure ())

/-- The release that is current is verified before another one is made. -/
def verifyCurrent (host : Host) (records : List Record) : Option String → Run Unit
  | some id => do
      let record ← Prog.ofExcept (currentRecord records id)
      Prog.probe .verify .io
      check fun s => verifyRelease host s record
  | none => pure ()

/-- The checks of a run, up to the preparation of its release. -/
def enter (host : Host) (action : Action) : Run (List Record) := do
  Prog.probe .lock (.refused "another installer is changing this prefix")
  let records ← claimOrRead host
  check fun s => checkLayout host s records
  let service ← Prog.read Root.service
  Prog.bailIf (service = true)
    (.refused ("refusing to " ++ action.text ++ " while a Rust service is installed; " ++
      "run service-stop then service-remove for " ++ host.root))
  let current ← check fun s => currentId host s records
  Prog.ofExcept (checkAction action records current)
  verifyCurrent host records current
  pure records

/-- `install_or_upgrade`: a release that could not be registered is removed. -/
def installOrUpgrade (host : Host) (action : Action) (source : Source) (build : Build) :
    Run Installed := do
  let records ← enter host action
  let record ← prepareRelease host source build
  Prog.onFailure (atomicJson (markerFile .register) (.marker (records ++ [record])))
    (removeTree .unregister record.id)
  ensureLauncher
  switchCurrent record.id
  pure ⟨match action with | .install => "installed" | .upgrade => "upgraded", host.root, host.state,
    record.version, record.id, record.sha256, host.root ++ "/bin/codex-monitor-rs"⟩

/-- One run: what it is asked to do, the binary, the names it makes up, and what happens to its
operations. -/
structure Attempt where
  action : Action
  source : Source
  build : Build
  plan : Place → Fault

def attempt (host : Host) (s : Root) (a : Attempt) : Root :=
  ((installOrUpgrade host a.action a.source a.build).run a.plan s).2.left

def step (host : Host) (s : Root) (a : Attempt) : Option Root := some (attempt host s a)

end Releases

end Install

end CodexMonitor
