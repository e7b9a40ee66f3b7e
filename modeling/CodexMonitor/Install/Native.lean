import Mathlib.Logic.Function.Basic
import CodexMonitor.Json
import CodexMonitor.Lib.Replace
import CodexMonitor.Lib.Runs

/-!
# The native installer

An executable installs itself: it puts a copy into a release directory, points `current` at the
release and the command at `current`, and writes the marker of an owned prefix last.  Every file
operation may fail, and the process may be killed there.

What an installation leaves behind is what the next one finds: `attempt` runs one with its faults
and drops what only the process itself knows.
-/

namespace CodexMonitor

namespace Install

abbrev Bytes : Type := List UInt8

namespace Native

open Faults (Fault Outcome Prog)
open Faults.Replace (Step Target)

/-! ## The disk -/

/-- What a directory entry outside the prefix is. -/
inductive Entry
  | link (target : String)
  /-- anything but a symbolic link -/
  | other
deriving DecidableEq, Repr

structure Executable where
  bytes : Bytes
  /-- its mode is 0755, no longer the 0600 it is written with -/
  executable : Bool
deriving DecidableEq, Repr

structure Manifest where
  version : String
  sha256 : String
  previousCommand : Option String
  legacyLauncherPrevious : Option String
  release : String
deriving DecidableEq, Repr

structure Release where
  executable : Option Executable
  manifest : Option Manifest
deriving DecidableEq, Repr

/-- The content of a file that is written under a temporary name. -/
inductive Content
  | empty
  | bytes (bytes : Bytes)
  | manifest (manifest : Manifest)
  | link (target : String)
deriving DecidableEq, Repr

/-- The prefix and the links outside it.  A release is known by the name of its directory, also
as what `current` points to. -/
structure Disk where
  lockFile : Bool
  /-- the command's directory lies in the prefix, and is made or begun -/
  hasBin : Bool
  hasReleases : Bool
  releases : String → Option Release
  current : Option String
  marker : Option Manifest
  links : String → Option Entry
  /-- the temporary file of the running process -/
  temporary : Option Content
  /-- a temporary file of an earlier process is left -/
  stray : Bool

/-- The prefix exists and is not empty. -/
def Disk.occupied (s : Disk) : Bool :=
  s.lockFile || s.hasBin || s.hasReleases || s.current.isSome || s.marker.isSome || s.stray

/-- A prefix that is not there yet, among the links that are. -/
def fresh (links : String → Option Entry) : Disk :=
  ⟨false, false, false, fun _ => none, none, none, links, none, false⟩

/-- The process has ended; what it left of a temporary file has a name nobody uses again. -/
def Disk.left (s : Disk) : Disk :=
  { s with temporary := none, stray := s.stray || s.temporary.isSome }

def Disk.setRelease (s : Disk) (name : String) (release : Release) : Disk :=
  { s with releases := Function.update s.releases name (some release) }

/-! ## One installation -/

/-- Where the directory of the command lies. -/
inductive BinPlace
  /-- outside the prefix, or the prefix itself -/
  | outside
  /-- an entry of the prefix -/
  | entry
  /-- further down in the prefix -/
  | below
deriving DecidableEq, Repr

/-- Where the installation runs, and the digest it uses. -/
structure Host where
  root : String
  binDir : String
  binPlace : BinPlace
  home : String
  /-- the way to the first path leads through the second, or ends there -/
  through : String → String → Bool
  through_refl : ∀ path, through path path = true
  /-- the marker of a legacy installation, if it can be read -/
  legacyMarker : Option Value
  sha256 : Bytes → String

/-- The executable that installs itself. -/
structure Program where
  version : String
  bytes : Bytes
deriving DecidableEq, Repr

def isAbsolute (path : String) : Bool := path.toList.head? = some '/'

def Host.target (host : Host) : String := host.binDir ++ "/codex-monitor"

def Host.currentCommand (host : Host) : String := host.root ++ "/current/bin/codex-monitor"

def Host.legacyLauncher (host : Host) : String :=
  host.home ++ "/.local/share/codex-monitor/bin/codex-monitor"

def Host.digest (host : Host) (program : Program) : String := host.sha256 program.bytes

def Host.releaseName (host : Host) (version : String) (bytes : Bytes) : String :=
  version ++ "-" ++ String.ofList ((host.sha256 bytes).toList.take 16)

def Host.name (host : Host) (program : Program) : String :=
  host.releaseName program.version program.bytes

def Host.releasePath (host : Host) (name : String) : String := host.root ++ "/releases/" ++ name

/-- The files of the prefix, among them those of a release. -/
def Host.files (host : Host) (name : String) : List String :=
  [host.root ++ "/install.lock", host.root ++ "/current", host.root ++ "/native-install.json",
    host.releasePath name ++ "/bin/codex-monitor", host.releasePath name ++ "/manifest.json"]

inductive LinkStep
  | create
  | rename
deriving DecidableEq, Repr

inductive Place
  | readRoot
  | readSource
  | readCommand
  | readLegacy
  | createRoot
  /-- the directories above the one of the command -/
  | createBinParent
  | createBin
  | openLock
  | takeLock
  | createRelease
  | readExecutable
  | executable (step : Step)
  | permissions
  | manifest (step : Step)
  | current (step : LinkStep)
  | command (step : LinkStep)
  | legacy (step : LinkStep)
  | marker (step : Step)
deriving DecidableEq, Repr

inductive InstallError
  | refused (message : String)
  | io
deriving DecidableEq, Repr

structure Installed where
  command : String
  release : String
  previousCommand : Option String
deriving DecidableEq, Repr

/-- The link of the command, if it is one the installer may replace. -/
def previousCommand (host : Host) (adopt : Bool) :
    Option Entry → Except InstallError (Option String)
  | none => .ok none
  | some .other => .error (.refused "Existing command is not an owned symlink")
  | some (.link link) =>
      if link ≠ host.currentCommand ∧ ¬ (adopt = true ∧ link = host.legacyLauncher) then
        .error (.refused "Existing command is foreign; explicit legacy adoption is required")
      else .ok (some link)

/-- The link of the legacy launcher, which is replaced when the legacy installation is adopted. -/
def legacyPrevious (host : Host) (adopt : Bool) :
    Option Entry → Except InstallError (Option String)
  | none => .ok none
  | some entry =>
      if adopt = false then .ok none
      else
        match host.legacyMarker with
        | none => .error .io
        | some marker =>
            match entry with
            | .link link =>
                if marker.getStr "owner" ≠ some "codex-monitor-local-installer" then
                  .error (.refused "Legacy launcher ownership is unverified")
                else .ok (some link)
            | .other => .error (.refused "Legacy launcher ownership is unverified")

def Disk.setTemporary (x : Option Content) (s : Disk) : Disk := { s with temporary := x }

/-- The release's executable, written with mode 0600. -/
def executableFile (name : String) : Target Place Disk Content where
  place := .executable
  temporary := Disk.temporary
  setTemporary := Disk.setTemporary
  put content s :=
    match content, s.releases name with
    | .bytes bytes, some release =>
        s.setRelease name { release with executable := some ⟨bytes, false⟩ }
    | _, _ => s

def manifestFile (name : String) : Target Place Disk Content where
  place := .manifest
  temporary := Disk.temporary
  setTemporary := Disk.setTemporary
  put content s :=
    match content, s.releases name with
    | .manifest manifest, some release =>
        s.setRelease name { release with manifest := some manifest }
    | _, _ => s

def markerFile : Target Place Disk Content where
  place := .marker
  temporary := Disk.temporary
  setTemporary := Disk.setTemporary
  put content s :=
    match content with
    | .manifest manifest => { s with marker := some manifest }
    | _ => s

def privateWrite (target : Target Place Disk Content) (content : Content) :
    Prog Place Disk InstallError Unit :=
  Faults.Replace.replace target .io .empty content

def Disk.setLink (path target : String) (s : Disk) : Disk :=
  { s with links := Function.update s.links path (some (.link target)) }

/-- A link is made under a temporary name, which is left when it is not renamed. -/
def atomicLink (place : LinkStep → Place) (target : String) (put : Disk → Disk) :
    Prog Place Disk InstallError Unit := do
  Prog.write (place .create) .io (Disk.setTemporary (some (.link target)))
  Prog.write (place .rename) .io fun s => (put s).setTemporary none

def createRelease (name : String) (s : Disk) : Disk :=
  match s.releases name with
  | some _ => { s with hasReleases := true }
  | none => { s.setRelease name ⟨none, none⟩ with hasReleases := true }

def setPermissions (name : String) (s : Disk) : Disk :=
  match s.releases name with
  | some release =>
      s.setRelease name { release with
        executable := release.executable.map fun x => { x with executable := true } }
  | none => s

/-- The executable of a release, if it is there. -/
def Disk.executableOf (s : Disk) (name : String) : Option Executable :=
  (s.releases name).bind Release.executable

/-- An executable that is there is compared and nothing else; its mode is not looked at. -/
def placeExecutable (host : Host) (program : Program) :
    Prog Place Disk InstallError Unit := do
  let existing ← Prog.read fun s => s.executableOf (host.name program)
  match existing with
  | some executable =>
      Prog.probe .readExecutable .io
      Prog.bailIf (executable.bytes ≠ program.bytes) (.refused "Existing release digest mismatch")
  | none =>
      privateWrite (executableFile (host.name program)) (.bytes program.bytes)
      Prog.write .permissions .io (setPermissions (host.name program))

/-- The checks, and the prefix; the reads of one check are one operation. -/
def enter (host : Host) (adopt : Bool) :
    Prog Place Disk InstallError (Option String × Option String) := do
  Prog.bailIf (isAbsolute host.root = false ∨ isAbsolute host.binDir = false)
    (.refused "Install paths must be absolute")
  Prog.probe .readRoot .io
  let foreign ← Prog.read fun s => s.marker.isNone && s.occupied
  Prog.bailIf (foreign = true)
    (.refused "Nonempty prefix is not owned by the native installer; select a new prefix")
  Prog.probe .readSource .io
  Prog.probe .readCommand .io
  let command ← Prog.read fun s => s.links host.target
  let previous ← Prog.ofExcept (previousCommand host adopt command)
  Prog.probe .readLegacy .io
  let launcher ← Prog.read fun s => s.links host.legacyLauncher
  let legacy ← Prog.ofExcept (legacyPrevious host adopt launcher)
  Prog.probe .createRoot .io
  pure (previous, legacy)

/-- A directory is made, in the prefix or elsewhere. -/
def Disk.makeBin (inside : Bool) (s : Disk) : Disk := { s with hasBin := s.hasBin || inside }

/-- The directory of the command: in a prefix that it lies in, it is the first thing there. -/
def createBin (host : Host) : Prog Place Disk InstallError Unit := do
  Prog.write .createBinParent .io (Disk.makeBin (host.binPlace = .below))
  Prog.write .createBin .io (Disk.makeBin (host.binPlace ≠ .outside))

def manifestOf (host : Host) (program : Program) (previous legacy : Option String) : Manifest where
  version := program.version
  sha256 := host.digest program
  previousCommand := previous
  legacyLauncherPrevious := legacy
  release := host.releasePath (host.name program)

/-- From the lock to the last link. -/
def publish (host : Host) (program : Program) (previous legacy : Option String) :
    Prog Place Disk InstallError Unit := do
  Prog.write .openLock .io fun s => { s with lockFile := true }
  Prog.probe .takeLock (.refused "another process holds the state lock")
  Prog.write .createRelease .io (createRelease (host.name program))
  placeExecutable host program
  privateWrite (manifestFile (host.name program))
    (.manifest (manifestOf host program previous legacy))
  atomicLink .current (host.releasePath (host.name program))
    fun s => { s with current := some (host.name program) }
  atomicLink .command host.currentCommand (Disk.setLink host.target host.currentCommand)
  if legacy.isSome then
    atomicLink .legacy host.currentCommand (Disk.setLink host.legacyLauncher host.currentCommand)
  else pure ()

def install (host : Host) (program : Program) (adopt : Bool) :
    Prog Place Disk InstallError Installed := do
  let links ← enter host adopt
  createBin host
  publish host program links.1 links.2
  privateWrite markerFile (.manifest (manifestOf host program links.1 links.2))
  pure ⟨host.target, host.releasePath (host.name program), links.1⟩

/-- One installation: the executable, whether it adopts a legacy installation, and what happens
to its operations. -/
structure Attempt where
  program : Program
  adopt : Bool
  plan : Place → Fault

def attempt (host : Host) (s : Disk) (a : Attempt) : Disk :=
  ((install host a.program a.adopt).run a.plan s).2.left

def step (host : Host) (s : Disk) (a : Attempt) : Option Disk := some (attempt host s a)

end Native

end Install

end CodexMonitor
