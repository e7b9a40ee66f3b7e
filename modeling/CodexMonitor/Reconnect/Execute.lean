import CodexMonitor.Lib.Dict
import CodexMonitor.Lib.Replace
import CodexMonitor.Store.Schema

/-!
# A permission change

The owner of an endpoint and the residents that serve it are services of one directory.  A change
of permissions rewrites their files between stopping and starting them, and undoes all of it when
a step fails.  Every command, file operation and inspection is an operation that may fail.
-/

namespace CodexMonitor

namespace Reconnect

open Faults (Fault Outcome Prog)

abbrev Bytes : Type := List UInt8

/-! ## Services -/

/-- What a service file says. -/
structure Settings where
  label : String
  args : List String
  env : List (String × String)
  cwd : Option String
deriving DecidableEq, Repr

/-- A service; its path is a name in the service directory. -/
structure Job where
  path : String
  raw : Bytes
  settings : Settings
deriving DecidableEq, Repr

def Job.args (job : Job) : List String := job.settings.args

inductive Platform
  | linux
  | macos
deriving DecidableEq, Repr

/-- The host of a change: which directory entries may be service files, how a file is read and
written with other arguments, and what the owner answers when it is inspected. -/
structure Host where
  platform : Platform
  eligible : String → Bool
  parse : String → Bytes → Option Settings
  rewrite : Job → List String → Option Bytes
  isLocal : String → Bool
  sameLogin : Job → Bool
  threads : List String
  pid : Nat

/-- The value of an option that is given once. -/
def option (args : List String) (key : String) : Option String :=
  match (args.zip args.tail).filter fun window => window.1 = key with
  | [(_, value)] => some value
  | _ => none

/-- The last component of a path. -/
def fileName (path : String) : Option String :=
  let parts := (path.toList.splitOn '/').filter fun part => part ≠ [] ∧ part ≠ ['.']
  (parts.getLast?.filter fun part => part ≠ ['.', '.']).map String.ofList

def isAbsolute (path : String) : Bool := path.toList.head? = some '/'

/-- The entries of the directory that are looked at, in name order. -/
def Host.names (host : Host) (files : Dict String Bytes) : List String :=
  let sorted := files.keys.mergeSort fun a b => a ≤ b
  match host.platform with
  | .linux => sorted
  | .macos => sorted.take 256

/-- The service of a directory entry. -/
def Host.job (host : Host) (files : Dict String Bytes) (path : String) : Option Job :=
  if host.eligible path = false then none
  else (files.get path).bind fun raw => (host.parse path raw).map fun settings => ⟨path, raw, settings⟩

def jobs (host : Host) (files : Dict String Bytes) : List Job :=
  (host.names files).filterMap (host.job files)

/-- A direct app server that listens on the endpoint. -/
def isOwner (endpoint : String) (job : Job) : Bool :=
  job.args.head?.bind fileName = some "codex" ∧ "app-server" ∈ job.args ∧ "proxy" ∉ job.args ∧
    option job.args "--listen" = some endpoint

/-- A resident of the endpoint. -/
def isResident (endpoint : String) (job : Job) : Bool :=
  (job.args.head?.bind fileName = some "codex-monitor" ∨
      job.args.head?.bind fileName = some "codex-monitor-rs") ∧
    "resident" ∈ job.args ∧ option job.args "--endpoint" = some endpoint

/-- The owner of an endpoint and its residents. -/
def configuration (host : Host) (files : Dict String Bytes) (endpoint : String) :
    Except String (Job × List Job) :=
  if host.isLocal endpoint = false then
    .error "Reconnect requires an explicit local owner endpoint"
  else
    let all := jobs host files
    match all.filter (isOwner endpoint) with
    | [owner] =>
        if host.sameLogin owner = false ∨ owner.args.head?.any isAbsolute = false then
          .error "Owner login environment differs; reconnect from its Codex home"
        else
          let residents := all.filter (isResident endpoint)
          if residents = [] then .error "No resident services cover this owner"
          else .ok (owner, residents)
    | _ => .error "No unique direct owner service matches this endpoint"

/-! ## Arguments -/

def policyMode (policy : String) : Option String :=
  if policy = "full" then some "danger-full-access"
  else if policy = "read-only" then some "read-only"
  else if policy = "workspace-network" then some "workspace-write"
  else none

def combinedFlags : List String :=
  ["--dangerously-bypass-approvals-and-sandbox", "--yolo", "--full-auto"]

/-- The key of an owner's `KEY=VALUE`. -/
def configKey (value : String) : List Char :=
  (((value.toList.takeWhile fun c => c ≠ '=').dropWhile isWhitespace).reverse.dropWhile
    isWhitespace).reverse

/-- The owner's keys that a permission change replaces. -/
def isPermissionKey (key : List Char) : Bool :=
  key = "sandbox_mode".toList ∨ key = "sandbox_workspace_write.network_access".toList ∨
    key = "default_permissions".toList ∨ key = "permissions".toList ∨
    "permissions.".toList.isPrefixOf key

def startsWith (value start : String) : Bool := start.toList.isPrefixOf value.toList

/-- The arguments that stay. -/
def keptArgs (resident : Bool) : List String → Except String (List String)
  | [] => .ok []
  | a :: rest =>
      if a ∈ combinedFlags then
        .error ("Normalize combined approval/sandbox flags before changing permissions; " ++
          "approval policy must remain explicit")
      else if a ∈ ["--sandbox", "-s"] then
        match rest with
        | [] => .error "Malformed sandbox option"
        | _ :: rest => keptArgs resident rest
      else if startsWith a "--sandbox=" ∨ a ∈ ["--network-access", "--no-network-access"] then
        keptArgs resident rest
      else if resident = false ∧ a ∈ ["-c", "--config"] then
        match rest with
        | [] => .error "Malformed owner config"
        | value :: rest =>
            (keptArgs resident rest).map fun out =>
              if isPermissionKey (configKey value) then out else a :: value :: out
      else if resident = false ∧ (startsWith a "--config=" ∨ (startsWith a "-c" ∧ a ≠ "-c")) then
        .error "Normalize compact owner config before changing permissions"
      else (keptArgs resident rest).map fun out => a :: out

/-- The arguments of a service under a policy. -/
def policyArgs (args : List String) (policy : String) (resident : Bool) :
    Except String (List String) :=
  match policyMode policy with
  | none => .error "Unsupported permission mode"
  | some mode =>
      (keptArgs resident args).map fun out =>
        if resident then
          out ++ ["--sandbox", mode] ++
            (if policy = "workspace-network" then ["--network-access"] else [])
        else
          -- the options go behind the executable
          out.take 1 ++ ["-c", "sandbox_mode=\"" ++ mode ++ "\"", "-c",
            "sandbox_workspace_write.network_access=" ++
              (if policy = "workspace-network" then "true" else "false")] ++ out.drop 1

/-! ## Operations -/

/-- The first attempt, and its undoing. -/
inductive Phase
  | change
  | restore
deriving DecidableEq, Repr

/-- The operations of `execute`.  The commands that start one service are numbered. -/
inductive Place
  | createDir
  | lock
  | account
  | inspect
  | checkFile (path : String)
  | help (path : String)
  | backupDir
  | backup (path : String) (step : Faults.Replace.Step)
  | file (phase : Phase) (path : String) (step : Faults.Replace.Step)
  | stop (phase : Phase) (path : String)
  | stopped (phase : Phase) (path : String)
  | start (phase : Phase) (path : String) (attempt : Nat)
  | started (phase : Phase) (path : String) (attempt : Nat)
  | reload (phase : Phase)
  | restart
  | verify
deriving DecidableEq, Repr

/-- What the service manager is asked.  A start is noted with the bytes that the file has at that
time.  On macOS the request names the file; on Linux it names the unit, and the manager runs what it
loaded from the file at its last `daemon-reload`. -/
inductive Ask
  | stop (job : Job)
  | start (job : Job) (bytes : Option Bytes)
deriving DecidableEq, Repr

/-- The error of a change; after a failed attempt it says whether everything was restored. -/
inductive ExecuteError
  | text (message : String)
  | undone (cause : ExecuteError) (restored : Bool)
deriving DecidableEq, Repr

/-- The service directory, the new backup directory, the temporary file, the services that were
asked to stop, and what the service manager was asked. -/
structure Machine where
  files : Dict String Bytes
  backups : Dict String Bytes
  temporary : Option Bytes
  stopped : List Job
  asks : List Ask

def Machine.start (files : Dict String Bytes) : Machine := ⟨files, ∅, none, [], []⟩

abbrev ExecuteM (α : Type) : Type := Prog Place Machine ExecuteError α

/-- A step that ends with an error when it fails. -/
def step (place : Place) (message : String) : ExecuteM Unit := Prog.probe place (.text message)

def lift {α : Type} (x : Except String α) : ExecuteM α :=
  Prog.ofExcept (match x with
    | .ok a => .ok a
    | .error message => .error (.text message))

def bailIf (c : Prop) [Decidable c] (message : String) : ExecuteM Unit :=
  Prog.bailIf c (.text message)

/-! ## Files -/

def serviceFile (phase : Phase) (path : String) : Faults.Replace.Target Place Machine Bytes where
  place := .file phase path
  temporary := Machine.temporary
  setTemporary x s := { s with temporary := x }
  put bytes s := { s with files := s.files.set path bytes }

def backupFile (path : String) : Faults.Replace.Target Place Machine Bytes where
  place := .backup path
  temporary := Machine.temporary
  setTemporary x s := { s with temporary := x }
  put bytes s := { s with backups := s.backups.set path bytes }

/-- `private_write`. -/
def privateWrite (target : Faults.Replace.Target Place Machine Bytes) (bytes : Bytes) :
    ExecuteM Unit :=
  Faults.Replace.replace target (.text "private write") [] bytes

/-! ## Services -/

def askStop (job : Job) : ExecuteM Unit :=
  Prog.tell fun s => { s with asks := s.asks ++ [.stop job] }

def askStart (job : Job) : ExecuteM Unit :=
  Prog.tell fun s => { s with asks := s.asks ++ [.start job (s.files.get job.path)] }

/-- Stop a service, and on Linux wait until it has stopped. -/
def stop (host : Host) (phase : Phase) (job : Job) : ExecuteM Unit := do
  askStop job
  step (.stop phase job.path) "stop"
  match host.platform with
  | .linux => step (.stopped phase job.path) "Service did not stop; configuration was not applied"
  | .macos => pure ()

def reload (host : Host) (phase : Phase) : ExecuteM Unit :=
  match host.platform with
  | .linux => step (.reload phase) "daemon-reload"
  | .macos => pure ()

/-- The attempts of `bootstrap` on macOS: a start command, then a look for the process. -/
def bootstrapLoop (phase : Phase) (job : Job) (attempt : Nat) : Nat → ExecuteM Unit
  | 0 => Prog.ofExcept (.error (.text "Service bootstrap failed"))
  | fuel + 1 => do
      askStart job
      let asked ← Prog.caught (step (.start phase job.path attempt) "bootstrap")
      if asked.isOk then pure ()
      else do
        let running ← Prog.caught (step (.started phase job.path attempt) "print")
        if running.isOk then pure () else bootstrapLoop phase job (attempt + 1) fuel

/-- Start a service, and see that it runs. -/
def bootstrap (host : Host) (phase : Phase) (job : Job) : ExecuteM Unit :=
  match host.platform with
  | .linux => do
      askStart job
      step (.start phase job.path 0) "start"
      step (.started phase job.path 0) "Started service did not match saved configuration"
  | .macos => bootstrapLoop phase job 0 4

/-! ## Plans -/

structure Plan where
  endpoint : String
  thread : String
  owner : Job
  residents : List Job
  threads : List String
  pid : Nat
  elapsed : Nat
  policy : Option String

def Plan.jobs (plan : Plan) : List Job := plan.owner :: plan.residents

/-- The services with their arguments rewritten; the first one is the owner. -/
def rewriteJobs (host : Host) (policy : String) : Bool → List Job → ExecuteM (List Job)
  | _, [] => pure []
  | resident, job :: rest => do
      step (.checkFile job.path) "read"
      let bytes ← Prog.read fun s => s.files.get job.path
      bailIf (bytes ≠ some job.raw) "Saved service changed"
      let args ← lift (policyArgs job.args policy resident)
      let raw ← lift ((host.rewrite job args).elim
        (.error "Permission arguments require literal values") .ok)
      let next := { job with raw := raw, settings := { job.settings with args := args } }
      let changed ← rewriteJobs host policy true rest
      pure (next :: changed)

/-- Stop every service, write every file and start every service again. -/
def apply (host : Host) (plan : Plan) (changed : List Job) : ExecuteM Unit := do
  Prog.each (fun job => do
    Prog.tell fun s : Machine => { s with stopped := s.stopped ++ [job] }
    stop host .change job) (plan.residents ++ [plan.owner])
  Prog.each (fun job => privateWrite (serviceFile .change job.path) job.raw) changed
  reload host .change
  Prog.each (bootstrap host .change) changed
  step .verify "Restart verification timed out; inspect services before retrying"

/-- Undo a failed attempt; was all of it undone? -/
def restore (host : Host) (plan : Plan) : ExecuteM Bool := do
  let stopped ← Prog.read Machine.stopped
  let halted ← Prog.tryEach (stop host .restore) stopped.reverse
  let written ← Prog.tryEach (fun job => privateWrite (serviceFile .restore job.path) job.raw)
    plan.jobs
  let reloaded ← Prog.caught (reload host .restore)
  let started ← Prog.tryEach (bootstrap host .restore)
    (plan.jobs.filter fun job => job ∈ stopped)
  pure (halted && written && reloaded.isOk && started)

/-- Everything before the first service is stopped: the new files, and copies of the old ones. -/
def prepare (host : Host) (plan : Plan) (policy : String) : ExecuteM (List Job) := do
  let changed ← rewriteJobs host policy false plan.jobs
  Prog.each (fun job : Job => step (.help job.path)
    "Upgrade the resident executable before changing permissions") plan.residents
  step .backupDir "permission-backups"
  Prog.each (fun job : Job => privateWrite (backupFile job.path) job.raw) plan.jobs
  pure changed

/-- A change of permissions. -/
def changePolicy (host : Host) (plan : Plan) (policy : String) : ExecuteM Unit := do
  let changed ← prepare host plan policy
  let result ← Prog.caught (apply host plan changed)
  match result with
  | .ok _ => pure ()
  | .error cause => do
      let restored ← restore host plan
      Prog.ofExcept (.error (.undone cause restored))

/-- The checks of `execute`: nothing has changed since the preview. -/
def check (host : Host) (plan : Plan) : ExecuteM Unit := do
  bailIf (60 < plan.elapsed) "Preview expired; inspect again"
  step .createDir "create_dir_all"
  step .lock "lock"
  step .account "Fresh login unavailable; sign in first"
  let files ← Prog.read Machine.files
  let fresh ← lift (configuration host files plan.endpoint)
  step .inspect "inspect"
  bailIf (fresh ≠ (plan.owner, plan.residents) ∨ host.threads ≠ plan.threads ∨
    host.pid ≠ plan.pid) "Owner changed since preview; inspect again"

/-- Carry out a plan. -/
def execute (host : Host) (plan : Plan) : ExecuteM Unit := do
  check host plan
  match plan.policy with
  | some policy => changePolicy host plan policy
  | none => do
      -- a restart whose command failed may still have been accepted
      let _ ← Prog.caught (step .restart "restart")
      step .verify "Restart verification timed out; inspect services before retrying"

end Reconnect

end CodexMonitor
