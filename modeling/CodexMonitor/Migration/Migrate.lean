import CodexMonitor.Json
import CodexMonitor.Lib.Faults
import CodexMonitor.Migration.Legacy

/-!
# Adopting a state directory

`migrate` takes the locks, checks the configuration, copies the databases into a
backup and builds the new database in a staging file.  It then renames the staging
file, replaces the configuration and writes a report.  Every operation on files or on
a database has a place of its own, where it may fail or the process may stop.
-/

namespace CodexMonitor

open Sql (Cell)
open Faults (Fault Outcome Prog)

/-! ## Files and operations -/

inductive LegacyFile
  | monitor
  | replies
  | requests
deriving DecidableEq, Repr

/-- The operations of `private_write`. -/
inductive WriteStep
  | create
  | write
  | sync
  | rename
  | syncDir
  | cleanup
deriving DecidableEq, Repr

/-- The operations of one `VACUUM INTO`. -/
inductive SnapshotStep
  | connect
  | vacuum
  | chmod
deriving DecidableEq, Repr

/-- The operations of `migrate`.  The statements of a transaction are numbered. -/
inductive Place
  | lock (name : String)
  | read (path : String)
  | createBackup
  | privateWrite (path : String) (step : WriteStep)
  | snapshot (file : LegacyFile) (step : SnapshotStep)
  | openStaging
  | connect
  | attach (file : LegacyFile)
  | transaction (file : LegacyFile)
  | statement (file : LegacyFile) (n : Nat)
  | checkpointWatch (id : String)
  | commit (file : LegacyFile)
  | integrityCheck
  | walCheckpoint
  | publish
  | removeStaging
deriving DecidableEq, Repr

/-- What a migration reports. -/
inductive MigrateError
  | io
  | json
  | sql (message : String)
  | bail (message : String)
deriving DecidableEq, Repr

/-- The backup directory. -/
structure Backup where
  config : Option String
  monitor : Option Legacy.Monitor
  replies : Option Sql.Table
  requests : Option Legacy.Requests
  managed : List (String × String)
  report : Option Value

/-- A backup directory that was just made; its name is new. -/
def Backup.empty : Backup := ⟨none, none, none, none, [], none⟩

/-- The files of the Python runtime that a migration only reads. -/
structure LegacyFiles where
  monitor : Option Legacy.Monitor
  replies : Option Sql.Table
  requests : Option Legacy.Requests
  /-- The texts of the files under `managed/`. -/
  managed : String → Option String

/-- A state directory. -/
structure Disk where
  config : Option String
  rust : Option RustFile
  legacy : LegacyFiles
  staging : Option RustFile
  backup : Backup
  /-- The file that `private_write` renames. -/
  temporary : Option String

/-- Third-party code a migration uses. -/
structure Tools where
  crates : Crates
  engine : Sql.Engine
  /-- `to_vec_pretty`. -/
  pretty : Value → String
  /-- The path of the backup directory. -/
  backupPath : String

/-- A program of the migration. -/
abbrev MigrateM (α : Type) := Prog Place Disk MigrateError α

/-- An operation that changes nothing that matters here. -/
def touch (place : Place) (e : MigrateError) : MigrateM Unit := Prog.write place e fun s => s

/-- A statement, with the value it computes. -/
def statement {α : Type} (place : Place) (x : Except String α) : MigrateM α := do
  touch place (.sql "statement")
  Prog.ofExcept (x.mapError .sql)

/-- Remove the temporary file, if it is still there. -/
def cleanTemporary (path : String) : MigrateM Unit := do
  let left ← Prog.read fun s => s.temporary.isSome
  if left then
    Prog.write (.privateWrite path .cleanup) .io fun s => { s with temporary := none }
  else pure ()

/-- The operations of `private_write` that must succeed. -/
def replaceFile (path : String) (put : Disk → Disk) (bytes : String) : MigrateM Unit := do
  Prog.write (.privateWrite path .create) .io fun s => { s with temporary := some "" }
  Prog.write (.privateWrite path .write) .io fun s => { s with temporary := some bytes }
  touch (.privateWrite path .sync) .io
  Prog.write (.privateWrite path .rename) .io fun s => { put s with temporary := none }
  touch (.privateWrite path .syncDir) .io

/-- `private_write`: `put` puts the bytes into the file that is written. -/
def privateWrite (path : String) (put : Disk → Disk) (bytes : String) : MigrateM Unit :=
  Prog.andThen (replaceFile path put bytes) (cleanTemporary path)

/-! ## Preconditions -/

/-- `config["port"].as_u64().is_some_and(|p| p > 0 && p <= 65535)`. -/
def portOk (config : Value) : Bool :=
  ((config.get "port").bind Value.asU64).any fun p => 0 < p && p ≤ 65535

/-- `config["limits"].as_object().is_some_and(|limits| !limits.is_empty())`. -/
def customLimits (config : Value) : Bool :=
  ((config.get "limits").bind Value.asObject).any fun limits => !limits.isEmpty

/-- `config["runtime"] == "rust"`. -/
def isRust (config : Value) : Bool := config.getStr "runtime" == some "rust"

/-- Locks, configuration and the checks before anything is written. -/
def precheck (tools : Tools) : MigrateM (String × Value) := do
  touch (.lock "serve.lock") (.bail "Stop the receiver before migration")
  touch (.lock "config.lock") .io
  let original ← Prog.op (.read "config.json") .io fun s =>
    match s.config with
    | some text => .ok (text, s)
    | none => .error .io
  let config ← Prog.ofExcept ((tools.crates.fromStr original).elim (.error .json) .ok)
  Prog.bailIf (((config.get "version").bind Value.asI64 ≠ some 1) ∨ portOk config = false)
    (.bail "Unsupported legacy configuration; migration cancelled")
  Prog.bailIf (customLimits config = true)
    (.bail ("Custom legacy limits require explicit mapping before migration; " ++
      "no limits were silently discarded"))
  Prog.bailIf (isRust config = true)
    (.bail "State is already adopted by Rust; no data was changed")
  let rust ← Prog.read fun s => s.rust.isSome
  Prog.bailIf (rust = true)
    (.bail "Rust database already exists; inspect previous migration before retrying")
  pure (original, config)

/-! ## Backup -/

/-- `VACUUM INTO` the backup, of a database that exists. -/
def snapshotFile (file : LegacyFile) (isThere : Disk → Bool) (copy : Disk → Disk) :
    MigrateM Unit := do
  let here ← Prog.read isThere
  if here then do
    touch (.snapshot file .connect) (.sql "open")
    Prog.write (.snapshot file .vacuum) (.sql "VACUUM INTO") copy
    touch (.snapshot file .chmod) .io
  else pure ()

def snapshot (original : String) : MigrateM Unit := do
  Prog.write .createBackup .io fun s => { s with backup := Backup.empty }
  privateWrite "migration-backups/config.json"
    (fun s => { s with backup := { s.backup with config := some original } }) original
  snapshotFile .monitor (fun s => s.legacy.monitor.isSome) fun s =>
    { s with backup := { s.backup with monitor := s.legacy.monitor } }
  snapshotFile .replies (fun s => s.legacy.replies.isSome) fun s =>
    { s with backup := { s.backup with replies := s.legacy.replies } }
  snapshotFile .requests (fun s => s.legacy.requests.isSome) fun s =>
    { s with backup := { s.backup with requests := s.legacy.requests } }

/-! ## The new database -/

/-- Copy a table by position and compare the numbers of rows; statements `n`, `n + 1`, `n + 2`. -/
def copyTable (engine : Sql.Engine) (n : Nat) (name : String) (t source : Sql.Table) :
    MigrateM Sql.Table := do
  let copied ← statement (.statement .monitor n) (t.insertSelect engine source)
  touch (.statement .monitor (n + 1)) (.sql "count")
  touch (.statement .monitor (n + 2)) (.sql "count")
  Prog.bailIf (source.rows.length ≠ copied.rows.length)
    (.bail ("Migration count mismatch: " ++ name))
  pure copied

/-- The columns that a watch is copied into, and those it is copied from. -/
def watchColumns : List (String × String) :=
  [("id", "id"), ("thread", "thread"), ("name", "name"), ("path", "path"),
    ("interval", "interval"), ("debounce", "debounce_seconds"), ("condition", "condition_json"),
    ("binding", "binding"), ("enabled", "enabled"), ("removed", "removed"),
    ("epoch", "lifecycle_epoch"), ("created", "created"), ("updated", "updated")]

/-- `INSERT INTO managed_watches(…) SELECT … FROM old.managed_watches w JOIN old.bindings b ON
b.name=w.binding`: the endpoint is the route's. -/
def insertWatches (engine : Sql.Engine) (t watches routes : Sql.Table) : Except String Sql.Table :=
  if watchColumns.any fun pair => pair.2 ∉ watches.columns.map Sql.Column.name then
    .error "no such column"
  else
    t.insertAll engine (watches.rows.flatMap fun w =>
      (routes.rows.filter fun b =>
        Sql.cellAt routes.columns b "name" = Sql.cellAt watches.columns w "binding").map fun b =>
          t.fill ("endpoint" :: watchColumns.map Prod.fst)
            ((Sql.cellAt routes.columns b "endpoint").getD .null ::
              watches.pick w (watchColumns.map Prod.snd)))

/-- `r.get::<String>`. -/
def cellText : Option Cell → Except String String
  | some (.text s) => .ok s
  | _ => .error "invalid column type"

/-- `r.get::<Option<String>>`. -/
def cellTextOrNull : Option Cell → Except String (Option String)
  | some (.text s) => .ok (some s)
  | some .null => .ok none
  | _ => .error "invalid column type"

/-- `SELECT id,condition FROM managed_watches`. -/
def watchList (t : Sql.Table) : Except String (List (String × Option String)) :=
  t.rows.mapM fun row => do
    let id ← cellText (Sql.cellAt t.columns row "id")
    let condition ← cellTextOrNull (Sql.cellAt t.columns row "condition")
    pure (id, condition)

/-- `UPDATE managed_watches SET checkpoint=? WHERE id=?`. -/
def setWatchCheckpoint (t : Sql.Table) (id checkpoint : String) : Sql.Table :=
  { t with
    rows := t.rows.map fun row =>
      if Sql.cellAt t.columns row "id" = some (.text id) then
        (t.columns.zip row).map fun pair =>
          if pair.1.name = "checkpoint" then .text checkpoint else pair.2
      else row }

/-- The text contains the other one. -/
def containsText (s part : String) : Bool := s.toList.tails.any part.toList.isPrefixOf

/-- `checkpoint.get("pending").is_some_and(|v| !v.is_null())`. -/
def hasPending (checkpoint : Value) : Bool :=
  (checkpoint.get "pending").any fun pending => !(pending == .null)

/-- The baseline of a legacy checkpoint, as it is. -/
def translateCheckpoint (checkpoint : Value) (condition : Option String) :
    Except MigrateError Value :=
  match checkpoint.get "last" with
  | none => .error (.bail "Unsupported legacy checkpoint; migration cancelled")
  | some last =>
      if condition.isSome && (last.getStr "condition").isNone then
        .error (.bail "Unsupported condition baseline")
      else .ok last

/-- Keep the debounce checkpoint of a watch as an audit artifact, when there is one. -/
def backupDebounce (path : String) : Option String → MigrateM Unit
  | some text => do
      touch (.read path) .io
      privateWrite ("migration-backups/" ++ path)
        (fun s => { s with
          backup := { s.backup with managed := s.backup.managed ++ [(path, text)] } }) text
  | none => pure ()

/-- Take over the checkpoint of a watch, when there is one. -/
def adoptCheckpoint (tools : Tools) (t : Sql.Table) (id : String) (condition : Option String)
    (path : String) : Option String → MigrateM Sql.Table
  | some raw => do
      touch (.read path) .io
      let checkpoint ← Prog.ofExcept ((tools.crates.fromStr raw).elim (.error .json) .ok)
      Prog.bailIf (hasPending checkpoint = true)
        (.bail "A watch has an uncommitted pending event; reconcile it before migration")
      privateWrite ("migration-backups/" ++ path)
        (fun s => { s with
          backup := { s.backup with managed := s.backup.managed ++ [(path, raw)] } }) raw
      let translated ← Prog.ofExcept (translateCheckpoint checkpoint condition)
      touch (.checkpointWatch id) (.sql "UPDATE")
      pure (setWatchCheckpoint t id (canonicalJson tools.crates translated))
  | none => pure t

/-- The body of the loop over the watches. -/
def adoptWatch (tools : Tools) (t : Sql.Table) (watch : String × Option String) :
    MigrateM Sql.Table := do
  let (id, condition) := watch
  Prog.bailIf (containsText id "/" = true ∨ containsText id ".." = true)
    (.bail "Unsafe watch identifier")
  let path := id ++ ".json"
  let debouncePath := id ++ ".condition.json"
  let debounce ← Prog.read fun s => s.legacy.managed debouncePath
  backupDebounce debouncePath debounce
  let checkpoint ← Prog.read fun s => s.legacy.managed path
  adoptCheckpoint tools t id condition path checkpoint

/-- The transaction that copies `monitor.sqlite3`. -/
def copyMonitor (tools : Tools) (db : RustFile) : MigrateM (RustFile × Nat) := do
  touch (.attach .monitor) (.sql "ATTACH")
  let attached ← Prog.read fun s => s.backup.monitor
  touch (.transaction .monitor) (.sql "BEGIN")
  let old ← Prog.ofExcept (attached.elim (.error (.sql "no such table: old.bindings")) .ok)
  let bindings ← copyTable tools.engine 0 "bindings" db.bindings old.bindings
  let metadata ← copyTable tools.engine 3 "conversation_metadata" db.conversationMetadata
    old.conversationMetadata
  let events ← copyTable tools.engine 6 "events" db.events old.events
  touch (.statement .monitor 9) (.sql "CREATE TABLE legacy_decisions")
  let watches ← statement (.statement .monitor 10)
    (insertWatches tools.engine db.managedWatches old.managedWatches old.bindings)
  let list ← statement (.statement .monitor 11) (watchList watches)
  let watches ← list.foldlM (adoptWatch tools) watches
  let db := { db with
    bindings := bindings
    conversationMetadata := metadata
    events := events
    managedWatches := watches
    legacyDecisions := some old.decisions }
  Prog.write (.commit .monitor) (.sql "COMMIT") fun s => { s with staging := some db }
  pure (db, list.length)

/-- The transaction that copies `replies.sqlite3`, when there is one. -/
def copyReplies (tools : Tools) (db : RustFile) : MigrateM RustFile := do
  let attached ← Prog.read fun s => s.backup.replies
  match attached with
  | none => pure db
  | some old => do
      touch (.attach .replies) (.sql "ATTACH")
      touch (.transaction .replies) (.sql "BEGIN")
      let replies ← statement (.statement .replies 0) (db.replies.insertSelect tools.engine old)
      touch (.statement .replies 1) (.sql "count")
      touch (.statement .replies 2) (.sql "count")
      Prog.bailIf (replies.rows.length ≠ old.rows.length)
        (.bail "Migration count mismatch: replies")
      let db := { db with replies := replies }
      Prog.write (.commit .replies) (.sql "COMMIT") fun s => { s with staging := some db }
      pure db

/-- The columns of a request, and those it is copied from. -/
def requestColumns : List (String × String) :=
  [("seq", "seq"), ("request_id", "request_id"), ("thread", "conversation_id"),
    ("source", "source"), ("request_key", "request_key"), ("delivery_id", "original_delivery_id"),
    ("binding", "original_binding"), ("payload", "payload"), ("state", "state"),
    ("revision", "revision"), ("expires_at", "expires_at"), ("created", "created"),
    ("updated", "updated")]

/-- The columns of a transition, and those it is copied from. -/
def updateColumns : List (String × String) :=
  [("seq", "seq"), ("request_id", "request_id"), ("update_id", "update_id"),
    ("expected_revision", "expected_revision"), ("revision", "revision"),
    ("previous_state", "previous_state"), ("state", "state"), ("detail", "summary"),
    ("created", "created")]

/-- The transaction that copies `requests.sqlite3`, when there is one. -/
def copyRequests (tools : Tools) (db : RustFile) : MigrateM RustFile := do
  let attached ← Prog.read fun s => s.backup.requests
  match attached with
  | none => pure db
  | some old => do
      touch (.attach .requests) (.sql "ATTACH")
      touch (.transaction .requests) (.sql "BEGIN")
      let requests ← statement (.statement .requests 0)
        (db.requests.insertColumns tools.engine (requestColumns.map Prod.fst) old.requests
          (requestColumns.map Prod.snd))
      let updates ← statement (.statement .requests 1)
        (db.requestUpdates.insertColumns tools.engine (updateColumns.map Prod.fst)
          old.requestUpdates (updateColumns.map Prod.snd))
      let notifications ← statement (.statement .requests 2)
        (db.requestNotifications.insertSelect tools.engine old.requestNotifications)
      touch (.statement .requests 3) (.sql "CREATE TABLE legacy_request_expiry")
      let expiry := old.requests.rows.map fun row => old.requests.pick row ["request_id", "expires_in"]
      touch (.statement .requests 4) (.sql "count")
      touch (.statement .requests 5) (.sql "count")
      Prog.bailIf (requests.rows.length ≠ old.requests.rows.length)
        (.bail "Migration count mismatch: requests")
      touch (.statement .requests 6) (.sql "count")
      touch (.statement .requests 7) (.sql "count")
      Prog.bailIf (updates.rows.length ≠ old.requestUpdates.rows.length)
        (.bail "Migration count mismatch: request_updates")
      touch (.statement .requests 8) (.sql "count")
      touch (.statement .requests 9) (.sql "count")
      Prog.bailIf (notifications.rows.length ≠ old.requestNotifications.rows.length)
        (.bail "Migration count mismatch: request_notifications")
      let db := { db with
        requests := requests
        requestUpdates := updates
        requestNotifications := notifications
        legacyRequestExpiry := some expiry }
      Prog.write (.commit .requests) (.sql "COMMIT") fun s => { s with staging := some db }
      pure db

/-- Build the new database in the staging file. -/
def stage (tools : Tools) : MigrateM (RustFile × Nat) := do
  Prog.write .openStaging (.sql "Store::open") fun s => { s with staging := some RustFile.empty }
  touch .connect (.sql "open")
  let (db, watches) ← copyMonitor tools RustFile.empty
  let db ← copyReplies tools db
  let db ← copyRequests tools db
  touch .integrityCheck (.bail "Migrated database integrity check failed")
  touch .walCheckpoint (.sql "wal_checkpoint")
  pure (db, watches)

/-! ## Publication -/

/-- Assign a field of an object; a new field goes where its key belongs. -/
def setField (key : String) (value : Value) (fields : List (String × Value)) :
    List (String × Value) :=
  if key ∈ fields.map Prod.fst then
    fields.map fun field => if field.1 = key then (key, value) else field
  else fields.orderedInsert (fun a b => a.1 ≤ b.1) (key, value)

/-- `config[key] = value`. -/
def assign (config : Value) (key : String) (value : Value) : Value :=
  match config with
  | .object fields => .object (setField key value fields)
  | other => other

/-- The configuration of the adopted state. -/
def adoptedConfig (tools : Tools) (config : Value) : Value :=
  assign (assign config "runtime" (.string "rust")) "migration_backup" (.string tools.backupPath)

def count (t : Sql.Table) : Value := .number (.ofI64 t.rows.length)

/-- The tables that are counted once the requests were copied. -/
def requestCounts (s : Disk) (db : RustFile) : List (String × Value) :=
  if s.backup.requests.isSome then
    [("request_notifications", count db.requestNotifications),
      ("request_updates", count db.requestUpdates), ("requests", count db.requests)]
  else []

/-- The report of a migration. -/
def reportOf (tools : Tools) (s : Disk) (db : RustFile) (watches : Nat) : Value :=
  .object [("backup", .string tools.backupPath),
    ("counts", .object ([("bindings", count db.bindings),
      ("conversation_metadata", count db.conversationMetadata), ("events", count db.events),
      ("managed_watches", .number (.ofI64 watches))] ++
      (if s.backup.replies.isSome then [("replies", count db.replies)] else []) ++
      requestCounts s db)),
    ("credentials", .string "preserved"), ("input_replayed", .bool false),
    ("runtime", .string "rust")]

/-- Rename the staging file, replace the configuration, write the report. -/
def publish (tools : Tools) (config : Value) (db : RustFile) (watches : Nat) :
    MigrateM Value := do
  Prog.write .publish .io fun s => { s with rust := s.staging, staging := none }
  let text := tools.pretty (adoptedConfig tools config)
  privateWrite "config.json" (fun s => { s with config := some text }) text
  let report ← Prog.read fun s => reportOf tools s db watches
  privateWrite "migration-backups/report.json"
    (fun s => { s with backup := { s.backup with report := some report } }) (tools.pretty report)
  pure report

/-- Adopt a state directory of the Python runtime. -/
def migrate (tools : Tools) : MigrateM Value := do
  let (original, config) ← precheck tools
  snapshot original
  Prog.onFailure
    (do
      let (db, watches) ← stage tools
      publish tools config db watches)
    (Prog.write .removeStaging .io fun s => { s with staging := none })

/-- The part of a migration that comes before the first rename. -/
def prepare (tools : Tools) : MigrateM (Value × RustFile × Nat) := do
  let (original, config) ← precheck tools
  snapshot original
  let (db, watches) ← stage tools
  pure (config, db, watches)

/-- The guard of every other command: a state directory with a Python database must have been
adopted. -/
def legacyGuard (tools : Tools) (s : Disk) : Except MigrateError Unit :=
  if s.legacy.monitor.isSome &&
      !((s.config.bind tools.crates.fromStr).any isRust) then
    .error (.bail
      "Legacy Python state detected; stop its receiver and run migrate before starting Rust")
  else .ok ()

end CodexMonitor
