import CodexMonitor.Store.Schema

/-!
# Routes and managed watches

Registering, pausing, resuming and removing routes and managed file watches.  A
managed watch owns a binding of its own; both ways of removing it, through its
route and through the watch, are modelled as the code has them.
-/

namespace CodexMonitor

open Transaction

/-! ## Routes -/

/-- Each source must be an identifier and may not be the managed one. -/
def validateSources : List String → StoreM Unit
  | [] => pure ()
  | source :: sources => do
      validateIdentifier source "source"
      bailIf (source = "managed/file") "reserved managed source cannot be registered externally"
      validateSources sources

/-- `INSERT INTO bindings`. -/
def insertBinding (b : Binding) : StoreM Unit :=
  insertInto "UNIQUE constraint failed: bindings.name" fun db =>
    (db.bindings.insert? b).map fun t => { db with bindings := t }

/-- Register a native route. -/
def bind (crates : Crates) (name thread endpoint : String) (sources : List String) :
    StoreM Binding := do
  validateIdentifier name "binding"
  bailIf ('/' ∈ name.toList) "binding name must not contain '/'"
  validateIdentifier thread "thread"
  validateEndpoint crates endpoint
  bailIf (sources = []) "binding sources must not be empty"
  validateSources sources
  let b : Binding := ⟨name, thread, endpoint, sources, true, false⟩
  withTx do
    insertBinding b
    pure b

/-- `UPDATE bindings SET enabled=?,removed=? WHERE name=?`. -/
def Db.setBinding (db : Db) (name : String) (enabled removed : Bool) : Db :=
  { db with
    bindings := db.bindings.update (fun b => b.name = name) fun b =>
      { b with enabled := enabled, removed := removed } }

/-- The watches of a removed or paused route follow it: `WHERE binding=? AND removed=0`. -/
def Db.setRouteWatches (db : Db) (name : String) (enabled removed : Bool) : Db :=
  { db with
    managedWatches := db.managedWatches.update (fun w => w.binding = name ∧ w.removed = false)
      fun w => { w with enabled := enabled, removed := removed, epoch := w.epoch + 1 } }

/-- A removed route settles the events it can no longer hand to anyone. -/
def Db.killPending (db : Db) (name : String) (now : Rat) : Db :=
  { db with
    events := db.events.update (fun e => e.binding = name ∧ e.state = .pending) fun e =>
      { e with state := .dead, error := some "binding removed", nextAt := 0, updated := now } }

/-- Pending notifications of a removed route fail, unless their event is still in flight:
`delivery_id IS NULL OR delivery_id IN (SELECT id FROM events WHERE state='dead')`. -/
def Db.failNotices (db : Db) (name : String) (now : Rat) : Db :=
  { db with
    requestNotifications := db.requestNotifications.update
      (fun n => n.state = .pending ∧ n.originalBinding = name ∧
        (n.deliveryId = none ∨ db.events.Any fun e => n.deliveryId = some e.id ∧ e.state = .dead))
      fun n => { n with state := .failed, error := some "binding removed", updated := now } }

/-- The answer of `route_action`. -/
structure RouteReceipt where
  action : LifecycleAction
  binding : String
  thread : String
  endpoint : String
  enabled : Bool
  removed : Bool
deriving DecidableEq, Repr

/-- Pause, resume or remove a route. -/
def routeAction (name action : String) (now : Rat) : StoreM RouteReceipt := do
  validateIdentifier name "binding"
  let action ← Tx.expect (.bail "route action must be pause, resume, or remove")
    (LifecycleAction.ofString? action)
  withTx do
    let row ← Tx.query fun db => db.bindings.find? fun b => b.name = name
    let b ← Tx.expect (.bail "unknown binding") row
    bailIf (b.removed = true ∧ action ≠ .remove) "binding has been retired"
    let enabled : Bool := action = .resume
    let retired : Bool := action = .remove
    Tx.write fun db => db.setBinding name enabled retired
    Tx.write fun db => db.setRouteWatches name enabled retired
    Tx.write fun db => if retired then db.killPending name now else db
    Tx.write fun db => if retired then db.failNotices name now else db
    pure ⟨action, name, b.thread, b.endpoint, enabled, retired⟩

/-! ## Managed watches -/

/-- The double `0.1`. -/
def minInterval : Rat := 3602879701896397 / 36028797018963968

/-- A finite argument in `low..=86400`. -/
def F64.within (x : F64) (low : Rat) : Option Rat :=
  match x with
  | .finite value => if low ≤ value ∧ value ≤ 86400 then some value else none
  | .infinite _ => none
  | .nan => none

/-- `INSERT INTO managed_watches`. -/
def insertWatch (w : Watch) : StoreM Unit :=
  insertInto "UNIQUE constraint failed: managed_watches" fun db =>
    (db.managedWatches.insert? w).map fun t => { db with managedWatches := t }

/-- Register a managed file watch and the binding it owns. -/
def watchCreate (crates : Crates) (thread name path : String) (interval : F64) (endpoint : String)
    (debounce : F64) (condition : Option Value) (uuid : Uuid) (now : Rat) : StoreM Watch := do
  validateIdentifier thread "thread"
  validateIdentifier name "watch name"
  bailIf ('/' ∈ name.toList) "watch name must not contain '/'"
  bailIf (path.toList.head? ≠ some '/') "managed file path must be absolute"
  let interval ← Tx.expect
    (.bail "managed watch interval must be between 0.1 and 86400 seconds")
    (interval.within minInterval)
  let debounce ← Tx.expect (.bail "debounce must be between 0 and 86400 seconds")
    (debounce.within 0)
  validateEndpoint crates endpoint
  let binding := "managed-" ++ uuid.text
  let b : Binding := ⟨binding, thread, endpoint, ["managed/file"], true, false⟩
  let w : Watch := ⟨uuid.text, thread, name, path, interval, endpoint, debounce,
    condition.map (canonicalJson crates), binding, true, false, 0, none, now, now⟩
  withTx do
    let duplicate ← Tx.query fun db => db.managedWatches.count fun w =>
      w.thread = thread ∧ w.name = name ∧ w.removed = false
    bailIf (0 < duplicate) "a managed watch with this name already exists for the thread"
    let total ← Tx.query fun db => db.managedWatches.count fun w => w.removed = false
    let perThread ← Tx.query fun db => db.managedWatches.count fun w =>
      w.thread = thread ∧ w.removed = false
    bailIf (maxWatches ≤ total) "managed watch capacity reached"
    bailIf (maxWatchesPerThread ≤ perThread) "managed watch capacity for this thread reached"
    insertBinding b
    insertWatch w
    pure w

/-- `UPDATE managed_watches SET enabled=?,removed=?,epoch=epoch+1,updated=? WHERE id=?`. -/
def Db.setWatch (db : Db) (id : String) (enabled removed : Bool) (now : Rat) : Db :=
  { db with
    managedWatches := db.managedWatches.update (fun w => w.id = id) fun w =>
      { w with enabled := enabled, removed := removed, epoch := w.epoch + 1, updated := now } }

/-- The live watches of a name, newest first: `removed=0 ORDER BY created DESC`. -/
def Db.liveWatches (db : Db) (thread name : String) : List Watch :=
  db.managedWatches.select (fun w => w.thread = thread ∧ w.name = name ∧ w.removed = false)
    fun a b => b.created ≤ a.created

/-- Pause, resume or remove a managed watch together with its binding. -/
def watchAction (thread name action : String) (now : Rat) : StoreM Watch := do
  validateIdentifier thread "thread"
  validateIdentifier name "watch name"
  let action ← Tx.expect (.bail "watch action must be pause, resume, or remove")
    (LifecycleAction.ofString? action)
  withTx do
    -- `LIMIT 1`
    let rows ← Tx.query fun db => db.liveWatches thread name
    let w ← Tx.expect (.bail "unknown managed watch") rows.head?
    let enabled : Bool := action = .resume
    let removed : Bool := action = .remove
    Tx.write fun db => db.setWatch w.id enabled removed now
    Tx.write fun db => db.setBinding w.binding enabled removed
    let row ← Tx.query fun db => db.managedWatches.find? fun v => v.id = w.id
    Tx.expect (.sqlite "Query returned no rows") row

end CodexMonitor
