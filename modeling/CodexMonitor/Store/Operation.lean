import CodexMonitor.Store.Routes
import CodexMonitor.Store.Intake
import CodexMonitor.Store.Delivery
import CodexMonitor.Store.Maintenance
import CodexMonitor.Store.Replies
import Mathlib.Logic.Relation

/-!
# Operations and runs of the store

`Op` lists every operation that writes, with all its inputs: arguments, clock
readings and generated identifiers.  A run is any sequence of operations on an
empty database; an operation that fails is a step that changes nothing.
-/

namespace CodexMonitor

open Transaction

/-- A call of a writing operation of the store. -/
inductive Op
  | bind (name thread endpoint : String) (sources : List String)
  | routeAction (name action : String) (now : Rat)
  | ingest (binding : String) (envelope : Value) (uuid : Uuid) (now : Rat)
  | claim (clock : Nat → Rat)
  | finish (id state : String) (submissionId error : Option String) (now : Rat)
  | deferUnavailable (id error : String) (now : Rat)
  | recoverSubmitting (nextAt now : Rat)
  | watchCreate (thread name path : String) (interval : F64) (endpoint : String) (debounce : F64)
      (condition : Option Value) (uuid : Uuid) (now : Rat)
  | watchAction (thread name action : String) (now : Rat)
  | commitSample (id : String) (epoch : Int) (checkpoint : Value) (event : Option Value)
      (uuid : Uuid) (now stamp : Rat)
  | replyPut (deliveryId replyKey message : String) (uuid : Uuid) (now : Rat)
  | replyAck (source replyId : String) (now : Rat)
  | requestCreate (thread source key deliveryId : String) (payload : Value)
      (expiresAt : Option F64) (uuid : Uuid) (now : Rat)
  | requestUpdate (thread source key updateId state : String) (expectedRevision : Option Int)
      (detail : Option String) (now : Rat)
  | requestMaintenance (limit : Nat) (uuids : Nat → Uuid) (now : Rat)

/-- Run a call; its answer is dropped. -/
def Op.exec (crates : Crates) : Op → StoreM Unit
  | .bind name thread endpoint sources => do
      let _ ← CodexMonitor.bind crates name thread endpoint sources
  | .routeAction name action now => do
      let _ ← CodexMonitor.routeAction name action now
  | .ingest binding envelope uuid now => do
      let _ ← CodexMonitor.ingest crates binding envelope uuid now
  | .claim clock => do
      let _ ← CodexMonitor.claim crates clock
  | .finish id state submissionId error now =>
      CodexMonitor.finish id state submissionId error now
  | .deferUnavailable id error now => CodexMonitor.deferUnavailable id error now
  | .recoverSubmitting nextAt now => CodexMonitor.recoverSubmitting nextAt now
  | .watchCreate thread name path interval endpoint debounce condition uuid now => do
      let _ ← CodexMonitor.watchCreate crates thread name path interval endpoint debounce
        condition uuid now
  | .watchAction thread name action now => do
      let _ ← CodexMonitor.watchAction thread name action now
  | .commitSample id epoch checkpoint event uuid now stamp => do
      let _ ← CodexMonitor.commitSample crates id epoch checkpoint event uuid now stamp
  | .replyPut deliveryId replyKey message uuid now => do
      let _ ← CodexMonitor.replyPut deliveryId replyKey message uuid now
  | .replyAck source replyId now => CodexMonitor.replyAck source replyId now
  | .requestCreate thread source key deliveryId payload expiresAt uuid now => do
      let _ ← CodexMonitor.requestCreate crates thread source key deliveryId payload expiresAt
        uuid now
  | .requestUpdate thread source key updateId state expectedRevision detail now => do
      let _ ← CodexMonitor.requestUpdate crates thread source key updateId state
        expectedRevision detail now
  | .requestMaintenance limit uuids now => do
      let _ ← CodexMonitor.requestMaintenance crates limit uuids now

/-- The database after a call. -/
def Op.step (crates : Crates) (db : Db) (op : Op) : Db := ((op.exec crates).run db).2

/-- One call that meets `ok` in the state before it. -/
def Moves (crates : Crates) (ok : Db → Op → Prop) (db db' : Db) : Prop :=
  ∃ op, ok db op ∧ op.step crates db = db'

/-- Any number of calls, each of which meets `ok` in the state before it. -/
def LeadsBy (crates : Crates) (ok : Db → Op → Prop) : Db → Db → Prop :=
  Relation.ReflTransGen (Moves crates ok)

/-- Any number of calls. -/
def Leads (crates : Crates) : Db → Db → Prop := LeadsBy crates fun _ _ => True

/-- Reachable from an empty database by calls that meet `ok`. -/
def ReachableBy (crates : Crates) (ok : Db → Op → Prop) (db : Db) : Prop :=
  LeadsBy crates ok Db.empty db

/-- Reachable from an empty database. -/
def Reachable (crates : Crates) (db : Db) : Prop := Leads crates Db.empty db

theorem Leads.step {crates : Crates} {db db' : Db} (h : Leads crates db db') (op : Op) :
    Leads crates db (op.step crates db') :=
  Relation.ReflTransGen.tail h ⟨op, trivial, rfl⟩

theorem LeadsBy.leads {crates : Crates} {ok : Db → Op → Prop} {db db' : Db}
    (h : LeadsBy crates ok db db') : Leads crates db db' :=
  Relation.ReflTransGen.mono (fun _ _ ⟨op, _, hop⟩ => ⟨op, trivial, hop⟩) _ _ h

theorem ReachableBy.reachable {crates : Crates} {ok : Db → Op → Prop} {db : Db}
    (h : ReachableBy crates ok db) : Reachable crates db :=
  LeadsBy.leads h

theorem Leads.reachable {crates : Crates} {db db' : Db} (h : Reachable crates db)
    (hl : Leads crates db db') : Reachable crates db' :=
  Relation.ReflTransGen.trans h hl

/-- A property that every call keeps holds at the end of every run it holds at the start of. -/
theorem LeadsBy.invariant {crates : Crates} {ok : Db → Op → Prop} {P : Db → Prop}
    (hstep : ∀ db op, P db → ok db op → P (op.step crates db)) {db db' : Db}
    (h : LeadsBy crates ok db db') (hdb : P db) : P db' := by
  induction h with
  | refl => exact hdb
  | tail _ hmove ih =>
      obtain ⟨op, hop, rfl⟩ := hmove
      exact hstep _ op ih hop

theorem harmless_withTx {α : Type} (body : StoreM α) : Tx.Harmless (withTx body) :=
  Tx.harmless_atomically body

/-! ## Runs that are evaluated -/

/-- The database after a list of calls. -/
def Db.after (crates : Crates) (ops : List Op) : Db := ops.foldl (Op.step crates) Db.empty

/-- The calls of a list, each of which meets `ok` in the state before it. -/
def AllMeet (crates : Crates) (ok : Db → Op → Prop) : List Op → Db → Prop
  | [], _ => True
  | op :: ops, db => ok db op ∧ AllMeet crates ok ops (op.step crates db)

instance (crates : Crates) (ok : Db → Op → Prop) [∀ db op, Decidable (ok db op)] :
    ∀ (ops : List Op) (db : Db), Decidable (AllMeet crates ok ops db)
  | [], _ => inferInstanceAs (Decidable True)
  | op :: ops, db =>
      have := instDecidableAllMeet crates ok ops (op.step crates db)
      inferInstanceAs (Decidable (ok db op ∧ AllMeet crates ok ops (op.step crates db)))

theorem reachableBy_after {crates : Crates} {ok : Db → Op → Prop} {ops : List Op}
    (h : AllMeet crates ok ops Db.empty) : ReachableBy crates ok (Db.after crates ops) := by
  have hrun : ∀ (ops : List Op) (db : Db), AllMeet crates ok ops db →
      LeadsBy crates ok db (ops.foldl (Op.step crates) db) := by
    intro ops
    induction ops with
    | nil => exact fun _ _ => .refl
    | cons op ops ih =>
        intro db hmeet
        exact Relation.ReflTransGen.head ⟨op, hmeet.1, rfl⟩ (ih _ hmeet.2)
  exact hrun ops Db.empty h

theorem reachable_after (crates : Crates) (ops : List Op) :
    Reachable crates (Db.after crates ops) := by
  refine reachableBy_after ?_
  have hall : ∀ (ops : List Op) (db : Db), AllMeet crates (fun _ _ => True) ops db := by
    intro ops
    induction ops with
    | nil => exact fun _ => trivial
    | cons op ops ih => exact fun db => ⟨trivial, ih _⟩
  exact hall ops Db.empty

/-- A printer for values without floats. -/
def printer : Crates := ⟨fun _ => "0.0", fun _ => none, fun _ => none, fun _ => none⟩

/-- Third-party code that can parse the texts of the values it is given. -/
def Crates.knowing (values : List Value) : Crates where
  floatText := printer.floatText
  fromStr text := values.find? fun v => canonicalJson printer v = text
  parseUrl _ := none
  extractTraceId _ := none

instance ten_neZero : NeZero 10 := ⟨by decide⟩

def sampleUuid (n : Fin 10) : Uuid where
  text := "00000000-0000-4000-8000-00000000000" ++ toString n.val
  isUuid := by
    revert n
    decide

/-- An event a build server sends. -/
def sampleEnvelope (id : String) : Value :=
  .object [("data", .object []), ("id", .string id), ("source", .string "ci"),
    ("type", .string "build.finished")]

def sampleCrates : Crates :=
  .knowing [sampleEnvelope "build-1", sampleEnvelope "build-2", .object []]

/-- A route is registered, and a build server delivers two events over it. -/
def sampleOps : List Op :=
  [.bind "deploy" "conversation-1" "shared-local" ["ci"],
    .ingest "deploy" (sampleEnvelope "build-1") (sampleUuid 1) 10,
    .ingest "deploy" (sampleEnvelope "build-2") (sampleUuid 2) 11]

/-- The first event is tracked as a request, which its source acknowledges. -/
def sampleRequestOps : List Op :=
  sampleOps ++
    [.requestCreate "conversation-1" "ci" "job-1" (sampleUuid 1).text (.object []) (some (.finite 50))
      (sampleUuid 3) 12,
    .requestUpdate "conversation-1" "ci" "job-1" "seen" "acknowledged" none none 13]

end CodexMonitor
