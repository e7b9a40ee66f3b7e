import CodexMonitor.Lib.Sql

/-!
# State directories of the Python runtime

The tables as the Python runtime creates them, the steps by which it upgrades older
ones in place, and the tables of the Rust store.  An added column goes last, so a
table may have one of two physical orders; for `bindings` they coincide, for
`request_notifications` they do not.
-/

namespace CodexMonitor

open Sql (Column Cell)

/-! ## The tables of the Python runtime -/

def textColumn (name : String) : Column := ⟨name, .text, true⟩

def optionalText (name : String) : Column := ⟨name, .text, false⟩

def integerColumn (name : String) : Column := ⟨name, .integer, true⟩

def realColumn (name : String) : Column := ⟨name, .real, true⟩

def optionalReal (name : String) : Column := ⟨name, .real, false⟩

namespace Legacy

def bindings : List Column :=
  [optionalText "name", textColumn "thread", textColumn "endpoint", textColumn "sources",
    integerColumn "enabled", integerColumn "removed"]

def conversationMetadata : List Column :=
  [optionalText "thread", textColumn "project", textColumn "display_name"]

def events : List Column :=
  [integerColumn "seq", textColumn "id", textColumn "binding", textColumn "source",
    textColumn "event_id", textColumn "envelope", textColumn "client_id", textColumn "state",
    realColumn "created", realColumn "updated", integerColumn "attempts", realColumn "next_at",
    optionalText "submission_id", optionalText "error"]

def decisions : List Column :=
  [integerColumn "id", textColumn "delivery_id", textColumn "action", textColumn "reason",
    realColumn "created"]

/-- The last two columns are added to every table of watches, new or old. -/
def managedWatches : List Column :=
  [optionalText "id", textColumn "thread", textColumn "name", textColumn "path",
    realColumn "interval", textColumn "binding", integerColumn "enabled", integerColumn "removed",
    textColumn "worker_state", optionalText "last_error", optionalText "last_sample_error",
    optionalText "last_delivery_id", optionalReal "worker_seen", realColumn "created",
    realColumn "updated", optionalText "condition_json", integerColumn "lifecycle_epoch",
    realColumn "debounce_seconds"]

def replies : List Column :=
  [integerColumn "seq", textColumn "id", textColumn "delivery_id", textColumn "reply_key",
    textColumn "source", textColumn "binding", textColumn "event_id", textColumn "message",
    realColumn "created", optionalReal "acknowledged"]

def requests : List Column :=
  [integerColumn "seq", textColumn "request_id", textColumn "conversation_id", textColumn "source",
    textColumn "request_key", textColumn "original_delivery_id", textColumn "original_binding",
    textColumn "payload", textColumn "state", integerColumn "revision", optionalReal "expires_at",
    optionalReal "expires_in", realColumn "created", realColumn "updated"]

def requestUpdates : List Column :=
  [integerColumn "seq", textColumn "update_id", textColumn "request_id",
    integerColumn "expected_revision", integerColumn "revision", textColumn "previous_state",
    textColumn "state", optionalText "summary", realColumn "created"]

def requestNotifications : List Column :=
  [optionalText "notification_id", textColumn "request_id", textColumn "update_id",
    integerColumn "revision", textColumn "original_binding", textColumn "source",
    textColumn "event_id", textColumn "envelope", textColumn "state", integerColumn "attempts",
    realColumn "next_at", optionalText "delivery_id", optionalText "error", realColumn "created",
    realColumn "updated"]

/-! ## Upgrades in place -/

/-- The columns of a table without one of them, as an older release created it. -/
def without (name : String) (columns : List Column) : List Column :=
  columns.filter fun column => column.name ≠ name

/-- `Monitor.__init__` on a table of routes: add the column of the tombstone. -/
def upgradeBindings (t : Sql.Table) : Sql.Table :=
  if "removed" ∈ t.columns.map Column.name then t
  else t.addColumn (integerColumn "removed") (.integer 0)

/-- `RequestStore.__init__` on a table of requests. -/
def upgradeRequests (t : Sql.Table) : Sql.Table :=
  if "expires_in" ∈ t.columns.map Column.name then t
  else t.addColumn (optionalReal "expires_in") .null

/-- The revision of the transition that a notification announces. -/
def revisionOf (updates : Sql.Table) (columns : List Column) (row : List Cell) : Cell :=
  let update := updates.rows.find? fun update =>
    Sql.cellAt updates.columns update "request_id" = Sql.cellAt columns row "request_id" ∧
      Sql.cellAt updates.columns update "update_id" = Sql.cellAt columns row "update_id"
  (update.bind fun update => Sql.cellAt updates.columns update "revision").getD .null

/-- `RequestStore.__init__` on a table of notifications: add the revision, and fill it in from the
transitions. -/
def upgradeNotifications (updates t : Sql.Table) : Except String Sql.Table :=
  if "revision" ∈ t.columns.map Column.name then .ok t
  else
    let added := t.addColumn (integerColumn "revision") (.integer 0)
    added.updateColumn "revision" (revisionOf updates added.columns)

/-- The columns of a table of notifications that was upgraded in place. -/
def upgradedNotifications : List Column :=
  without "revision" requestNotifications ++ [integerColumn "revision"]

/-- An upgraded table of routes has the columns of a new one, in the same order. -/
theorem upgradeBindings_columns {t : Sql.Table}
    (h : t.columns = bindings ∨ t.columns = without "removed" bindings) :
    (upgradeBindings t).columns = bindings := by
  unfold upgradeBindings
  rcases h with h | h
  · rw [if_pos (by rw [h]; decide)]
    exact h
  · rw [if_neg (by rw [h]; decide)]
    show t.columns ++ _ = _
    rw [h]
    decide

/-- An upgraded table of notifications keeps the order it has. -/
theorem upgradeNotifications_columns {updates t u : Sql.Table}
    (h : t.columns = requestNotifications ∨ t.columns = without "revision" requestNotifications)
    (hup : upgradeNotifications updates t = .ok u) :
    u.columns = requestNotifications ∨ u.columns = upgradedNotifications := by
  unfold upgradeNotifications at hup
  rcases h with h | h
  · rw [if_pos (by rw [h]; decide)] at hup
    obtain rfl := Except.ok.inj hup
    exact Or.inl h
  · rw [if_neg (by rw [h]; decide)] at hup
    unfold Sql.Table.updateColumn at hup
    simp only at hup
    split at hup
    · cases hup
    · obtain rfl := Except.ok.inj hup
      refine Or.inr ?_
      show t.columns ++ _ = _
      rw [h]
      rfl

/-! ## State directories -/

/-- `monitor.sqlite3`. -/
structure Monitor where
  bindings : Sql.Table
  conversationMetadata : Sql.Table
  events : Sql.Table
  decisions : Sql.Table
  managedWatches : Sql.Table

/-- `requests.sqlite3`. -/
structure Requests where
  requests : Sql.Table
  requestUpdates : Sql.Table
  requestNotifications : Sql.Table

/-- A notification as `_insert_notification` writes it: its event id starts with a word, its
envelope is an object. -/
structure Announces (columns : List Column) (row : List Cell) : Prop where
  event_id : ∃ id, Sql.cellAt columns row "event_id" = some (.text ("request-" ++ id))
  envelope : ∃ fields, Sql.cellAt columns row "envelope" = some (.text ("\x7b" ++ fields))

/-- The rows of a table with these columns. -/
structure Holds (engine : Sql.Engine) (columns : List Column) (t : Sql.Table) : Prop where
  columns_eq : t.columns = columns
  stores : ∀ row ∈ t.rows, Sql.Stores engine t.columns row

structure Monitor.Produced (engine : Sql.Engine) (m : Monitor) : Prop where
  bindings : Holds engine Legacy.bindings m.bindings
  conversationMetadata : Holds engine Legacy.conversationMetadata m.conversationMetadata
  events : Holds engine Legacy.events m.events

/-- A table of requests has its newest column last when it was upgraded in place. -/
structure Requests.Produced (engine : Sql.Engine) (r : Requests) : Prop where
  requests : Holds engine Legacy.requests r.requests ∨
    Holds engine (without "expires_in" Legacy.requests ++ [optionalReal "expires_in"]) r.requests
  requestUpdates : Holds engine Legacy.requestUpdates r.requestUpdates
  requestNotifications : Holds engine Legacy.requestNotifications r.requestNotifications ∨
    Holds engine upgradedNotifications r.requestNotifications
  announces : ∀ row ∈ r.requestNotifications.rows, Announces r.requestNotifications.columns row

end Legacy

/-! ## The tables of the Rust store -/

namespace Rust

def bindings : Sql.Table where
  columns := [optionalText "name", textColumn "thread", textColumn "endpoint",
    textColumn "sources", integerColumn "enabled", integerColumn "removed"]
  unique := [["name"]]
  rows := []

def conversationMetadata : Sql.Table where
  columns := [optionalText "thread", textColumn "project", textColumn "display_name"]
  unique := [["thread"]]
  rows := []

def events : Sql.Table where
  columns := [integerColumn "seq", textColumn "id", textColumn "binding", textColumn "source",
    textColumn "event_id", textColumn "envelope", textColumn "client_id", textColumn "state",
    realColumn "created", realColumn "updated", integerColumn "attempts", realColumn "next_at",
    optionalText "submission_id", optionalText "error"]
  unique := [["seq"], ["id"], ["client_id"], ["binding", "source", "event_id"]]
  rows := []

def managedWatches : Sql.Table where
  columns := [optionalText "id", textColumn "thread", textColumn "name", textColumn "path",
    realColumn "interval", textColumn "endpoint", realColumn "debounce", optionalText "condition",
    textColumn "binding", integerColumn "enabled", integerColumn "removed", integerColumn "epoch",
    optionalText "checkpoint", realColumn "created", realColumn "updated"]
  unique := [["id"], ["binding"]]
  rows := []

def replies : Sql.Table where
  columns := [integerColumn "seq", textColumn "id", textColumn "delivery_id",
    textColumn "reply_key", textColumn "source", textColumn "binding", textColumn "event_id",
    textColumn "message", realColumn "created", optionalReal "acknowledged"]
  unique := [["seq"], ["id"], ["delivery_id", "reply_key"]]
  rows := []

def requests : Sql.Table where
  columns := [integerColumn "seq", textColumn "request_id", textColumn "thread",
    textColumn "source", textColumn "request_key", textColumn "delivery_id", textColumn "binding",
    textColumn "payload", textColumn "state", integerColumn "revision", optionalReal "expires_at",
    realColumn "created", realColumn "updated"]
  unique := [["seq"], ["request_id"], ["thread", "source", "request_key"]]
  rows := []

def requestNotifications : Sql.Table where
  columns := [optionalText "notification_id", textColumn "request_id", textColumn "update_id",
    integerColumn "revision", textColumn "original_binding", textColumn "source",
    textColumn "event_id", textColumn "envelope", textColumn "state", integerColumn "attempts",
    realColumn "next_at", optionalText "delivery_id", optionalText "error", realColumn "created",
    realColumn "updated"]
  unique := [["notification_id"], ["request_id", "revision"]]
  rows := []

def requestUpdates : Sql.Table where
  columns := [integerColumn "seq", textColumn "request_id", textColumn "update_id",
    integerColumn "expected_revision", integerColumn "revision", textColumn "previous_state",
    textColumn "state", optionalText "detail", realColumn "created"]
  unique := [["seq"], ["request_id", "update_id"]]
  rows := []

end Rust

/-- `rust.sqlite3`, with the two tables that only a migration creates. -/
structure RustFile where
  bindings : Sql.Table
  conversationMetadata : Sql.Table
  events : Sql.Table
  managedWatches : Sql.Table
  replies : Sql.Table
  requests : Sql.Table
  requestNotifications : Sql.Table
  requestUpdates : Sql.Table
  legacyDecisions : Option Sql.Table
  legacyRequestExpiry : Option (List (List Cell))

/-- The database that `Store::open` creates. -/
def RustFile.empty : RustFile where
  bindings := Rust.bindings
  conversationMetadata := Rust.conversationMetadata
  events := Rust.events
  managedWatches := Rust.managedWatches
  replies := Rust.replies
  requests := Rust.requests
  requestNotifications := Rust.requestNotifications
  requestUpdates := Rust.requestUpdates
  legacyDecisions := none
  legacyRequestExpiry := none

end CodexMonitor
