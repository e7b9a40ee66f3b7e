import CodexMonitor.Lib.Checked
import CodexMonitor.Lib.Text
import CodexMonitor.Collector.Watch
import CodexMonitor.Selection

/-!
# What a row of the dashboard says

A row is one conversation with its routes, as the receiver reports it.  The texts
the dashboard shows about a row, a project or the whole snapshot are pure functions
of JSON values of any shape; only the wrapping of long lines counts columns.
-/

namespace CodexMonitor.Dashboard

open Checked

/-- What the dashboard takes from outside: the columns of a character, none for one that is not
shown (`width().unwrap_or(0)`), the clock, and the JSON printer. -/
structure Terminal where
  columns : Char → Nat
  now : Rat
  crates : Crates

/-! ## Reading JSON -/

/-- `v[key]`: `null` when there is no such field. -/
def field (v : Value) (key : String) : Value := (v.get key).getD .null

/-- `v == true`. -/
def isTrue (v : Value) : Bool := v.asBool = some true

/-- `v == text`. -/
def isText (v : Value) (text : String) : Bool := v.asStr = some text

/-- `as_str().unwrap_or(default)`. -/
def strOr (v : Value) (default : String) : String := v.asStr.getD default

/-- `as_array().cloned().unwrap_or_default()`. -/
def itemsOf (v : Value) : List Value := v.asArray.getD []

/-- `as_f64`. -/
def f64Of : Value → Option Rat
  | .number n => some n.asF64
  | _ => none

/-- The texts of a `BTreeSet`. -/
def textSet (texts : List String) : List String := texts.dedup.insertionSort (· ≤ ·)

/-- `reduce(f64::max)`. -/
def greatest : List Rat → Option Rat
  | [] => none
  | q :: qs => some (qs.foldl max q)

/-! ## One row -/

def routesOf (row : Value) : List Value := itemsOf (field row "routes")

def isEnabled (route : Value) : Bool := isTrue (field route "enabled")

def health (route : Value) : Value := field route "owner_health"

/-- The access that the routes of a row agree on. -/
def permission {σ : Type} (row : Value) : Code σ String :=
  let all := routesOf row
  let active := all.filter isEnabled
  let labels := textSet ((if active.isEmpty then all else active).map fun b =>
    strOr (field (field b "permission") "label") "Access unknown")
  if labels.length = 1 then unwrap labels.head?
  else if labels.isEmpty then pure "Access unknown"
  else pure "Check permissions"

def ready (row : Value) : String :=
  let active := (routesOf row).filter isEnabled
  let reports := fun status : String =>
    active.any fun b => isText (field (health b) "status") status
  if active.isEmpty then "Paused"
  else if reports "auth-required" then "Login required"
  else if reports "execution-error" then "Execution error"
  else if reports "previous-execution-error" then "Previous failure"
  else if reports "waiting-for-approval" then "Approval needed"
  else if reports "waiting-for-user-input" then "Response needed"
  else if active.all fun b => isTrue (field (health b) "ready") then
    if active.any fun b => isText (field (field (health b) "thread_read") "status") "active" then
      "Running"
    else "Ready"
  else "Needs review"

def permissionRoute (r : Value) : Bool :=
  !isTrue (field r "removed") && !(!isEnabled r && isText (field r "endpoint") "shared-local")

/-- `seconds.max(0.0) as u64`. -/
def wholeSeconds (seconds : Rat) : Nat := min (max seconds 0).floor.toNat (2 ^ 64 - 1)

def age (seconds : Rat) : String :=
  let seconds := wholeSeconds seconds
  if seconds < 60 then s!"{seconds}s"
  else if seconds < 3600 then s!"{seconds / 60}m"
  else if seconds < 86400 then s!"{seconds / 3600}h {seconds % 3600 / 60}m"
  else s!"{seconds / 86400}d {seconds % 86400 / 3600}h"

def lastSeen (terminal : Terminal) (row : Value) : String :=
  let updated := (routesOf row).filterMap fun b =>
    f64Of (field (field (field b "events") "latest") "updated")
  match greatest updated with
  | some t => s!"{age (terminal.now - t)} ago"
  | none => "No delivery recorded"

def labels (menu enabled : Bool) : List String :=
  if menu then ["Full Access", "Read-only", "Project Access", "Back"]
  else ["Open in Codex", if enabled then "Pause" else "Resume", "Remove", "Reconnect", "Close"]

/-! ## A project -/

/-- Why a conversation keeps its project from changing permissions. -/
def blockingState (r : Value) : Option String :=
  let h := health r
  let read := field (field h "thread_read") "status"
  match strOr (field h "status") "" with
  | "waiting-for-approval" => some "approval needed"
  | "waiting-for-user-input" => some "response needed"
  | "auth-required" => some "login required"
  | _ =>
      if isText read "idle" || isText read "systemError" then none
      else if isText read "active" then some "running"
      else if !isEnabled r then none
      else some "state unverified"

/-- Project actions use the full snapshot, including conversations hidden by filters. -/
def projectPermissionBlocker (snapshot : Value) (project : String) : Option String :=
  let metadata := itemsOf (field snapshot "conversations")
  let routes := itemsOf (field snapshot "bindings")
  let entryOf := fun id : Value => metadata.find? fun m => Collector.Value.eq (field m "thread") id
  let projectOf := fun id : Value =>
    ((entryOf id).bind fun m => (field m "project").asStr).getD "Ungrouped"
  let endpoints := textSet ((routes.filter fun r =>
    permissionRoute r && projectOf (field r "thread") = project).filterMap fun r =>
      (field r "endpoint").asStr)
  if endpoints.length ≠ 1 then
    some ("Project permission changes require one shared server. This project's connections do " ++
      "not identify a single server.")
  else
    let shared := routes.filter fun r =>
      !isTrue (field r "removed") && endpoints.contains (strOr (field r "endpoint") "")
    let loginRequired := shared.any fun r => isText (field (health r) "status") "auth-required"
    let blocked := textSet (shared.filterMap fun r => (blockingState r).map fun state =>
      let name := (((entryOf (field r "thread")).bind fun m => (field m "display_name").asStr).or
        (field r "thread").asStr).getD "Conversation"
      s!"{name}: {state}")
    if blocked.isEmpty then none
    else
      let advice :=
        if loginRequired then
          "Sign in using the owner's Codex home, then confirm Reconnect from the affected " ++
            "conversation."
        else "Resolve decisions in Codex and wait for running conversations to finish."
      some ("Cannot apply yet: " ++ "; ".intercalate blocked ++ ". " ++ advice ++
        " This panel refreshes automatically.")

/-- The shared server's projects and conversations, as the permission change lists them. -/
def permissionScope (permission : Value) : String :=
  let projects := ", ".intercalate ((itemsOf (field permission "projects")).filterMap Value.asStr)
  let names := ", ".intercalate ((itemsOf (field permission "affected")).filterMap fun r =>
    (field r "name").asStr)
  s!"Shared server scope: {projects}. Affected conversations: {names}. All loaded conversations " ++
    "must be idle; approval policy and OS sudo privileges are not changed."

/-! ## Wrapping -/

/-- `lines`: each without the line feed that ends it and a carriage return before that. -/
def linesOf (s : String) : List (List Char) :=
  (Text.splitInclusive '\n' s.toList).map fun line =>
    let line := if line.getLast? = some '\n' then line.dropLast else line
    if line.getLast? = some '\r' then line.dropLast else line

/-- `split_whitespace`. -/
def wordsOf (line : List Char) : List (List Char) :=
  (line.splitOnP isWhitespace).filter fun word => !word.isEmpty

/-- The characters of a word: a row that is full is put out first. -/
def wrapChars {σ : Type} (terminal : Terminal) (w : Nat) : List Char → List String → List Char →
    Nat → Code σ (List String × List Char × Nat)
  | [], out, row, used => pure (out, row, used)
  | c :: cs, out, row, used => do
      let size := terminal.columns c
      let stop ← add used size
      let (out, row, used) :=
        if w < stop ∧ 0 < used then (out ++ [String.ofList row], [], 0) else (out, row, used)
      let used ← add used size
      wrapChars terminal w cs out (row ++ [c]) used

/-- The columns of a word. -/
def wordColumns {σ : Type} (terminal : Terminal) (word : List Char) : Code σ Nat :=
  fold (fun n c => add n (terminal.columns c)) 0 word

/-- `used > 0 && used + n + 1 > w`. -/
def breaksRow {σ : Type} (w used n : Nat) : Code σ Bool :=
  if 0 < used then do
    let stop ← add used n
    let stop ← add stop 1
    pure (w < stop)
  else pure false

/-- The columns of a row and the blank behind it. -/
def addBlank {σ : Type} (used : Nat) : Code σ Nat := if 0 < used then add used 1 else pure used

def wrapWords {σ : Type} (terminal : Terminal) (w : Nat) : List (List Char) → List String →
    List Char → Nat → Code σ (List String × List Char)
  | [], out, row, _ => pure (out, row)
  | word :: words, out, row, used => do
      let n ← wordColumns terminal word
      let full ← breaksRow w used n
      let (out, row, used) := if full then (out ++ [String.ofList row], [], 0) else (out, row, used)
      let used' ← addBlank used
      let row := if 0 < used then row ++ [' '] else row
      let (out, row, used) ← wrapChars terminal w word out row used'
      wrapWords terminal w words out row used

/-- The text in rows of at most `w` columns, as long as no character is wider. -/
def wrap {σ : Type} (terminal : Terminal) (s : String) (w : Nat) : Code σ (List String) :=
  fold (fun out line => do
    let (out, row) ← wrapWords terminal w (wordsOf line) out [] 0
    pure (out ++ [String.ofList row])) [] (linesOf s)

end CodexMonitor.Dashboard
