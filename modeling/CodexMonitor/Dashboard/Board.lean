import CodexMonitor.Dashboard.Rows

/-!
# Drawing the dashboard

`build` draws the project cards and, over them, the details of one conversation, into
a board of cells, and notes which cells answer a click.  Every index and every sum of
the source is one of `Checked`'s, in the source's order, so the model panics where the
code would.
-/

namespace CodexMonitor.Dashboard

open Checked

/-- What a click on a cell is for. -/
inductive Hit
  | conversation (i : Nat)
  | project (i : Nat)
  | action (i : Nat)
deriving DecidableEq, Repr

/-- A board: `height` rows of `width` cells, and the cells that answer a click. -/
structure Board where
  width : Nat
  height : Nat
  cells : List (List String)
  hits : Nat × Nat → Option Hit
  rows_eq : cells.length = height
  columns_eq : ∀ row ∈ cells, row.length = width

abbrev Draw := Code Board

namespace Board

def new (w h : Nat) : Board where
  width := w
  height := h
  cells := List.replicate h (List.replicate w " ")
  hits _ := none
  rows_eq := List.length_replicate
  columns_eq row hrow := by rw [List.eq_of_mem_replicate hrow, List.length_replicate]

/-- `cells[y][x] = text`, for a cell that is there. -/
def setCell (b : Board) (y x : Nat) (text : String) : Board where
  width := b.width
  height := b.height
  cells := b.cells.modify y fun row => row.set x text
  hits := b.hits
  rows_eq := by rw [List.length_modify, b.rows_eq]
  columns_eq row hrow := by
    obtain ⟨i, hi⟩ := List.mem_iff_getElem?.mp hrow
    rw [List.getElem?_modify] at hi
    obtain ⟨old, hold, hset⟩ := Option.map_eq_some_iff.mp hi
    have hlength := b.columns_eq old (List.mem_of_getElem? hold)
    split at hset
    · rw [← hset, List.length_set, hlength]
    · rw [← hset]
      exact hlength

/-- `hits.insert((x, y), target)`. -/
def mark (b : Board) (x y : Nat) (target : Hit) : Board :=
  { b with hits := fun at_ => if at_ = (x, y) then some target else b.hits at_ }

/-- `hits.clear()`. -/
def clearHits (b : Board) : Board := { b with hits := fun _ => none }

end Board

/-! ## Drawing -/

/-- `self.cells[y][x] = text`. -/
def setCell (y x : Nat) (text : String) : Draw Unit := do
  let rows ← read Board.cells
  let row ← item rows y
  let _ ← item row x
  write fun b => b.setCell y x text

/-- The characters of a text from column `col` on. -/
def textFrom (terminal : Terminal) (x y max : Nat) : List Char → Nat → Draw Unit
  | [], _ => pure ()
  | c :: cs, col =>
      let n := terminal.columns c
      if n = 0 then textFrom terminal x y max cs col
      else do
        let width ← read Board.width
        let stop ← add col n
        if width < stop then pure ()
        else do
          let stop ← add col n
          let edge ← add x max
          if edge < stop then pure ()
          else do
            setCell y col (String.singleton c)
            each (fun i => do
              let beside ← add col i
              setCell y beside "") (upTo 1 n)
            let col ← add col n
            textFrom terminal x y max cs col

def text (terminal : Terminal) (x y : Nat) (s : String) (max : Nat) : Draw Unit := do
  let height ← read Board.height
  if height ≤ y then pure ()
  else textFrom terminal x y max (s.toList.filter fun c => !isControl c) x

def line (terminal : Terminal) (x y w : Nat) (s : String) : Draw Unit := text terminal x y s w

/-- `"─".repeat(n)`. -/
def rule (n : Nat) : String := String.ofList (List.replicate n '─')

def boxAt (terminal : Terminal) (x y w h : Nat) (title : String) : Draw Unit :=
  if w < 2 ∨ h < 2 then pure ()
  else do
    let inner ← sub w 2
    text terminal x y ("╭" ++ rule inner ++ "╮") w
    let bottom ← add y h
    let bottom ← sub bottom 1
    let inner ← sub w 2
    text terminal x bottom ("╰" ++ rule inner ++ "╯") w
    let first ← add y 1
    let last ← add y h
    let last ← sub last 1
    each (fun r => do
      text terminal x r "│" 1
      let right ← add x w
      let right ← sub right 1
      text terminal right r "│" 1) (upTo first last)
    let left ← add x 2
    text terminal left y title (w - 4)

def hit (x y w : Nat) (target : Hit) : Draw Unit := do
  let height ← read Board.height
  if y < height then do
    let stop ← add x w
    let width ← read Board.width
    each (fun c => write fun b => b.mark c y target) (upTo x (min stop width))
  else pure ()

/-! ## The head of the board -/

/-- The arguments of `build`. -/
structure View where
  snapshot : Value
  rows : List Value
  selected : Nat
  route : Nat
  detail : Bool
  menu : Bool
  action : Nat
  scroll : Nat
  notice : String
  confirming : Bool
  width : Nat
  height : Nat

def failures (rows : List Value) : Nat :=
  rows.countP fun r => ready r = "Execution error" ∨ ready r = "Login required"

def unchecked (rows : List Value) : Nat := rows.countP fun r => ready r = "Needs review"

def decisions (rows : List Value) : Nat :=
  rows.countP fun r => ready r ∈ ["Approval needed", "Response needed"]

/-- What waits on each enabled route. -/
def pendingCounts (rows : List Value) : List Nat :=
  ((rows.flatMap routesOf).filter isEnabled).map fun r =>
    (field (field (field r "events") "counts") "pending").asU64.getD 0

/-- `sum`. -/
def sum {σ : Type} (counts : List Nat) : Code σ Nat := fold add 0 counts

def drawTitle (terminal : Terminal) (view : View) (w : Nat) : Draw Unit := do
  let room ← sub w 2
  text terminal 1 0
    (if isTrue (field view.snapshot "dashboard_update_available") then
      "UPDATE INSTALLED · q then reopen codex-monitor dashboard"
    else "CODEX MONITOR · Rust") room

/-- The four metrics of a wide board. -/
def drawMetric (terminal : Terminal) (w i : Nat) (title value : String) : Draw Unit := do
  let step ← div w 4
  let x ← mul i step
  boxAt terminal x 2 step 3 title
  let x ← mul i step
  let x ← add x 2
  let room ← sub step 4
  text terminal x 3 value room

/-- The metrics, or one line of them on a small board; the answer is the first free row. -/
def drawMetrics (terminal : Terminal) (view : View) (w h pending : Nat) : Draw Nat :=
  let failed := failures view.rows
  let waiting := decisions view.rows
  if 76 ≤ w ∧ 20 ≤ h then do
    let receiver :=
      if isTrue (field (field view.snapshot "receiver") "ready") then "Online" else "Unavailable"
    each (fun metric => drawMetric terminal w metric.2 metric.1.1 metric.1.2)
      [("RECEIVER", receiver), ("ATTENTION", s!"{waiting} waiting · {failed} failed"),
        ("DELIVERY", s!"{pending} pending"),
        ("VERIFICATION", s!"{unchecked view.rows} unchecked")].zipIdx
    pure 6
  else do
    let room ← sub w 2
    text terminal 1 1
      s!"{view.rows.length} conversations · {waiting} waiting · {failed} failed" room
    pure 3

/-- `{:.1}`: the nearest tenth, ties to the even one. -/
def tenths (q : Rat) : String :=
  let scaled := |q| * 10
  let low := scaled.floor.toNat
  let rest := scaled - low
  let digits := if rest < 1 / 2 ∨ (rest = 1 / 2 ∧ low % 2 = 0) then low else low + 1
  (if q < 0 then "-" else "") ++ s!"{digits / 10}.{digits % 10}"

def process (view : View) : Value := field (field view.snapshot "resources") "process"

def drawResources (terminal : Terminal) (view : View) (w top : Nat) : Draw Nat :=
  if isTrue (field (process view) "available") then do
    let room ← sub w 2
    text terminal 1 top
      ("Monitor " ++ tenths (((f64Of (field (process view) "rss_bytes")).getD 0) / 1048576) ++
        " MiB · " ++ tenths ((f64Of (field (process view) "cpu_percent")).getD 0) ++ "% CPU · " ++
        canonicalJson terminal.crates (field (process view) "processes") ++
        " processes (receiver tree)") room
    add top 1
  else pure top

def drawAlert (terminal : Terminal) (view : View) (w top : Nat) : Draw Nat :=
  if 2 ≤ (field (process view) "consecutive_zombie_samples").asU64.getD 0 then do
    let room ← sub w 2
    text terminal 1 top "RESOURCE ALERT: persistent zombies; inspect sampler reaping" room
    add top 1
  else pure top

def drawOldest (terminal : Terminal) (view : View) (w h top : Nat) : Draw Nat :=
  if 32 ≤ h then do
    let oldest := greatest (((view.rows.flatMap routesOf).filter isEnabled).filterMap fun r =>
      f64Of (field (field r "events") "oldest_unresolved_age_seconds"))
    let room ← sub w 2
    text terminal 1 top
      ("Oldest unresolved: " ++ (oldest.map age).getD "None" ++
        " · queue acceptance is not a completed reply") room
    add top 1
  else pure top

/-- The first rows that need attention, each with its index. -/
def issues (rows : List Value) : List (Value × Nat) :=
  (rows.zipIdx.filter fun entry => ready entry.1 ∈ ["Execution error", "Previous failure",
    "Login required", "Approval needed", "Response needed", "Needs review"]).take 4

def drawIssue (terminal : Terminal) (w top n : Nat) (r : Value) (i : Nat) : Draw Unit := do
  let y ← add top 1
  let y ← add y n
  let room ← sub w 4
  text terminal 2 y
    (strOr (field r "project") "" ++ " / " ++ strOr (field r "name") "" ++ " · " ++ ready r) room
  let y ← add top 1
  let y ← add y n
  let room ← sub w 2
  hit 1 y room (.conversation i)

def drawIssues (terminal : Terminal) (view : View) (w h top : Nat) : Draw Nat :=
  let found := issues view.rows
  if !found.isEmpty ∧ 20 ≤ h then do
    let count := min found.length 2
    let tall ← add count 2
    boxAt terminal 0 top w tall "NEEDS ATTENTION"
    each (fun entry => drawIssue terminal w top entry.2 entry.1.1 entry.1.2)
      (found.take count).zipIdx
    let tall ← add count 3
    add top tall
  else pure top

/-! ## Project cards -/

/-- `groups.entry(project).or_default().push(i)`. -/
def addIndex (project : String) (i : Nat) :
    List (String × List Nat) → List (String × List Nat)
  | [] => [(project, [i])]
  | (name, indices) :: rest =>
      if project = name then (name, indices ++ [i]) :: rest
      else if project < name then (project, [i]) :: (name, indices) :: rest
      else (name, indices) :: addIndex project i rest

/-- The rows of each project, in the order of the project names. -/
def groups (rows : List Value) : List (String × List Nat) :=
  rows.zipIdx.foldl (fun found entry =>
    addIndex (strOr (field entry.1 "project") "Ungrouped") entry.2 found) []

/-- A project's card on the endless sheet that the board shows a part of. -/
structure Panel where
  x : Nat
  y : Nat
  width : Nat
  height : Nat
  project : String
  indices : List Nat
deriving DecidableEq, Repr

/-- `min_by_key(|c| ys[*c])`: the first column that is filled least. -/
def leastColumn (ys : List Nat) (columns : List Nat) : Draw (Option (Nat × Nat)) :=
  fold (fun best c => do
    let y ← item ys c
    pure (match best with
      | some (c', y') => if y < y' then some (c, y) else some (c', y')
      | none => some (c, y))) none columns

/-- The row of the selected conversation, if it is on the card. -/
def selectedRow (view : View) (y selectedY : Nat) (indices : List Nat) : Draw Nat :=
  fold (fun selectedY entry =>
    if entry.1 = view.selected then do
      let row ← add y 3
      let below ← mul entry.2 2
      add row below
    else pure selectedY) selectedY indices.zipIdx

/-- Put each project's card under the shortest column. -/
def placePanels (view : View) (columns cardw : Nat) : List (String × List Nat) → List Nat →
    List Panel → Nat → Draw (List Panel × Nat)
  | [], _, panels, selectedY => pure (panels, selectedY)
  | (project, indices) :: rest, ys, panels, selectedY => do
      let least ← leastColumn ys (upTo 0 columns)
      let col ← unwrap (least.map Prod.fst)
      let y ← item ys col
      let height ← mul indices.length 2
      let height ← add height 4
      let selectedY ← selectedRow view y selectedY indices
      let x ← mul col cardw
      let taken ← add height 1
      let bottom ← item ys col
      let bottom ← add bottom taken
      let ys ← setItem ys col bottom
      placePanels view columns cardw rest ys (panels ++ [⟨x, y, cardw, height, project, indices⟩])
        selectedY

/-- A card's border, when its first row is on the board. -/
def drawBorder (terminal : Terminal) (top : Nat) (panel : Panel) (shifted : Int) : Draw Unit :=
  if toSigned top ≤ shifted then
    boxAt terminal panel.x (toUnsigned shifted) panel.width panel.height
      s!"{panel.project} · {panel.indices.length} conversations"
  else pure ()

/-- `project_y >= top as isize && (project_y as usize) < h - 1`. -/
def onBoard (top h : Nat) (row : Int) : Draw Bool :=
  if toSigned top ≤ row then do
    let last ← sub h 1
    pure (toUnsigned row < last)
  else pure false

/-- The saved access of a card's conversations. -/
def savedAccess (view : View) (panel : Panel) : Draw String := do
  let managed ← fold (fun found i => do
    let row ← item view.rows i
    pure (if (routesOf row).any fun r =>
        permissionRoute r && !isText (field r "endpoint") "shared-local"
      then found ++ [i] else found)) [] panel.indices
  let saved ← fold (fun found i => do
    let row ← item view.rows i
    let access ← permission row
    pure (found ++ [access])) [] managed
  let saved := textSet saved
  if saved.isEmpty then pure "Access unknown"
  else if saved.length = 1 then unwrap saved.head?
  else pure "Mixed defaults"

/-- A card's line for the project itself. -/
def drawProject (terminal : Terminal) (view : View) (panel : Panel) (projectY : Int) :
    Draw Unit := do
  let saved ← savedAccess view panel
  let x ← add panel.x 2
  text terminal x (toUnsigned projectY) s!"[p Permissions] Saved: {saved}" (panel.width - 4)
  match panel.indices.head? with
  | some first => do
      let x ← add panel.x 1
      let room ← sub panel.width 2
      hit x (toUnsigned projectY) room (.project first)
  | none => pure ()

/-- … when it is on the board. -/
def drawProjectLine (terminal : Terminal) (view : View) (h top : Nat) (panel : Panel)
    (projectY : Int) : Draw Unit := do
  let shown ← onBoard top h projectY
  if shown then drawProject terminal view panel projectY else pure ()

/-- A card's two lines for a conversation. -/
def drawConversation (terminal : Terminal) (view : View) (panel : Panel) (i py : Nat) :
    Draw Unit := do
  let r ← item view.rows i
  let x ← add panel.x 2
  text terminal x py
    ((if i = view.selected then "›" else " ") ++ " " ++ strOr (field r "name") "")
    (panel.width - 21)
  let x ← add panel.x (panel.width - 18)
  text terminal x py (ready r) 16
  let x ← add panel.x 4
  let below ← add py 1
  text terminal x below (lastSeen terminal r) (panel.width - 6)
  let x ← add panel.x 1
  let room ← sub panel.width 2
  hit x py room (.conversation i)
  let x ← add panel.x 1
  let below ← add py 1
  let room ← sub panel.width 2
  hit x below room (.conversation i)

/-- The part of a card that is on the board. -/
def drawPanel (terminal : Terminal) (view : View) (h top offset : Nat) (panel : Panel) :
    Draw Unit := do
  let shifted ← subSigned (toSigned panel.y) (toSigned offset)
  drawBorder terminal top panel shifted
  let projectY ← addSigned shifted 1
  drawProjectLine terminal view h top panel projectY
  each (fun entry => do
    let base ← addSigned shifted 3
    let below ← mul entry.2 2
    let py ← addSigned base (toSigned below)
    let shown ← onBoard top h py
    if shown then drawConversation terminal view panel entry.1 (toUnsigned py) else pure ())
    panel.indices.zipIdx

/-- The project cards below row `top`. -/
def drawCards (terminal : Terminal) (view : View) (w h top : Nat) : Draw Unit := do
  let share ← div w 55
  let columns := max 1 (min share 3)
  let cardw ← div w columns
  let (panels, selectedY) ← placePanels view columns cardw (groups view.rows)
    (List.replicate columns top) [] top
  let offset := selectedY - (h - 4)
  each (drawPanel terminal view h top offset) panels

/-! ## Details -/

structure Button where
  index : Nat
  label : String
  size : Nat
deriving DecidableEq, Repr

/-- The labels of the buttons; a confirmation replaces one of them. -/
def shownLabels (view : View) (enabled : Bool) : Draw (List String) :=
  if view.confirming then
    if view.menu then do
      let label ← item ["Confirm Full Access", "Confirm Read-only", "Confirm Project Access"]
        (min view.action 2)
      setItem (labels view.menu enabled) (min view.action 2) label
    else setItem (labels view.menu enabled) 3 "Confirm reconnect"
  else pure (labels view.menu enabled)

/-- `used > 0 && used + size + 1 > dw - 4`. -/
def breaksButtons (dw used size : Nat) : Draw Bool :=
  if 0 < used then do
    let stop ← add used size
    let stop ← add stop 1
    let room ← sub dw 4
    pure (room < stop)
  else pure false

/-- `buttons.last_mut().unwrap().push(button)`. -/
def pushButton (buttons : List (List Button)) (button : Button) : Draw (List (List Button)) := do
  let last ← unwrap buttons.getLast?
  pure (buttons.dropLast ++ [last ++ [button]])

/-- The buttons in rows that fit the panel. -/
def layoutButtons (dw : Nat) : List (String × Nat) → List (List Button) → Nat →
    Draw (List (List Button))
  | [], buttons, _ => pure buttons
  | (label, i) :: rest, buttons, used => do
      let size ← add label.utf8ByteSize 4
      let room ← sub dw 4
      let size := min size room
      let full ← breaksButtons dw used size
      let (buttons, used) := if full then (buttons ++ [[]], 0) else (buttons, used)
      let buttons ← pushButton buttons ⟨i, label, size⟩
      let step ← add size (if 0 < used then 1 else 0)
      let used ← add used step
      layoutButtons dw rest buttons used

/-- `lines.insert(at, text)`, when there is something to insert. -/
def insertLine {σ : Type} (lines : List String) (i : Nat) : Option String → Code σ (List String)
  | some line => insertItem lines i line
  | none => pure lines

/-- What the details say about a connection. -/
def connectionLines {σ : Type} (view : View) (row binding : Value) : Code σ (List String) := do
  let routes := routesOf row
  let which ← rem view.route (max routes.length 1)
  let which ← add which 1
  let owner := health binding
  let lines := [ready row,
    "Saved permissions (server/resident defaults): " ++
      strOr (field (field binding "permission") "label") "Access unknown",
    "Saved service settings; current runtime permissions are not verified by this label.",
    "Server: " ++ strOr (field binding "endpoint") "unknown",
    s!"Connection {which}/{routes.length}: " ++ strOr (field binding "name") "" ++ " (" ++
      (if isEnabled binding then "enabled" else "paused") ++ ")"]
  let lines ← insertLine lines 1
    (if isText (field (field owner "attention") "status") "required" then
      some (strOr (field owner "reason") "Open in Codex to review and respond.") else none)
  let lines ← insertLine lines 1
    (if isText (field (field owner "execution_error") "status") "observed" then
      some ("LAST TURN ERROR: " ++ strOr (field (field owner "execution_error") "message")
        "Recent error details unavailable. Open in Codex to inspect.") else none)
  insertLine lines 1 ((field (field owner "current_auth") "status").asStr.map fun status =>
    s!"Current server login: {status}. " ++ strOr (field owner "reason") "")

/-- What the details say about changing a project's permissions. -/
def permissionLines {σ : Type} (view : View) (row binding : Value) : Code σ (List String) := do
  let access ← permission row
  let saved := field binding "permission"
  let lines := ["CHANGE PROJECT PERMISSIONS", s!"Current saved mode: {access}",
    "Server: " ++ strOr (field binding "endpoint") "unknown",
    "This changes ALL conversations using this server, including other projects. It does not " ++
      "change only this conversation.",
    "Full Access: unrestricted filesystem and command networking. Approval policy and OS sudo " ++
      "privileges stay unchanged.",
    "Read-only: no filesystem writes or command networking.",
    "Project Access: workspace writes and internet; configured writable roots are preserved.",
    "Settings persist until changed. Choose a mode to preview affected conversations; choose " ++
      "the same mode again to apply."]
  let lines ← insertItem lines 2 (permissionScope saved)
  let lines ← insertItem lines 3
    ("Saved working directory: " ++ strOr (field saved "working_directory") "not specified")
  let lines ← insertItem lines 4 ("Saved additional writable roots: " ++
    strOr (field saved "additional_writable_roots") "not specified in owner arguments")
  insertItem lines 2 ((projectPermissionBlocker view.snapshot
    (strOr (field row "project") "Ungrouped")).getD
      ("Choose a mode to preview the project change. The same choice a second time confirms it; " ++
        "all conversations on the shared server are restarted."))

/-- The lines of the open menu, or those of the connection with some advice. -/
def menuLines {σ : Type} (view : View) (row binding : Value) (connection : List String) :
    Code σ (List String) :=
  if view.menu then permissionLines view row binding
  else pure (connection ++ ["",
    "Reconnect reloads the current login for this shared server. It preserves permissions and " ++
      "does not replay failed input.",
    "Change permissions from the project card (p). The setting applies to the whole shared " ++
      "server.",
    "Project Access allows project writes and internet access; external setup paths remain " ++
      "restricted."])

/-- The texts of the details, before they are wrapped. -/
def detailLines {σ : Type} (view : View) (row binding : Value) : Code σ (List String) := do
  let connection ← connectionLines view row binding
  let shown ← menuLines view row binding connection
  pure (if view.notice.isEmpty then shown else view.notice :: "" :: shown)

def drawButton (terminal : Terminal) (view : View) (bx y : Nat) (button : Button) : Draw Unit := do
  let chosen := button.index = view.action
  text terminal bx y
    ((if chosen then "▶" else "[") ++ " " ++ button.label ++ " " ++ (if chosen then "◀" else "]"))
    button.size
  hit bx y button.size (.action button.index)

/-- A row of buttons from column `bx` on. -/
def drawButtons (terminal : Terminal) (view : View) (buttonTop n : Nat) : List Button → Nat →
    Draw Unit
  | [], _ => pure ()
  | button :: rest, bx => do
      let y ← add buttonTop n
      drawButton terminal view bx y button
      let step ← add button.size 1
      let bx ← add bx step
      drawButtons terminal view buttonTop n rest bx

/-- The lines of the details that fit above the buttons, from the scroll position on. -/
def drawLines (terminal : Terminal) (view : View) (x y dw buttonTop : Nat) (lines : List String) :
    Draw Unit := do
  let head ← add y 3
  let slots := buttonTop - head
  each (fun entry => do
    let left ← add x 3
    let row ← add y 1
    let row ← add row entry.2
    let room ← sub dw 6
    text terminal left row entry.1 room)
    ((lines.drop (min view.scroll (lines.length - slots))).take slots).zipIdx
  if slots < lines.length then do
    let left ← add x 3
    let row ← sub buttonTop 1
    let room ← sub dw 6
    text terminal left row
      (if view.menu then "↑↓ scroll project permissions"
      else "↑↓ scroll details · Tab next connection") room
  else pure ()

/-- An empty panel in the middle of the board. -/
def clearPanel (x y dw dh : Nat) : Draw Unit := do
  let bottom ← add y dh
  each (fun r => do
    let right ← add x dw
    each (fun c => setCell r c " ") (upTo x right)) (upTo y bottom)
  write Board.clearHits

/-- The details of a conversation, over the cards. -/
def drawDetail (terminal : Terminal) (view : View) (w h : Nat) (row : Value) : Draw Unit := do
  let routes := routesOf row
  let pick ← rem view.route (max routes.length 1)
  let binding := routes[pick]?.getD (.object [])
  let dw := min w 112
  let dh := min h 26
  let x ← sub w dw
  let x ← div x 2
  let y ← sub h dh
  let y ← div y 2
  clearPanel x y dw dh
  boxAt terminal x y dw dh
    (if view.menu then strOr (field row "project") "Ungrouped" ++ " / Project permissions"
    else strOr (field row "project") "" ++ " / " ++ strOr (field row "name") "")
  let shown ← shownLabels view (isEnabled binding)
  let buttons ← layoutButtons dw shown.zipIdx [[]] 0
  let buttonTop ← add y dh
  let buttonTop ← sub buttonTop 2
  let buttonTop ← sub buttonTop buttons.length
  let said ← detailLines view row binding
  let lines ← fold (fun found l => do
    let room ← sub dw 6
    let wrapped ← wrap terminal l room
    pure (found ++ wrapped)) [] said
  drawLines terminal view x y dw buttonTop lines
  each (fun entry => do
    let bx ← add x 2
    drawButtons terminal view buttonTop entry.2 entry.1 bx) buttons.zipIdx
  let left ← add x 2
  let bottom ← add y dh
  let bottom ← sub bottom 2
  let room ← sub dw 4
  text terminal left bottom "←→ action · Enter select · Esc back" room

/-! ## The board -/

/-- The board's text under the cards, and the details when they are open. -/
def drawFoot (terminal : Terminal) (view : View) (w h : Nat) : Draw Unit := do
  let last ← sub h 1
  line terminal 0 last w "↑↓ select · Enter details · p project permissions · q quit"
  if view.detail then
    match view.rows[view.selected]? with
    | some row => drawDetail terminal view w h row
    | none => pure ()
  else if view.notice.isEmpty then pure ()
  else do
    let last ← sub h 2
    let room ← sub w 2
    line terminal 1 last room view.notice

def draw (terminal : Terminal) (view : View) (w h : Nat) : Draw Unit := do
  drawTitle terminal view w
  let pending ← sum (pendingCounts view.rows)
  let top ← drawMetrics terminal view w h pending
  let top ← drawResources terminal view w top
  let top ← drawAlert terminal view w top
  let top ← drawOldest terminal view w h top
  let top ← drawIssues terminal view w h top
  drawCards terminal view w h top
  drawFoot terminal view w h

def build (terminal : Terminal) (view : View) : Except Panic Board :=
  let w := max view.width 24
  let h := max view.height 8
  ((draw terminal view w h).run (Board.new w h)).map Prod.snd

end CodexMonitor.Dashboard
