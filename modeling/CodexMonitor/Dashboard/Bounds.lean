import Mathlib.Algebra.Order.BigOperators.Group.List
import CodexMonitor.Dashboard.Board

/-!
# The dashboard stays on its board

Whatever the data and the size, `build` indexes inside its sequences and computes in
range.  The board's size and the places of its hits are the invariant (`Sound`) that
every drawing keeps; what a drawing needs is only that its coordinates are small
against the range of an integer, not that they are on the board.
-/

namespace CodexMonitor.Dashboard

open Checked

/-- The width crate: no character takes more than two columns, and none that is one byte long
more than one. -/
structure Terminal.Narrow (terminal : Terminal) : Prop where
  le_two : ∀ c, terminal.columns c ≤ 2
  le_one : ∀ c, c.utf8Size = 1 → terminal.columns c ≤ 1

/-- A hit names a row or a button that there is. -/
def Hit.Names (rows buttons : Nat) : Hit → Prop
  | .conversation i | .project i => i < rows
  | .action i => i < buttons

/-- A board of `w` by `h` cells, with every hit on it and of something that there is. -/
structure Sound (w h rows buttons : Nat) (b : Board) : Prop where
  width_eq : b.width = w
  height_eq : b.height = h
  hits : ∀ x y target, b.hits (x, y) = some target →
    x < w ∧ y < h ∧ target.Names rows buttons

section drawing

variable {terminal : Terminal} {w h rows buttons x y max : Nat}

theorem sound_new (w h rows buttons : Nat) : Sound w h rows buttons (Board.new w h) where
  width_eq := rfl
  height_eq := rfl
  hits _ _ _ hhit := by cases hhit

theorem keeps_width : Keeps (Sound w h rows buttons) (read Board.width) fun n => n = w :=
  Keeps.read.mono fun _ ⟨_, hb, heq⟩ => heq.trans hb.width_eq

theorem keeps_height : Keeps (Sound w h rows buttons) (read Board.height) fun n => n = h :=
  Keeps.read.mono fun _ ⟨_, hb, heq⟩ => heq.trans hb.height_eq

/-- A cell of the board may be written. -/
theorem keeps_setCell (hx : x < w) (hy : y < h) (s : String) :
    Keeps (Sound w h rows buttons) (setCell y x s) fun _ => True := by
  unfold setCell
  refine Keeps.read.bind fun cells hcells => ?_
  obtain ⟨b, hb, rfl⟩ := hcells
  have hlength : y < b.cells.length := by
    rw [b.rows_eq, hb.height_eq]
    exact hy
  rw [item_eq (List.getElem?_eq_getElem hlength), returns_bind]
  have hrow : x < b.cells[y].length := by
    rw [b.columns_eq _ (List.getElem_mem hlength), hb.width_eq]
    exact hx
  rw [item_eq (List.getElem?_eq_getElem hrow), returns_bind]
  exact .write fun b hb => ⟨hb.width_eq, hb.height_eq, hb.hits⟩

theorem keeps_textFrom (hcolumns : terminal.Narrow) (hy : y < h) (hw : w < 2 ^ 62)
    (hmax : x + max < 2 ^ 64) (cs : List Char) {col : Nat} (hcol : col < 2 ^ 62) :
    Keeps (Sound w h rows buttons) (textFrom terminal x y max cs col) fun _ => True := by
  induction cs generalizing col with
  | nil => exact .pure trivial
  | cons c cs ih =>
      have htwo := hcolumns.le_two c
      rw [textFrom]
      refine .ite (fun _ => ih hcol) fun _ => ?_
      refine keeps_width.bind fun n hn => ?_
      obtain rfl := hn
      rw [add_eq (by omega), returns_bind]
      refine .ite (fun _ => .pure trivial) fun hfits => ?_
      rw [add_eq (by omega), returns_bind, returns_bind]
      refine .ite (fun _ => .pure trivial) fun _ => ?_
      refine (keeps_setCell (by omega) hy _).andThen ?_
      refine (Keeps.each fun i hi => ?_).andThen ?_
      · have hi := mem_upTo.mp hi
        rw [add_eq (by omega), returns_bind]
        exact keeps_setCell (by omega) hy _
      · rw [returns_bind]
        exact ih (by omega)

/-- A text may be written anywhere, as long as its coordinates are small. -/
theorem keeps_text (hcolumns : terminal.Narrow) (hw : w < 2 ^ 62) (hx : x < 2 ^ 62)
    (hmax : max < 2 ^ 62) (y : Nat) (s : String) :
    Keeps (Sound w h rows buttons) (text terminal x y s max) fun _ => True := by
  unfold text
  refine keeps_height.bind fun n hn => ?_
  obtain rfl := hn
  refine .ite (fun _ => .pure trivial) fun hy => ?_
  exact keeps_textFrom hcolumns (by omega) hw (by omega) _ hx

theorem keeps_boxAt (hcolumns : terminal.Narrow) (hw : w < 2 ^ 62) {wide tall : Nat}
    (hx : x + wide < 2 ^ 62) (hy : y + tall < 2 ^ 63) (title : String) :
    Keeps (Sound w h rows buttons) (boxAt terminal x y wide tall title) fun _ => True := by
  unfold boxAt
  refine .ite (fun _ => .pure trivial) fun hsize => ?_
  rw [sub_eq (by omega), returns_bind]
  refine (keeps_text hcolumns hw (by omega) (by omega) _ _).andThen ?_
  rw [add_eq (by omega), returns_bind, sub_eq (by omega), returns_bind, returns_bind]
  refine (keeps_text hcolumns hw (by omega) (by omega) _ _).andThen ?_
  rw [add_eq (by omega), returns_bind, returns_bind, sub_eq (by omega), returns_bind]
  refine (Keeps.each fun r _ => ?_).andThen ?_
  · refine (keeps_text hcolumns hw (by omega) (by omega) _ _).andThen ?_
    rw [add_eq (by omega), returns_bind, sub_eq (by omega), returns_bind]
    exact keeps_text hcolumns hw (by omega) (by omega) _ _
  · rw [add_eq (by omega), returns_bind]
    exact keeps_text hcolumns hw (by omega) (by omega) _ _

theorem keeps_hit {wide : Nat} (hx : x + wide < 2 ^ 64) (y : Nat) {target : Hit}
    (hnames : target.Names rows buttons) :
    Keeps (Sound w h rows buttons) (hit x y wide target) fun _ => True := by
  unfold hit
  refine keeps_height.bind fun n hn => ?_
  obtain rfl := hn
  refine .ite (fun hy => ?_) fun _ => .pure trivial
  rw [add_eq hx, returns_bind]
  refine keeps_width.bind fun n hn => ?_
  obtain rfl := hn
  refine Keeps.each fun c hc => .write fun b hb => ⟨hb.width_eq, hb.height_eq, ?_⟩
  intro x' y' target' hhit
  simp only [Board.mark] at hhit
  split at hhit
  · rename_i hsame
    obtain ⟨rfl, rfl⟩ := Prod.mk.inj hsame
    obtain rfl := Option.some.inj hhit
    have hc := mem_upTo.mp hc
    exact ⟨by omega, hy, hnames⟩
  · exact hb.hits x' y' target' hhit

end drawing

/-! ## The head of the board -/

section head

variable {terminal : Terminal} {view : View} {w h buttons top : Nat}

theorem keeps_sum {rows : Nat} (counts : List Nat) (hsum : counts.sum < 2 ^ 64) :
    Keeps (Sound w h rows buttons) (sum counts) fun _ => True := by
  have hfrom : ∀ n, n + counts.sum < 2 ^ 64 →
      Keeps (Sound w h rows buttons) (fold add n counts) fun _ => True := by
    clear hsum
    induction counts with
    | nil => exact fun n _ => .pure trivial
    | cons count counts ih =>
        intro n hn
        rw [List.sum_cons] at hn
        rw [fold, add_eq (by omega), returns_bind]
        exact ih (n + count) (by omega)
  exact hfrom 0 (by omega)

theorem keeps_drawTitle (hcolumns : terminal.Narrow) (hw : 24 ≤ w ∧ w < 2 ^ 31) :
    Keeps (Sound w h view.rows.length buttons) (drawTitle terminal view w) fun _ => True := by
  unfold drawTitle
  rw [sub_eq (by omega), returns_bind]
  exact keeps_text hcolumns (by omega) (by omega) (by omega) _ _

theorem keeps_drawMetric {rows : Nat} (hcolumns : terminal.Narrow) (hw : 76 ≤ w ∧ w < 2 ^ 31)
    {i : Nat} (hi : i < 4) (title value : String) :
    Keeps (Sound w h rows buttons) (drawMetric terminal w i title value) fun _ => True := by
  have hstep : i * (w / 4) ≤ 3 * (w / 4) := Nat.mul_le_mul_right _ (by omega)
  unfold drawMetric
  rw [div_eq (by decide), returns_bind, mul_eq (by omega), returns_bind]
  refine (keeps_boxAt hcolumns (by omega) (by omega) (by omega) _).andThen ?_
  rw [returns_bind, add_eq (by omega), returns_bind, sub_eq (by omega), returns_bind]
  exact keeps_text hcolumns (by omega) (by omega) (by omega) _ _

theorem keeps_drawMetrics (hcolumns : terminal.Narrow) (hw : 24 ≤ w ∧ w < 2 ^ 31) (pending : Nat) :
    Keeps (Sound w h view.rows.length buttons) (drawMetrics terminal view w h pending)
      fun top => top ≤ 6 := by
  unfold drawMetrics
  refine .ite (fun hwide => ?_) fun _ => ?_
  · refine (Keeps.each fun metric hmetric => ?_).andThen (.pure (Nat.le_refl 6))
    have hi : metric.2 < 4 := List.snd_lt_of_mem_zipIdx hmetric
    exact keeps_drawMetric hcolumns (by omega) hi _ _
  · rw [sub_eq (by omega), returns_bind]
    exact (keeps_text hcolumns (by omega) (by omega) (by omega) _ _).andThen
      (.pure (by decide))

/-- A line of the head: nothing, or a text and one row less for the cards. -/
theorem keeps_headLine {rows : Nat} {c : Prop} [Decidable c] (hcolumns : terminal.Narrow)
    (hw : 24 ≤ w ∧ w < 2 ^ 31) {n : Nat} (htop : top ≤ n) (hn : n < 2 ^ 62) (s : String) :
    Keeps (Sound w h rows buttons)
      (if c then do
        let room ← sub w 2
        text terminal 1 top s room
        add top 1
      else pure top) fun top => top ≤ n + 1 := by
  refine .ite (fun _ => ?_) fun _ => .pure (by omega)
  rw [sub_eq (by omega), returns_bind]
  refine (keeps_text hcolumns (by omega) (by omega) (by omega) _ _).andThen ?_
  rw [add_eq (by omega)]
  exact .pure (by omega)

theorem issues_le (rows : List Value) : (issues rows).length ≤ 4 := List.length_take_le 4 _

theorem index_of_issue {rows : List Value} {entry : Value × Nat} (h : entry ∈ issues rows) :
    entry.2 < rows.length := by
  have hmem := List.mem_of_mem_filter (List.mem_of_mem_take h)
  exact List.snd_lt_of_mem_zipIdx hmem

theorem keeps_drawIssue {rows : Nat} (hcolumns : terminal.Narrow) (hw : 24 ≤ w ∧ w < 2 ^ 31)
    (htop : top ≤ 9) {n : Nat} (hn : n ≤ 4) (r : Value) {i : Nat} (hi : i < rows) :
    Keeps (Sound w h rows buttons) (drawIssue terminal w top n r i) fun _ => True := by
  unfold drawIssue
  rw [add_eq (by omega), returns_bind, add_eq (by omega), returns_bind, sub_eq (by omega),
    returns_bind]
  refine (keeps_text hcolumns (by omega) (by omega) (by omega) _ _).andThen ?_
  rw [returns_bind, add_eq (by omega), returns_bind, sub_eq (by omega), returns_bind]
  exact keeps_hit (by omega) _ hi

theorem keeps_drawIssues (hcolumns : terminal.Narrow) (hw : 24 ≤ w ∧ w < 2 ^ 31)
    (htop : top ≤ 9) :
    Keeps (Sound w h view.rows.length buttons) (drawIssues terminal view w h top)
      fun top => top ≤ 14 := by
  have hfound := issues_le view.rows
  unfold drawIssues
  refine .ite (fun _ => ?_) fun _ => .pure (by omega)
  dsimp only
  rw [add_eq (by omega), returns_bind]
  refine (keeps_boxAt hcolumns (by omega) (by omega) (by omega) _).andThen ?_
  refine (Keeps.each fun entry hentry => ?_).andThen ?_
  · have hn := List.snd_lt_of_mem_zipIdx hentry
    rw [List.length_take] at hn
    have hissue := List.mem_of_mem_take (List.fst_mem_of_mem_zipIdx hentry)
    exact keeps_drawIssue hcolumns hw htop (by omega) _ (index_of_issue hissue)
  · rw [add_eq (by omega), returns_bind, add_eq (by omega)]
    exact .pure (by omega)

end head

/-! ## Where the cards go -/

/-- The rows of the sheet that some cards take, with the blank row below each. -/
def sheet (found : List (String × List Nat)) : Nat :=
  (found.map fun group => group.2.length * 2 + 5).sum

theorem sheet_addIndex (project : String) (i : Nat) (found : List (String × List Nat)) :
    sheet (addIndex project i found) ≤ sheet found + 7 := by
  induction found with
  | nil => simp [addIndex, sheet]
  | cons group rest ih =>
      obtain ⟨name, indices⟩ := group
      rw [addIndex]
      by_cases hsame : project = name
      · rw [if_pos hsame]
        simp only [sheet, List.map_cons, List.sum_cons, List.length_append, List.length_singleton]
        omega
      rw [if_neg hsame]
      by_cases hbefore : project < name
      · rw [if_pos hbefore]
        simp only [sheet, List.map_cons, List.sum_cons, List.length_singleton]
        omega
      · rw [if_neg hbefore]
        simp only [sheet, List.map_cons, List.sum_cons] at ih ⊢
        omega

theorem mem_addIndex {project : String} {i : Nat} {found : List (String × List Nat)}
    {group : String × List Nat} (h : group ∈ addIndex project i found) {j : Nat}
    (hj : j ∈ group.2) : j = i ∨ ∃ old ∈ found, j ∈ old.2 := by
  induction found with
  | nil =>
      obtain rfl := List.mem_singleton.mp h
      exact Or.inl (List.mem_singleton.mp hj)
  | cons first rest ih =>
      obtain ⟨name, indices⟩ := first
      rw [addIndex] at h
      have hold : ∀ old ∈ (name, indices) :: rest, j ∈ old.2 →
          j = i ∨ ∃ old ∈ (name, indices) :: rest, j ∈ old.2 :=
        fun old hmem hj => Or.inr ⟨old, hmem, hj⟩
      by_cases hsame : project = name
      · rw [if_pos hsame] at h
        rcases List.mem_cons.mp h with rfl | h
        · rcases List.mem_append.mp hj with hj | hj
          · exact hold _ List.mem_cons_self hj
          · exact Or.inl (List.mem_singleton.mp hj)
        · exact hold group (List.mem_cons_of_mem _ h) hj
      rw [if_neg hsame] at h
      by_cases hbefore : project < name
      · rw [if_pos hbefore] at h
        rcases List.mem_cons.mp h with rfl | h
        · exact Or.inl (List.mem_singleton.mp hj)
        · exact hold group h hj
      · rw [if_neg hbefore] at h
        rcases List.mem_cons.mp h with rfl | h
        · exact hold _ List.mem_cons_self hj
        · rcases ih h with rfl | ⟨old, hmem, hj⟩
          · exact Or.inl rfl
          · exact hold old (List.mem_cons_of_mem _ hmem) hj

/-- The cards of all rows, and the rows they name. -/
theorem groups_fit (rows : List Value) :
    sheet (groups rows) ≤ 7 * rows.length ∧
      ∀ group ∈ groups rows, ∀ i ∈ group.2, i < rows.length := by
  have hfrom : ∀ (entries : List (Value × Nat)) (found : List (String × List Nat)),
      (∀ entry ∈ entries, entry.2 < rows.length) →
      (∀ group ∈ found, ∀ i ∈ group.2, i < rows.length) →
      sheet (entries.foldl (fun found entry =>
          addIndex (strOr (field entry.1 "project") "Ungrouped") entry.2 found) found) ≤
        sheet found + 7 * entries.length ∧
      ∀ group ∈ entries.foldl (fun found entry =>
          addIndex (strOr (field entry.1 "project") "Ungrouped") entry.2 found) found,
        ∀ i ∈ group.2, i < rows.length := by
    intro entries
    induction entries with
    | nil => exact fun found _ hfound => ⟨by simp, hfound⟩
    | cons entry entries ih =>
        intro found hentries hfound
        rw [List.foldl_cons, List.length_cons]
        have hadd := sheet_addIndex (strOr (field entry.1 "project") "Ungrouped") entry.2 found
        obtain ⟨hsheet, hindices⟩ := ih
          (addIndex (strOr (field entry.1 "project") "Ungrouped") entry.2 found)
          (fun e he => hentries e (List.mem_cons_of_mem entry he)) fun group hgroup i hi => by
            rcases mem_addIndex hgroup hi with rfl | ⟨old, hold, hi⟩
            · exact hentries entry List.mem_cons_self
            · exact hfound old hold i hi
        exact ⟨by omega, hindices⟩
  obtain ⟨hsheet, hindices⟩ := hfrom rows.zipIdx []
    (fun entry hentry => List.snd_lt_of_mem_zipIdx hentry) fun _ h => by cases h
  rw [List.length_zipIdx] at hsheet
  have hnil : sheet [] = 0 := rfl
  exact ⟨by unfold groups; omega, hindices⟩

/-- A card whose place is in range. -/
structure Panel.Fits (w bottom rows : Nat) (panel : Panel) : Prop where
  wide : 2 ≤ panel.width
  right : panel.x + panel.width ≤ w
  tall : panel.height = panel.indices.length * 2 + 4
  low : panel.y + panel.height ≤ bottom
  indices : ∀ i ∈ panel.indices, i < rows

section place

variable {view : View} {w h rows buttons bottom columns : Nat}

theorem keeps_leastColumn {ys : List Nat} (hys : ys.length = columns) (hpos : 0 < columns) :
    Keeps (Sound w h rows buttons) (leastColumn ys (upTo 0 columns))
      fun best => ∃ c y, best = some (c, y) ∧ c < columns := by
  obtain ⟨n, rfl⟩ := Nat.exists_eq_succ_of_ne_zero hpos.ne'
  have hcons : upTo 0 (n + 1) = 0 :: List.range' 1 n := rfl
  have hitem : ∀ c < n + 1, ∃ y, (item ys c : Draw Nat) = pure y := fun c hc =>
    ⟨_, item_eq (List.getElem?_eq_getElem (by omega))⟩
  unfold leastColumn
  rw [Nat.succ_eq_add_one, hcons, fold]
  obtain ⟨y, hy⟩ := hitem 0 (by omega)
  rw [hy, returns_bind, returns_bind]
  refine Keeps.fold ⟨0, y, rfl, by omega⟩ ?_
  intro best c hc hbest
  obtain ⟨c', y', rfl, hc'⟩ := hbest
  have hlt : c < n + 1 := by
    rw [List.mem_range'_1] at hc
    omega
  obtain ⟨y, hy⟩ := hitem c hlt
  rw [hy, returns_bind]
  by_cases hless : y < y'
  · exact .pure ⟨c, y, if_pos hless, hlt⟩
  · exact .pure ⟨c', y', if_neg hless, hc'⟩

theorem keeps_selectedRow {y selectedY : Nat} {indices : List Nat}
    (hy : y + indices.length * 2 + 4 ≤ bottom) (hselected : selectedY ≤ bottom)
    (hbottom : bottom < 2 ^ 62) :
    Keeps (Sound w h rows buttons) (selectedRow view y selectedY indices)
      fun selectedY => selectedY ≤ bottom := by
  unfold selectedRow
  refine Keeps.fold hselected fun selectedY entry hentry hle => ?_
  have hn : entry.2 < indices.length := List.snd_lt_of_mem_zipIdx hentry
  refine .ite (fun _ => ?_) fun _ => .pure hle
  rw [add_eq (by omega), returns_bind, mul_eq (by omega), returns_bind, add_eq (by omega)]
  exact .pure (by omega)

theorem keeps_placePanels {cardw : Nat} (hcard : 2 ≤ cardw) (hpos : 0 < columns)
    (hcards : columns * cardw ≤ w) (hw : w < 2 ^ 31) (hbottom : bottom < 2 ^ 62)
    {found : List (String × List Nat)} {ys : List Nat} {panels : List Panel} {selectedY : Nat}
    (hys : ys.length = columns) (hroom : ∀ y ∈ ys, y + sheet found ≤ bottom)
    (hindices : ∀ group ∈ found, ∀ i ∈ group.2, i < rows)
    (hpanels : ∀ panel ∈ panels, panel.Fits w bottom rows) (hselected : selectedY ≤ bottom) :
    Keeps (Sound w h rows buttons) (placePanels view columns cardw found ys panels selectedY)
      fun placed => (∀ panel ∈ placed.1, panel.Fits w bottom rows) ∧ placed.2 ≤ bottom := by
  induction found generalizing ys panels selectedY with
  | nil => exact .pure ⟨hpanels, hselected⟩
  | cons group found ih =>
      obtain ⟨project, indices⟩ := group
      rw [placePanels]
      refine (keeps_leastColumn hys hpos).bind fun best hbest => ?_
      obtain ⟨col, y', rfl, hcol⟩ := hbest
      have hlt : col < ys.length := by omega
      have hsheet : sheet ((project, indices) :: found) =
          indices.length * 2 + 5 + sheet found := rfl
      have hy := hroom _ (List.getElem_mem hlt)
      rw [hsheet] at hy
      have hx : col * cardw + cardw ≤ columns * cardw := by
        have hle : (col + 1) * cardw ≤ columns * cardw := Nat.mul_le_mul_right _ hcol
        rwa [Nat.succ_mul] at hle
      have hunwrap : (unwrap ((some (col, y')).map Prod.fst) : Draw Nat) = pure col := rfl
      rw [hunwrap, returns_bind, item_eq (List.getElem?_eq_getElem hlt), returns_bind,
        mul_eq (by omega), returns_bind, add_eq (by omega), returns_bind]
      refine (keeps_selectedRow (by omega) hselected hbottom).bind fun selectedY hselected => ?_
      rw [mul_eq (by omega), returns_bind, add_eq (by omega), returns_bind, returns_bind,
        add_eq (by omega), returns_bind, setItem_eq hlt, returns_bind]
      refine ih (by rw [List.length_set, hys]) ?_
        (fun g hg => hindices g (List.mem_cons_of_mem _ hg)) ?_ hselected
      · intro y hmem
        rcases List.mem_or_eq_of_mem_set hmem with hold | rfl
        · have hroom := hroom y hold
          rw [hsheet] at hroom
          omega
        · omega
      · intro panel hpanel
        rcases List.mem_append.mp hpanel with hpanel | hpanel
        · exact hpanels panel hpanel
        · obtain rfl := List.mem_singleton.mp hpanel
          exact ⟨hcard, by simp only; omega, rfl, by simp only; omega,
            hindices (project, indices) List.mem_cons_self⟩

end place

/-! ## The cards -/

section cards

variable {terminal : Terminal} {view : View} {w h buttons bottom top : Nat} {panel : Panel}

theorem keeps_permission {σ : Type} {I : σ → Prop} (row : Value) :
    Keeps I (permission row) fun _ => True := by
  unfold permission
  refine .ite (fun hone => ?_) fun _ => .ite (fun _ => .pure trivial) fun _ => .pure trivial
  obtain ⟨label, hlabel⟩ := List.length_eq_one_iff.mp hone
  rw [hlabel]
  exact .pure trivial

theorem keeps_savedAccess (hpanel : panel.Fits w bottom view.rows.length) :
    Keeps (Sound w h view.rows.length buttons) (savedAccess view panel) fun _ => True := by
  have hitem : ∀ i < view.rows.length, ∃ row, (item view.rows i : Draw Value) = pure row :=
    fun i hi => ⟨_, item_eq (List.getElem?_eq_getElem hi)⟩
  unfold savedAccess
  refine (Keeps.fold (R := fun found => ∀ i ∈ found, i < view.rows.length) (by simp) ?_).bind
    fun managed hmanaged => ?_
  · intro found i hi hfound
    obtain ⟨row, hrow⟩ := hitem i (hpanel.indices i hi)
    rw [hrow, returns_bind]
    refine .pure fun j hj => ?_
    split at hj
    · rcases List.mem_append.mp hj with hj | hj
      · exact hfound j hj
      · exact List.mem_singleton.mp hj ▸ hpanel.indices i hi
    · exact hfound j hj
  refine (Keeps.fold (R := fun _ => True) trivial ?_).bind fun saved _ => ?_
  · intro found i hi _
    obtain ⟨row, hrow⟩ := hitem i (hmanaged i hi)
    rw [hrow, returns_bind]
    exact (keeps_permission row).bind fun _ _ => .pure trivial
  refine .ite (fun _ => .pure trivial) fun _ => .ite (fun hone => ?_) fun _ => .pure trivial
  obtain ⟨access, haccess⟩ := List.length_eq_one_iff.mp hone
  rw [haccess]
  exact .pure trivial

/-- A row of a card that is shown is one of the board's. -/
theorem keeps_onBoard {rows : Nat} (hh : 8 ≤ h) (row : Int) :
    Keeps (Sound w h rows buttons) (onBoard top h row)
      fun shown => shown = true → toUnsigned row < h := by
  unfold onBoard
  refine .ite (fun _ => ?_) fun _ => .pure (fun hshown => absurd hshown (by decide))
  rw [sub_eq (by omega), returns_bind]
  refine .pure fun hshown => ?_
  have hlt := of_decide_eq_true hshown
  omega

theorem keeps_drawBorder (hcolumns : terminal.Narrow) (hw : 24 ≤ w ∧ w < 2 ^ 31)
    (htop : top ≤ 14) (hbottom : bottom < 2 ^ 62)
    (hpanel : panel.Fits w bottom view.rows.length) {shifted : Int} (hshifted : Signed shifted)
    (hle : shifted ≤ panel.y) :
    Keeps (Sound w h view.rows.length buttons) (drawBorder terminal top panel shifted)
      fun _ => True := by
  have hright := hpanel.right
  have hlow := hpanel.low
  unfold drawBorder
  refine .ite (fun hshown => ?_) fun _ => .pure trivial
  rw [toSigned_eq (by omega)] at hshown
  have hrow : toUnsigned shifted ≤ panel.y := by
    rw [toUnsigned_eq (by omega) hshifted]
    omega
  exact keeps_boxAt hcolumns (by omega) (by omega) (by omega) _

theorem keeps_drawProject (hcolumns : terminal.Narrow) (hw : 24 ≤ w ∧ w < 2 ^ 31)
    (hpanel : panel.Fits w bottom view.rows.length) (projectY : Int) :
    Keeps (Sound w h view.rows.length buttons) (drawProject terminal view panel projectY)
      fun _ => True := by
  have hright := hpanel.right
  have hwide := hpanel.wide
  unfold drawProject
  refine (keeps_savedAccess hpanel).bind fun saved _ => ?_
  rw [add_eq (by omega), returns_bind]
  refine (keeps_text hcolumns (by omega) (by omega) (by omega) _ _).andThen ?_
  cases hfirst : panel.indices.head? with
  | none => exact .pure trivial
  | some first =>
      have hnames : Hit.Names view.rows.length buttons (.project first) :=
        hpanel.indices first (List.mem_of_mem_head? hfirst)
      dsimp only
      rw [add_eq (by omega), returns_bind, sub_eq (by omega), returns_bind]
      exact keeps_hit (by omega) _ hnames

theorem keeps_drawProjectLine (hcolumns : terminal.Narrow) (hw : 24 ≤ w ∧ w < 2 ^ 31)
    (hh : 8 ≤ h) (hpanel : panel.Fits w bottom view.rows.length) (projectY : Int) :
    Keeps (Sound w h view.rows.length buttons) (drawProjectLine terminal view h top panel projectY)
      fun _ => True := by
  unfold drawProjectLine
  refine (keeps_onBoard hh _).bind fun shown _ => ?_
  exact .ite (fun _ => keeps_drawProject hcolumns hw hpanel _) fun _ => .pure trivial

theorem keeps_drawConversation (hcolumns : terminal.Narrow) (hw : 24 ≤ w ∧ w < 2 ^ 31)
    (hpanel : panel.Fits w bottom view.rows.length) {i py : Nat} (hi : i < view.rows.length)
    (hpy : py < 2 ^ 31) :
    Keeps (Sound w h view.rows.length buttons) (drawConversation terminal view panel i py)
      fun _ => True := by
  have hright := hpanel.right
  have hwide := hpanel.wide
  have hnames : Hit.Names view.rows.length buttons (.conversation i) := hi
  unfold drawConversation
  rw [item_eq (List.getElem?_eq_getElem hi), returns_bind, add_eq (by omega), returns_bind]
  refine (keeps_text hcolumns (by omega) (by omega) (by omega) _ _).andThen ?_
  rw [add_eq (by omega), returns_bind]
  refine (keeps_text hcolumns (by omega) (by omega) (by omega) _ _).andThen ?_
  rw [add_eq (by omega), returns_bind, add_eq (by omega), returns_bind]
  refine (keeps_text hcolumns (by omega) (by omega) (by omega) _ _).andThen ?_
  rw [add_eq (by omega), returns_bind, sub_eq (by omega), returns_bind]
  refine (keeps_hit (by omega) _ hnames).andThen ?_
  rw [returns_bind, returns_bind, returns_bind]
  exact keeps_hit (by omega) _ hnames

theorem keeps_drawPanel (hcolumns : terminal.Narrow) (hw : 24 ≤ w ∧ w < 2 ^ 31)
    (hh : 8 ≤ h ∧ h < 2 ^ 31) (htop : top ≤ 14) (hbottom : bottom < 2 ^ 62) {offset : Nat}
    (hoffset : offset ≤ bottom) (hpanel : panel.Fits w bottom view.rows.length) :
    Keeps (Sound w h view.rows.length buttons) (drawPanel terminal view h top offset panel)
      fun _ => True := by
  have hlow := hpanel.low
  have htall := hpanel.tall
  unfold drawPanel
  rw [toSigned_eq (by omega), toSigned_eq (by omega),
    subSigned_eq (by unfold Signed; omega), returns_bind]
  refine (keeps_drawBorder hcolumns hw htop hbottom hpanel (by unfold Signed; omega)
    (by omega)).andThen ?_
  rw [addSigned_eq (by unfold Signed; omega), returns_bind]
  refine (keeps_drawProjectLine hcolumns hw hh.1 hpanel _).andThen ?_
  refine Keeps.each fun entry hentry => ?_
  have hn : entry.2 < panel.indices.length := List.snd_lt_of_mem_zipIdx hentry
  have hi := hpanel.indices _ (List.fst_mem_of_mem_zipIdx hentry)
  rw [addSigned_eq (by unfold Signed; omega), returns_bind, mul_eq (by omega), returns_bind,
    toSigned_eq (by omega), addSigned_eq (by unfold Signed; omega), returns_bind]
  refine (keeps_onBoard hh.1 _).bind fun shown hshown => ?_
  exact .ite (fun h => keeps_drawConversation hcolumns hw hpanel hi (by
    have hlt := hshown h
    omega)) fun _ => .pure trivial

/-- The columns of the cards fill the board, and every card is wide enough. -/
theorem columns_fit (hw : 24 ≤ w) :
    0 < max 1 (min (w / 55) 3) ∧ 2 ≤ w / max 1 (min (w / 55) 3) ∧
      max 1 (min (w / 55) 3) * (w / max 1 (min (w / 55) 3)) ≤ w := by
  have hcases : max 1 (min (w / 55) 3) = 1 ∨ max 1 (min (w / 55) 3) = 2 ∧ 110 ≤ w ∨
      max 1 (min (w / 55) 3) = 3 ∧ 165 ≤ w := by
    omega
  obtain hone | ⟨htwo, _⟩ | ⟨hthree, _⟩ := hcases
  · rw [hone]
    omega
  · rw [htwo]
    omega
  · rw [hthree]
    omega

theorem keeps_drawCards (hcolumns : terminal.Narrow) (hw : 24 ≤ w ∧ w < 2 ^ 31)
    (hh : 8 ≤ h ∧ h < 2 ^ 31) (htop : top ≤ 14) (hrows : 24 * view.rows.length < 2 ^ 63) :
    Keeps (Sound w h view.rows.length buttons) (drawCards terminal view w h top)
      fun _ => True := by
  obtain ⟨hsheet, hindices⟩ := groups_fit view.rows
  obtain ⟨hpos, hwide, hfill⟩ := columns_fit hw.1
  unfold drawCards
  rw [div_eq (by decide), returns_bind]
  generalize max 1 (min (w / 55) 3) = columns at hpos hwide hfill ⊢
  dsimp only
  rw [div_eq hpos.ne', returns_bind]
  have hroom : ∀ y ∈ List.replicate columns top,
      y + sheet (groups view.rows) ≤ 14 + 7 * view.rows.length := by
    intro y hy
    rw [List.eq_of_mem_replicate hy]
    omega
  refine (keeps_placePanels hwide hpos hfill hw.2 (by omega) List.length_replicate hroom hindices
    (fun _ hpanel => by cases hpanel) (by omega)).bind fun placed hplaced => ?_
  obtain ⟨hpanels, hselected⟩ := hplaced
  refine Keeps.each fun panel hpanel => ?_
  exact keeps_drawPanel hcolumns hw hh htop (by omega) (by omega) (hpanels panel hpanel)

end cards

/-! ## Wrapping -/

section wrapping

variable {terminal : Terminal} {σ : Type} {I : σ → Prop} {w : Nat}

/-- The bytes of some characters. -/
def charBytes (cs : List Char) : Nat := (cs.map Char.utf8Size).sum

theorem charBytes_toList (s : String) : charBytes s.toList = s.utf8ByteSize := by
  have hlist : ∀ cs : List Char, (String.ofList cs).utf8ByteSize = charBytes cs := by
    intro cs
    induction cs with
    | nil => rfl
    | cons c cs ih =>
        rw [Text.ofList_cons_bytes, ih]
        simp [charBytes]
  rw [← hlist, String.ofList_toList]

theorem charBytes_sublist {cs ds : List Char} (h : cs.Sublist ds) : charBytes cs ≤ charBytes ds :=
  (h.map Char.utf8Size).sum_le_sum (by simp)

/-- No text takes more columns than bytes. -/
theorem columns_le (hcolumns : terminal.Narrow) (cs : List Char) :
    (cs.map terminal.columns).sum ≤ charBytes cs := by
  unfold charBytes
  induction cs with
  | nil => simp
  | cons c cs ih =>
      have hone : terminal.columns c ≤ c.utf8Size := by
        have hpos := c.utf8Size_pos
        have htwo := hcolumns.le_two c
        by_cases hsmall : c.utf8Size = 1
        · have hnarrow := hcolumns.le_one c hsmall
          omega
        · omega
      simp only [List.map_cons, List.sum_cons]
      omega

theorem sublist_of_mem_splitOnP {p : Char → Bool} {cs piece : List Char}
    (h : piece ∈ cs.splitOnP p) : piece.Sublist cs := by
  have hall : ∀ cs : List Char, (∀ piece ∈ cs.splitOnP p, piece.Sublist cs) := by
    intro cs
    induction cs with
    | nil => simp
    | cons c cs ih =>
        intro piece hpiece
        rw [List.splitOnP_cons_eq_if_modifyHead] at hpiece
        split at hpiece
        · rcases List.mem_cons.mp hpiece with rfl | hpiece
          · exact List.nil_sublist _
          · exact (ih piece hpiece).cons c
        · cases hrest : cs.splitOnP p with
          | nil => exact absurd hrest (List.splitOnP_ne_nil p cs)
          | cons first rest =>
              rw [hrest] at hpiece ih
              rcases List.mem_cons.mp hpiece with rfl | hpiece
              · exact (ih first List.mem_cons_self).cons_cons c
              · exact (ih piece (List.mem_cons_of_mem first hpiece)).cons c
  exact hall cs piece h

/-- A word of a line of a text has no more bytes than the text. -/
theorem word_bytes {s : String} {line word : List Char} (hline : line ∈ linesOf s)
    (hword : word ∈ wordsOf line) : charBytes word ≤ s.utf8ByteSize := by
  obtain ⟨whole, hwhole, rfl⟩ := List.mem_map.mp hline
  have hsub : whole.Sublist s.toList := by
    have hflat := List.sublist_flatten_of_mem hwhole
    rwa [Text.flatten_splitInclusive] at hflat
  have hdrop : ∀ (c : Char) (cs : List Char),
      (if cs.getLast? = some c then cs.dropLast else cs).Sublist cs := by
    intro c cs
    split
    · exact List.dropLast_sublist cs
    · exact List.Sublist.refl cs
  have hpiece := sublist_of_mem_splitOnP (List.mem_of_mem_filter hword)
  rw [← charBytes_toList]
  exact charBytes_sublist (hpiece.trans ((hdrop '\r' _).trans ((hdrop '\n' whole).trans hsub)))

theorem keeps_wordColumns (word : List Char) (hsum : (word.map terminal.columns).sum < 2 ^ 63) :
    Keeps I (wordColumns terminal word) fun n => n < 2 ^ 63 := by
  have hfrom : ∀ n, n + (word.map terminal.columns).sum < 2 ^ 63 →
      Keeps I (fold (fun n c => add n (terminal.columns c)) n word) fun n => n < 2 ^ 63 := by
    clear hsum
    induction word with
    | nil => exact fun n hn => .pure (by simpa using hn)
    | cons c word ih =>
        intro n hn
        rw [List.map_cons, List.sum_cons] at hn
        rw [fold, add_eq (by omega), returns_bind]
        exact ih (n + terminal.columns c) (by omega)
  exact hfrom 0 (by omega)

theorem keeps_wrapChars (hcolumns : terminal.Narrow) (hw : w < 2 ^ 31) (cs : List Char)
    {out : List String} {row : List Char} {used : Nat} (hused : used ≤ w + 2) :
    Keeps I (wrapChars terminal w cs out row used) fun done => done.2.2 ≤ w + 2 := by
  induction cs generalizing out row used with
  | nil => exact .pure hused
  | cons c cs ih =>
      have htwo := hcolumns.le_two c
      rw [wrapChars]
      dsimp only
      rw [add_eq (by omega), returns_bind]
      by_cases hfull : w < used + terminal.columns c ∧ 0 < used
      · rw [if_pos hfull]
        dsimp only
        rw [add_eq (by omega), returns_bind]
        exact ih (by omega)
      · rw [if_neg hfull]
        dsimp only
        rw [add_eq (by omega), returns_bind]
        exact ih (by omega)

theorem keeps_breaksRow (hw : w < 2 ^ 31) {used n : Nat} (hused : used ≤ w + 2)
    (hn : n < 2 ^ 63) :
    Keeps I (breaksRow w used n) fun full => full = false → used = 0 ∨ used + 1 ≤ w := by
  unfold breaksRow
  refine .ite (fun _ => ?_) fun _ => .pure fun _ => by omega
  rw [add_eq (by omega), returns_bind, add_eq (by omega), returns_bind]
  refine .pure fun hfits => ?_
  have hle := of_decide_eq_false hfits
  omega

theorem keeps_wrapWords (hcolumns : terminal.Narrow) (hw : w < 2 ^ 31) {words : List (List Char)}
    (hwords : ∀ word ∈ words, (word.map terminal.columns).sum < 2 ^ 63) {out : List String}
    {row : List Char} {used : Nat} (hused : used ≤ w + 2) :
    Keeps I (wrapWords terminal w words out row used) fun _ => True := by
  induction words generalizing out row used with
  | nil => exact .pure trivial
  | cons word words ih =>
      have hrest : ∀ word ∈ words, (word.map terminal.columns).sum < 2 ^ 63 :=
        fun word hword => hwords word (List.mem_cons_of_mem _ hword)
      rw [wrapWords]
      refine (keeps_wordColumns word (hwords word List.mem_cons_self)).bind fun n hn => ?_
      refine (keeps_breaksRow hw hused hn).bind fun full hfull => ?_
      -- behind a word the row has a column left for the blank
      have hgo : ∀ out row used, (used = 0 ∨ used + 1 ≤ w) →
          Keeps I (do
            let used' ← addBlank used
            let done ← wrapChars terminal w word out
              (if 0 < used then row ++ [' '] else row) used'
            wrapWords terminal w words done.1 done.2.1 done.2.2) fun _ => True := by
        intro out row used hroom
        have hblank : Keeps I (addBlank used) fun used' => used' ≤ w + 2 := by
          unfold addBlank
          refine .ite (fun _ => ?_) fun _ => .pure (by omega)
          rw [add_eq (by omega)]
          exact .pure (by omega)
        refine hblank.bind fun used' hused' => ?_
        refine (keeps_wrapChars hcolumns hw word hused').bind fun done hdone => ?_
        exact ih hrest hdone
      cases full with
      | true => exact hgo _ _ 0 (Or.inl rfl)
      | false => exact hgo out row used (hfull rfl)

theorem keeps_wrap (hcolumns : terminal.Narrow) (hw : w < 2 ^ 31) {s : String}
    (hs : s.utf8ByteSize < 2 ^ 63) : Keeps I (wrap terminal s w) fun _ => True := by
  unfold wrap
  refine Keeps.fold trivial fun out line hline _ => ?_
  have hwords : ∀ word ∈ wordsOf line, (word.map terminal.columns).sum < 2 ^ 63 := by
    intro word hword
    have hbytes := word_bytes hline hword
    have hle := columns_le hcolumns word
    omega
  exact (keeps_wrapWords hcolumns hw hwords (by omega)).bind fun done _ => .pure trivial

end wrapping

/-! ## The buttons -/

section buttons

variable {terminal : Terminal} {view : View} {w h rows buttons dw : Nat}

theorem labels_length (menu enabled enabled' : Bool) :
    (labels menu enabled).length = (labels menu enabled').length := by
  cases menu <;> rfl

theorem labels_short (menu enabled : Bool) :
    ((labels menu enabled).length = 4 ∨ (labels menu enabled).length = 5) ∧
      ∀ label ∈ labels menu enabled, label.utf8ByteSize ≤ 22 := by
  cases menu <;> cases enabled <;> decide

theorem keeps_shownLabels (enabled : Bool) :
    Keeps (Sound w h rows buttons) (shownLabels view enabled) fun shown =>
      shown.length = (labels view.menu enabled).length ∧
        ∀ label ∈ shown, label.utf8ByteSize ≤ 22 := by
  obtain ⟨hlength, hshort⟩ := labels_short view.menu enabled
  have hset : ∀ i, i < (labels view.menu enabled).length → ∀ text : String,
      text.utf8ByteSize ≤ 22 →
      Keeps (Sound w h rows buttons) (setItem (labels view.menu enabled) i text) fun shown =>
        shown.length = (labels view.menu enabled).length ∧
          ∀ label ∈ shown, label.utf8ByteSize ≤ 22 := by
    intro i hi text htext
    rw [setItem_eq hi]
    refine .pure ⟨List.length_set, fun label hlabel => ?_⟩
    rcases List.mem_or_eq_of_mem_set hlabel with hold | rfl
    · exact hshort label hold
    · exact htext
  unfold shownLabels
  refine .ite (fun _ => .ite (fun _ => ?_) fun _ => hset 3 (by omega) _ (by decide))
    fun _ => .pure ⟨rfl, hshort⟩
  have hconfirm : ∀ label ∈ ["Confirm Full Access", "Confirm Read-only", "Confirm Project Access"],
      label.utf8ByteSize ≤ 22 := by
    decide
  have hi : min view.action 2 <
      ["Confirm Full Access", "Confirm Read-only", "Confirm Project Access"].length := by
    simp only [List.length_cons, List.length_nil]
    omega
  rw [item_eq (List.getElem?_eq_getElem hi), returns_bind]
  exact hset _ (by omega) _ (hconfirm _ (List.getElem_mem hi))

/-- Rows of buttons for the first `placed` labels. -/
structure Rowed (dw count placed : Nat) (rowed : List (List Button)) : Prop where
  ne_nil : rowed ≠ []
  few : rowed.length ≤ max 1 placed
  short : ∀ row ∈ rowed, row.length ≤ placed
  fits : ∀ row ∈ rowed, ∀ button ∈ row, button.index < count ∧ button.size ≤ dw

/-- A new row may be opened once a button is placed. -/
theorem Rowed.open {count placed : Nat} {rowed : List (List Button)}
    (h : Rowed dw count placed rowed) :
    rowed ++ [[]] ≠ [] ∧ (rowed ++ [[]]).length ≤ max 1 placed + 1 ∧
      (∀ row ∈ rowed ++ [[]], row.length ≤ placed) ∧
      ∀ row ∈ rowed ++ [[]], ∀ button ∈ row, button.index < count ∧ button.size ≤ dw := by
  have hfew := h.few
  refine ⟨by simp, by simpa using hfew, fun row hrow => ?_, fun row hrow b hb => ?_⟩
  · rcases List.mem_append.mp hrow with hrow | hrow
    · exact h.short row hrow
    · obtain rfl := List.mem_singleton.mp hrow
      simp
  · rcases List.mem_append.mp hrow with hrow | hrow
    · exact h.fits row hrow b hb
    · obtain rfl := List.mem_singleton.mp hrow
      cases hb

theorem keeps_pushButton {count placed : Nat} {rowed : List (List Button)} {button : Button}
    (hne : rowed ≠ []) (hfew : rowed.length ≤ placed + 1)
    (hshort : ∀ row ∈ rowed, row.length ≤ placed)
    (hfits : ∀ row ∈ rowed, ∀ button ∈ row, button.index < count ∧ button.size ≤ dw)
    (hbutton : button.index < count ∧ button.size ≤ dw) :
    Keeps (Sound w h rows buttons) (pushButton rowed button)
      (Rowed dw count (placed + 1)) := by
  have hlast := List.getLast_mem hne
  have hpos := List.length_pos_of_ne_nil hne
  unfold pushButton
  rw [List.getLast?_eq_getLast_of_ne_nil hne, unwrap, returns_bind]
  generalize rowed.getLast hne = last at hlast
  refine .pure ⟨by simp, ?_, fun row hrow => ?_, fun row hrow b hb => ?_⟩
  · rw [List.length_append, List.length_dropLast, List.length_singleton]
    omega
  · rcases List.mem_append.mp hrow with hrow | hrow
    · have hle := hshort row (List.mem_of_mem_dropLast hrow)
      omega
    · obtain rfl := List.mem_singleton.mp hrow
      have hle := hshort last hlast
      rw [List.length_append, List.length_singleton]
      omega
  · rcases List.mem_append.mp hrow with hrow | hrow
    · exact hfits row (List.mem_of_mem_dropLast hrow) b hb
    · obtain rfl := List.mem_singleton.mp hrow
      rcases List.mem_append.mp hb with hb | hb
      · exact hfits last hlast b hb
      · obtain rfl := List.mem_singleton.mp hb
        exact hbutton

theorem keeps_breaksButtons (hdw : 24 ≤ dw ∧ dw ≤ 112) {used size : Nat} (hused : used < 2 ^ 31)
    (hsize : size ≤ dw) :
    Keeps (Sound w h rows buttons) (breaksButtons dw used size)
      fun full => full = true → 0 < used := by
  unfold breaksButtons
  refine .ite (fun hpos => ?_) fun _ => .pure fun hfull => absurd hfull (by decide)
  rw [add_eq (by omega), returns_bind, add_eq (by omega), returns_bind, sub_eq (by omega),
    returns_bind]
  exact .pure fun _ => hpos

/-- Every label gets a button, and no row but the first is opened before a button is placed. -/
theorem keeps_layoutButtons (hdw : 24 ≤ dw ∧ dw ≤ 112) {count : Nat} (hcount : count ≤ 5)
    {shown : List (String × Nat)} {rowed : List (List Button)} {used placed : Nat}
    (hshown : ∀ entry ∈ shown, entry.1.utf8ByteSize ≤ 22 ∧ entry.2 < count)
    (hrowed : Rowed dw count placed rowed) (hplaced : placed + shown.length = count)
    (hused : used ≤ placed * 113) :
    Keeps (Sound w h rows buttons) (layoutButtons dw shown rowed used)
      (Rowed dw count count) := by
  induction shown generalizing rowed used placed with
  | nil =>
      rw [List.length_nil, Nat.add_zero] at hplaced
      exact .pure (hplaced ▸ hrowed)
  | cons entry shown ih =>
      obtain ⟨label, i⟩ := entry
      have hlabel : label.utf8ByteSize ≤ 22 := (hshown (label, i) List.mem_cons_self).1
      have hi : i < count := (hshown (label, i) List.mem_cons_self).2
      have hfew := hrowed.few
      rw [List.length_cons] at hplaced
      rw [layoutButtons, add_eq (by omega), returns_bind, sub_eq (by omega), returns_bind]
      have hsize : min (label.utf8ByteSize + 4) (dw - 4) ≤ dw := by omega
      dsimp only
      generalize min (label.utf8ByteSize + 4) (dw - 4) = size at hsize ⊢
      have hnext : ∀ rowed', Rowed dw count (placed + 1) rowed' → ∀ used', used' ≤ placed * 113 →
          Keeps (Sound w h rows buttons) (do
            let step ← add size (if 0 < used' then 1 else 0)
            let used ← add used' step
            layoutButtons dw shown rowed' used) (Rowed dw count count) := by
        intro rowed' hrowed' used' hused'
        have hblank : (if 0 < used' then 1 else 0) ≤ 1 := by
          split <;> omega
        rw [add_eq (by omega), returns_bind, add_eq (by omega), returns_bind]
        exact ih (fun e he => hshown e (List.mem_cons_of_mem _ he)) hrowed' (by omega) (by omega)
      refine (keeps_breaksButtons hdw (by omega) hsize).bind fun full hfull => ?_
      cases full with
      | true =>
          have hpos := hfull rfl
          obtain ⟨hne, hmore, hshort, hfits⟩ := hrowed.open
          exact (keeps_pushButton hne (by omega) hshort hfits ⟨hi, hsize⟩).bind
            fun rowed' hrowed' => hnext rowed' hrowed' 0 (by omega)
      | false =>
          exact (keeps_pushButton hrowed.ne_nil (by omega) hrowed.short hrowed.fits
            ⟨hi, hsize⟩).bind fun rowed' hrowed' => hnext rowed' hrowed' used hused

end buttons

/-! ## The details -/

section details

variable {terminal : Terminal} {view : View} {w h rows buttons x y dw buttonTop : Nat}
  {row binding : Value} {σ : Type} {I : σ → Prop}

theorem keeps_insertLine {lines : List String} {i : Nat} (hi : i ≤ lines.length)
    (line : Option String) :
    Keeps I (insertLine lines i line) fun found => lines.length ≤ found.length := by
  cases line with
  | none => exact .pure (Nat.le_refl _)
  | some line =>
      rw [insertLine, insertItem_eq hi]
      refine .pure ?_
      rw [List.length_insertIdx_of_le_length hi]
      omega

theorem keeps_connectionLines (hroutes : 24 * (routesOf row).length < 2 ^ 63) :
    Keeps I (connectionLines view row binding) fun _ => True := by
  have hwhich : view.route % max (routesOf row).length 1 < max (routesOf row).length 1 :=
    Nat.mod_lt _ (by omega)
  unfold connectionLines
  dsimp only
  rw [rem_eq (by omega), returns_bind, add_eq (by omega), returns_bind]
  refine (keeps_insertLine (by simp) _).bind fun lines hlines => ?_
  have hone : 1 ≤ lines.length := Nat.le_trans (by simp) hlines
  refine (keeps_insertLine hone _).bind fun more hmore => ?_
  exact (keeps_insertLine (Nat.le_trans hone hmore) _).mono fun _ _ => trivial

theorem keeps_permissionLines : Keeps I (permissionLines view row binding) fun _ => True := by
  unfold permissionLines
  refine (keeps_permission row).bind fun access _ => ?_
  dsimp only
  rw [insertItem_eq (by simp), returns_bind, insertItem_eq (by simp), returns_bind,
    insertItem_eq (by simp), returns_bind, insertItem_eq (by simp)]
  exact .pure trivial

theorem keeps_detailLines (hroutes : 24 * (routesOf row).length < 2 ^ 63) :
    Keeps I (detailLines view row binding) fun _ => True := by
  unfold detailLines menuLines
  refine (keeps_connectionLines hroutes).bind fun connection _ => ?_
  refine Keeps.bind (Keeps.ite (Q := fun _ => True) (fun _ => keeps_permissionLines)
    fun _ => .pure trivial) fun shown _ => ?_
  exact .pure trivial

theorem keeps_drawButton (hcolumns : terminal.Narrow) (hw : 24 ≤ w ∧ w < 2 ^ 31) {bx : Nat}
    (hbx : bx < 2 ^ 32) (y : Nat) {button : Button} (hindex : button.index < buttons)
    (hsize : button.size ≤ 112) :
    Keeps (Sound w h rows buttons) (drawButton terminal view bx y button) fun _ => True := by
  have hnames : Hit.Names rows buttons (.action button.index) := hindex
  unfold drawButton
  refine (keeps_text hcolumns (by omega) (by omega) (by omega) _ _).andThen ?_
  exact keeps_hit (by omega) _ hnames

theorem keeps_drawButtons (hcolumns : terminal.Narrow) (hw : 24 ≤ w ∧ w < 2 ^ 31) {n : Nat}
    (hy : buttonTop + n < 2 ^ 62) {line : List Button} {bx : Nat}
    (hbx : bx + line.length * 113 < 2 ^ 32)
    (hline : ∀ button ∈ line, button.index < buttons ∧ button.size ≤ 112) :
    Keeps (Sound w h rows buttons) (drawButtons terminal view buttonTop n line bx)
      fun _ => True := by
  induction line generalizing bx with
  | nil => exact .pure trivial
  | cons button line ih =>
      obtain ⟨hindex, hsize⟩ := hline button List.mem_cons_self
      rw [List.length_cons] at hbx
      rw [drawButtons, add_eq (by omega), returns_bind]
      refine (keeps_drawButton hcolumns hw (by omega) _ hindex hsize).andThen ?_
      rw [add_eq (by omega), returns_bind, add_eq (by omega), returns_bind]
      exact ih (by omega) fun b hb => hline b (List.mem_cons_of_mem button hb)

theorem keeps_drawLines (hcolumns : terminal.Narrow) (hw : 24 ≤ w ∧ w < 2 ^ 31)
    (hx : x < 2 ^ 31) (hy : y < 2 ^ 31) (hdw : 24 ≤ dw ∧ dw ≤ 112)
    (htop : 1 ≤ buttonTop ∧ buttonTop < 2 ^ 32) (lines : List String) :
    Keeps (Sound w h rows buttons) (drawLines terminal view x y dw buttonTop lines)
      fun _ => True := by
  unfold drawLines
  rw [add_eq (by omega), returns_bind]
  dsimp only
  refine (Keeps.each fun entry hentry => ?_).andThen ?_
  · have hn := List.snd_lt_of_mem_zipIdx hentry
    rw [List.length_take] at hn
    rw [add_eq (by omega), returns_bind, add_eq (by omega), returns_bind, add_eq (by omega),
      returns_bind, sub_eq (by omega), returns_bind]
    exact keeps_text hcolumns (by omega) (by omega) (by omega) _ _
  · refine .ite (fun _ => ?_) fun _ => .pure trivial
    rw [add_eq (by omega), returns_bind, sub_eq (by omega), returns_bind, sub_eq (by omega),
      returns_bind]
    exact keeps_text hcolumns (by omega) (by omega) (by omega) _ _

/-- The panel is cleared, and the clicks of the cards with it. -/
theorem keeps_clearPanel {dh : Nat} (hw : w < 2 ^ 31) (hh : h < 2 ^ 31) (hx : x + dw ≤ w)
    (hy : y + dh ≤ h) :
    Keeps (Sound w h rows buttons) (clearPanel x y dw dh) fun _ => True := by
  unfold clearPanel
  rw [add_eq (by omega), returns_bind]
  refine (Keeps.each fun r hr => ?_).andThen ?_
  · have hr := mem_upTo.mp hr
    rw [add_eq (by omega), returns_bind]
    refine Keeps.each fun c hc => ?_
    have hc := mem_upTo.mp hc
    exact keeps_setCell (by omega) (by omega) _
  · exact .write fun b hb => ⟨hb.width_eq, hb.height_eq, fun _ _ _ hhit => by cases hhit⟩

/-- The connection that the details of a row are about. -/
def shownBinding (view : View) (row : Value) : Value :=
  (routesOf row)[view.route % max (routesOf row).length 1]?.getD (.object [])

/-- What the language promises of data in memory: a sequence has at most `isize::MAX` bytes, 24 for
each JSON value at least, and so has a text. -/
structure View.FitsInMemory (view : View) : Prop where
  rows : 24 * view.rows.length < 2 ^ 63
  routes : ∀ row ∈ view.rows, 24 * (routesOf row).length < 2 ^ 63
  lines : ∀ row ∈ view.rows, ∀ said,
    Returns (detailLines view row (shownBinding view row) : Draw (List String)) said →
      ∀ line ∈ said, line.utf8ByteSize < 2 ^ 63

theorem keeps_drawDetail (hcolumns : terminal.Narrow) (hw : 24 ≤ w ∧ w < 2 ^ 31)
    (hh : 8 ≤ h ∧ h < 2 ^ 31) (hmem : view.FitsInMemory) (hrow : row ∈ view.rows)
    (hbuttons : ∀ enabled, buttons = (labels view.menu enabled).length) :
    Keeps (Sound w h rows buttons) (drawDetail terminal view w h row) fun _ => True := by
  have hroutes := hmem.routes row hrow
  unfold drawDetail
  dsimp only
  rw [rem_eq (by omega), returns_bind]
  have hsaid := hmem.lines row hrow
  rw [shownBinding] at hsaid
  generalize ((routesOf row)[view.route % max (routesOf row).length 1]?).getD (.object [])
    = binding at hsaid ⊢
  rw [sub_eq (by omega), returns_bind, div_eq (by decide), returns_bind, sub_eq (by omega),
    returns_bind, div_eq (by decide), returns_bind]
  have hdw : 24 ≤ min w 112 ∧ min w 112 ≤ 112 := by omega
  have hx : (w - min w 112) / 2 + min w 112 ≤ w := by omega
  have hdh : 8 ≤ min h 26 := by omega
  have hy : (h - min h 26) / 2 + min h 26 ≤ h := by omega
  generalize min w 112 = dw at hdw hx ⊢
  generalize (w - dw) / 2 = x at hx ⊢
  generalize min h 26 = dh at hdh hy ⊢
  generalize (h - dh) / 2 = y at hy ⊢
  refine (keeps_clearPanel hw.2 hh.2 hx hy).andThen ?_
  refine (keeps_boxAt hcolumns (by omega) (by omega) (by omega) _).andThen ?_
  refine (keeps_shownLabels (isEnabled binding)).bind fun shown hshown => ?_
  obtain ⟨hlength, hshort⟩ := hshown
  have hcount : shown.length = buttons := hlength.trans (hbuttons _).symm
  have hfive : buttons ≤ 5 := by
    have hlabels := (labels_short view.menu (isEnabled binding)).1
    rw [hbuttons (isEnabled binding)]
    omega
  have hentries : ∀ entry ∈ shown.zipIdx, entry.1.utf8ByteSize ≤ 22 ∧ entry.2 < buttons := by
    intro entry hentry
    have hi := List.snd_lt_of_mem_zipIdx hentry
    exact ⟨hshort _ (List.fst_mem_of_mem_zipIdx hentry), by omega⟩
  have hempty : Rowed dw buttons 0 [[]] := by
    refine ⟨by simp, by simp, fun row hrow => ?_, fun row hrow b hb => ?_⟩
    · rw [List.mem_singleton.mp hrow]
      simp
    · rw [List.mem_singleton.mp hrow] at hb
      cases hb
  refine (keeps_layoutButtons hdw hfive hentries hempty (by rw [List.length_zipIdx]; omega)
    (by omega)).bind fun placed hplaced => ?_
  have hfew := hplaced.few
  rw [add_eq (by omega), returns_bind, sub_eq (by omega), returns_bind, sub_eq (by omega),
    returns_bind]
  refine (keeps_detailLines hroutes).returns.bind fun said hreturns => ?_
  have hsizes := hsaid said hreturns.2
  refine (Keeps.fold (R := fun _ => True) trivial fun found l hl _ => ?_).bind fun lines _ => ?_
  · rw [sub_eq (by omega), returns_bind]
    exact (keeps_wrap hcolumns (by omega) (hsizes l hl)).bind fun _ _ => .pure trivial
  refine (keeps_drawLines hcolumns hw (by omega) (by omega) hdw (by omega) lines).andThen ?_
  refine (Keeps.each fun entry hentry => ?_).andThen ?_
  · have hline := List.fst_mem_of_mem_zipIdx hentry
    have hn := List.snd_lt_of_mem_zipIdx hentry
    have hlong := hplaced.short _ hline
    rw [add_eq (by omega), returns_bind]
    refine keeps_drawButtons hcolumns hw (by omega) (by omega) fun button hbutton => ?_
    obtain ⟨hindex, hsize⟩ := hplaced.fits _ hline button hbutton
    exact ⟨hindex, by omega⟩
  rw [add_eq (by omega), returns_bind, returns_bind, sub_eq (by omega), returns_bind,
    sub_eq (by omega), returns_bind]
  exact keeps_text hcolumns (by omega) (by omega) (by omega) _ _

end details

/-! ## The whole board -/

section board

variable {terminal : Terminal} {view : View} {w h buttons : Nat}

theorem keeps_drawFoot (hcolumns : terminal.Narrow) (hw : 24 ≤ w ∧ w < 2 ^ 31)
    (hh : 8 ≤ h ∧ h < 2 ^ 31) (hmem : view.FitsInMemory)
    (hbuttons : ∀ enabled, buttons = (labels view.menu enabled).length) :
    Keeps (Sound w h view.rows.length buttons) (drawFoot terminal view w h) fun _ => True := by
  unfold drawFoot line
  rw [sub_eq (by omega), returns_bind]
  refine (keeps_text hcolumns (by omega) (by omega) (by omega) _ _).andThen ?_
  refine .ite (fun _ => ?_) fun _ => .ite (fun _ => .pure trivial) fun _ => ?_
  · cases hrow : view.rows[view.selected]? with
    | none => exact .pure trivial
    | some row =>
        exact keeps_drawDetail hcolumns hw hh hmem (List.mem_of_getElem? hrow) hbuttons
  · rw [sub_eq (by omega), returns_bind, sub_eq (by omega), returns_bind]
    exact keeps_text hcolumns (by omega) (by omega) (by omega) _ _

theorem keeps_draw (hcolumns : terminal.Narrow) (hw : 24 ≤ w ∧ w < 2 ^ 31)
    (hh : 8 ≤ h ∧ h < 2 ^ 31) (hmem : view.FitsInMemory)
    (hpending : (pendingCounts view.rows).sum < 2 ^ 64)
    (hbuttons : ∀ enabled, buttons = (labels view.menu enabled).length) :
    Keeps (Sound w h view.rows.length buttons) (draw terminal view w h) fun _ => True := by
  unfold draw
  refine (keeps_drawTitle hcolumns hw).andThen ?_
  refine (keeps_sum _ hpending).bind fun pending _ => ?_
  refine (keeps_drawMetrics hcolumns hw pending).bind fun top htop => ?_
  refine (keeps_headLine hcolumns hw htop (by decide) _).bind fun top htop => ?_
  refine (keeps_headLine hcolumns hw htop (by decide) _).bind fun top htop => ?_
  refine (keeps_headLine hcolumns hw htop (by decide) _).bind fun top htop => ?_
  refine (keeps_drawIssues hcolumns hw htop).bind fun top htop => ?_
  refine (keeps_drawCards hcolumns hw hh htop hmem.rows).andThen ?_
  exact keeps_drawFoot hcolumns hw hh hmem hbuttons

/-- Whatever the data and the size, the board is built without a panic; every hit is on the board
and names a conversation, a project or a button that is there. -/
theorem build_never_panics (hcolumns : terminal.Narrow) (hmem : view.FitsInMemory)
    (hpending : (pendingCounts view.rows).sum < 2 ^ 64) (hwidth : view.width < 2 ^ 31)
    (hheight : view.height < 2 ^ 31) :
    ∃ b, build terminal view = .ok b ∧ ∀ x y target, b.hits (x, y) = some target →
      x < b.width ∧ y < b.height ∧
        ∀ enabled, target.Names view.rows.length (labels view.menu enabled).length := by
  have hbuttons : ∀ enabled, (labels view.menu true).length = (labels view.menu enabled).length :=
    fun enabled => labels_length view.menu true enabled
  have hdraw := keeps_draw (w := max view.width 24) (h := max view.height 8) hcolumns (by omega)
    (by omega) hmem hpending hbuttons
  obtain ⟨_, b, hrun, hb, _⟩ := hdraw _ (sound_new _ _ _ _)
  refine ⟨b, ?_, fun x y target hhit => ?_⟩
  · unfold build
    dsimp only
    rw [hrun]
    rfl
  · obtain ⟨hx, hy, hnames⟩ := hb.hits x y target hhit
    refine ⟨hb.width_eq.symm ▸ hx, hb.height_eq.symm ▸ hy, fun enabled => ?_⟩
    rw [← hbuttons enabled]
    exact hnames

end board

/-! ## A small terminal -/

/-- A terminal that shows Hangul syllables two columns wide. -/
def sampleTerminal : Terminal where
  columns c := if isControl c then 0 else if 0xac00 ≤ c.toNat ∧ c.toNat ≤ 0xd7a3 then 2 else 1
  now := 1000
  crates := ⟨fun _ => "0.0", fun _ => none, fun _ => none, fun _ => none⟩

def sampleRow : Value :=
  .object [("name", .string "PM"), ("project", .string "Project"),
    ("routes", .array [.object [("enabled", .bool true), ("endpoint", .string "ws://127.0.0.1:1"),
      ("name", .string "b")]]), ("thread", .string "t")]

/-- The details of a conversation on a terminal without a cell, scrolled past their end. -/
def sampleView : View where
  snapshot := .object []
  rows := [sampleRow]
  selected := 0
  route := 7
  detail := true
  menu := false
  action := 3
  scroll := 2 ^ 64 - 1
  notice := ""
  confirming := true
  width := 0
  height := 0

theorem build_never_panics_sample :
    ∃ b, build sampleTerminal sampleView = .ok b ∧ ∀ x y target, b.hits (x, y) = some target →
      x < b.width ∧ y < b.height ∧ ∀ enabled, target.Names 1 (labels false enabled).length := by
  have hcolumns : sampleTerminal.Narrow := by
    refine ⟨fun c => ?_, fun c hc => ?_⟩
    · show (if isControl c then 0 else if 0xac00 ≤ c.toNat ∧ c.toNat ≤ 0xd7a3 then 2 else 1) ≤ 2
      split
      · decide
      · split <;> decide
    · have hsmall : c.toNat ≤ 0x7f :=
        UInt32.le_iff_toNat_le.mp (Char.utf8Size_eq_one_iff.mp hc)
      show (if isControl c then 0 else if 0xac00 ≤ c.toNat ∧ c.toNat ≤ 0xd7a3 then 2 else 1) ≤ 1
      split
      · decide
      · rw [if_neg (by omega)]
  have hsaid : ∃ lines : List String, (∀ line ∈ lines, line.utf8ByteSize < 2 ^ 63) ∧
      ∀ b : Board, (detailLines sampleView sampleRow (shownBinding sampleView sampleRow) :
        Draw (List String)).run b = .ok (lines, b) := by
    refine ⟨match (detailLines sampleView sampleRow (shownBinding sampleView sampleRow) :
        Code Unit (List String)).run () with
      | .ok (lines, _) => lines
      | .error _ => [], by decide +kernel, fun b => rfl⟩
  obtain ⟨lines, hsizes, hrun⟩ := hsaid
  have hmem : sampleView.FitsInMemory := by
    refine ⟨by decide, fun row hrow => ?_, fun row hrow said hsaid => ?_⟩
    · obtain rfl := List.mem_singleton.mp hrow
      decide
    · obtain rfl := List.mem_singleton.mp hrow
      obtain ⟨b, b', hb⟩ := hsaid
      rw [hrun b] at hb
      obtain ⟨rfl, _⟩ := Prod.mk.inj (Except.ok.inj hb)
      exact hsizes
  exact build_never_panics hcolumns hmem (by decide) (by decide) (by decide)

end CodexMonitor.Dashboard
