import Mathlib.Data.List.Perm.Basic
import Mathlib.Tactic.Common

/-!
# Tables of dynamically typed cells

A table has columns in a physical order and rows of cells.  A column has an affinity,
which the engine applies to what is stored in it; it does not restrict the type of a
cell.  `insertSelect` copies rows by position, `insertColumns` by name: the second does
not depend on either order of columns, the first on both.
-/

namespace Sql

/-- A stored value; a real number by its bits. -/
inductive Cell
  | null
  | integer (n : Int)
  | real (bits : UInt64)
  | text (s : String)
  | blob (bytes : List UInt8)
deriving DecidableEq, Repr

inductive Affinity
  | text
  | integer
  | real
deriving DecidableEq, Repr

/-- A column of a table. -/
structure Column where
  name : String
  affinity : Affinity
  notNull : Bool
deriving DecidableEq, Repr

/-- A table, with the sets of columns that identify a row. -/
structure Table where
  columns : List Column
  unique : List (List String)
  rows : List (List Cell)
deriving DecidableEq, Repr

/-- The engine's conversion of a value to the affinity of its column. -/
structure Engine where
  convert : Affinity → Cell → Cell

/-- What is documented of the conversion: converting twice is converting once, and text stays
text in a text column. -/
structure Engine.Lawful (engine : Engine) : Prop where
  idem : ∀ a c, engine.convert a (engine.convert a c) = engine.convert a c
  text : ∀ s, engine.convert .text (.text s) = .text s

/-- The cell of a row under a column name. -/
def cellAt (columns : List Column) (row : List Cell) (name : String) : Option Cell :=
  ((columns.zip row).find? fun pair => pair.1.name = name).map Prod.snd

/-- A row as the columns store it. -/
def stored (engine : Engine) (columns : List Column) (cells : List Cell) : List Cell :=
  List.zipWith (fun column cell => engine.convert column.affinity cell) columns cells

namespace Table

/-- Two rows agree on the columns of a key, none of which is null. -/
def clash (t : Table) (row other : List Cell) (key : List String) : Bool :=
  key.all fun name =>
    decide (cellAt t.columns row name ≠ some .null ∧
      cellAt t.columns row name = cellAt t.columns other name)

/-- Append one row, as `INSERT INTO t VALUES(…)` does. -/
def insert (engine : Engine) (t : Table) (cells : List Cell) : Except String Table :=
  let row := stored engine t.columns cells
  if cells.length ≠ t.columns.length then .error "wrong number of values"
  else if (t.columns.zip row).any fun pair => pair.1.notNull && decide (pair.2 = .null) then
    .error "NOT NULL constraint failed"
  else if t.unique.any fun key => t.rows.any fun other => t.clash row other key then
    .error "UNIQUE constraint failed"
  else .ok { t with rows := t.rows ++ [row] }

/-- Append rows one by one; the first refusal fails the statement. -/
def insertAll (engine : Engine) (t : Table) : List (List Cell) → Except String Table
  | [] => .ok t
  | cells :: rest =>
      match t.insert engine cells with
      | .ok u => u.insertAll engine rest
      | .error e => .error e

/-- `INSERT INTO t SELECT * FROM source`. -/
def insertSelect (engine : Engine) (t source : Table) : Except String Table :=
  if source.columns.length ≠ t.columns.length then .error "wrong number of values"
  else t.insertAll engine source.rows

/-- `SELECT names FROM t`, for one row. -/
def pick (t : Table) (row : List Cell) (names : List String) : List Cell :=
  names.map fun name => (cellAt t.columns row name).getD .null

/-- The whole row of an insert that lists its columns; the others are null. -/
def fill (t : Table) (names : List String) (cells : List Cell) : List Cell :=
  t.columns.map fun column => ((names.zip cells).lookup column.name).getD .null

/-- `INSERT INTO t(names) SELECT selected FROM source`. -/
def insertColumns (engine : Engine) (t : Table) (names : List String) (source : Table)
    (selected : List String) : Except String Table :=
  if names.any fun name => name ∉ t.columns.map Column.name then .error "no such column"
  else if selected.any fun name => name ∉ source.columns.map Column.name then
    .error "no such column"
  else t.insertAll engine (source.rows.map fun row => t.fill names (source.pick row selected))

/-- `ALTER TABLE t ADD COLUMN column`, with its default for the rows there are. -/
def addColumn (t : Table) (column : Column) (default : Cell) : Table :=
  { t with columns := t.columns ++ [column], rows := t.rows.map fun row => row ++ [default] }

/-- `UPDATE t SET name = value row`, with a `NOT NULL` check. -/
def updateColumn (t : Table) (name : String) (value : List Cell → Cell) : Except String Table :=
  let put := fun row => (t.columns.zip row).map fun pair =>
    if pair.1.name = name then value row else pair.2
  if t.columns.any (fun column => column.name = name && column.notNull) &&
      t.rows.any (fun row => decide (value row = .null)) then
    .error "NOT NULL constraint failed"
  else .ok { t with rows := t.rows.map put }

end Table

/-! ## Reading a row -/

theorem cellAt_congr {columns columns' : List Column}
    (h : columns.map Column.name = columns'.map Column.name) (row : List Cell) (name : String) :
    cellAt columns row name = cellAt columns' row name := by
  unfold cellAt
  induction columns generalizing columns' row with
  | nil =>
      obtain rfl : columns' = [] := by simpa using h
      rfl
  | cons column columns ih =>
      cases columns' with
      | nil => simp at h
      | cons column' columns' =>
          simp only [List.map_cons, List.cons.injEq] at h
          cases row with
          | nil => simp
          | cons cell row =>
              simp only [List.zip_cons_cons, List.find?_cons, h.1]
              by_cases hname : column'.name = name
              · simp [hname]
              · simp only [hname, decide_false]
                exact ih h.2 row

/-- A row that is long enough has a cell under every column. -/
theorem cellAt_isSome {columns : List Column} {row : List Cell} {name : String}
    (hlen : row.length = columns.length) (hname : name ∈ columns.map Column.name) :
    ∃ cell, cellAt columns row name = some cell := by
  unfold cellAt
  obtain ⟨column, hcolumn, rfl⟩ := List.mem_map.mp hname
  obtain ⟨i, hi, rfl⟩ := List.getElem_of_mem hcolumn
  have hsome : ((columns.zip row).find? fun pair => pair.1.name = columns[i].name).isSome := by
    rw [List.find?_isSome]
    refine ⟨(columns[i], row[i]), ?_, by simp⟩
    have hzip : i < (columns.zip row).length := by
      rw [List.length_zip]
      omega
    have hget : (columns.zip row)[i] = (columns[i], row[i]) := by simp
    rw [← hget]
    exact List.getElem_mem hzip
  obtain ⟨pair, hpair⟩ := Option.isSome_iff_exists.mp hsome
  exact ⟨pair.2, by rw [hpair]; rfl⟩

/-- The cell under a name is a cell of the row, in a column of that name. -/
theorem cellAt_mem {columns : List Column} {row : List Cell} {name : String} {cell : Cell}
    (h : cellAt columns row name = some cell) :
    ∃ column, (column, cell) ∈ columns.zip row ∧ column.name = name := by
  obtain ⟨pair, hfind, rfl⟩ := Option.map_eq_some_iff.mp h
  exact ⟨pair.1, List.mem_of_find?_eq_some hfind, by simpa using List.find?_some hfind⟩

/-! ## Stored rows -/

/-- A row as a table of these columns stores it. -/
structure Stores (engine : Engine) (columns : List Column) (row : List Cell) : Prop where
  length_eq : row.length = columns.length
  fixed : ∀ pair ∈ columns.zip row, engine.convert pair.1.affinity pair.2 = pair.2

theorem length_stored {engine : Engine} {columns : List Column} {cells : List Cell}
    (h : cells.length = columns.length) :
    (stored engine columns cells).length = columns.length := by
  unfold stored
  rw [List.length_zipWith, h, Nat.min_self]

/-- A row that is stored already is stored as it is, under any columns of the same affinities. -/
theorem stored_of_stores {engine : Engine} {columns columns' : List Column} {row : List Cell}
    (h : Stores engine columns row)
    (haff : columns.map Column.affinity = columns'.map Column.affinity) :
    stored engine columns' row = row := by
  obtain ⟨hlen, hfixed⟩ := h
  unfold stored
  induction columns generalizing columns' row with
  | nil =>
      obtain rfl : columns' = [] := by simpa using haff
      obtain rfl : row = [] := by simpa using hlen
      rfl
  | cons column columns ih =>
      cases columns' with
      | nil => simp at haff
      | cons column' columns' =>
          cases row with
          | nil => simp at hlen
          | cons cell row =>
              simp only [List.map_cons, List.cons.injEq] at haff
              have hhead := hfixed (column, cell) (by simp)
              have htail := ih haff.2 (by simpa using hlen) fun pair hpair =>
                hfixed pair (by simpa using Or.inr hpair)
              simp only [List.zipWith_cons_cons, ← haff.1, hhead, htail]

/-! ## What an insert stores -/

namespace Table

variable {engine : Engine} {t u : Table}

theorem insert_ok {cells : List Cell} (h : t.insert engine cells = .ok u) :
    cells.length = t.columns.length ∧
      (∀ pair ∈ t.columns.zip (stored engine t.columns cells),
        pair.1.notNull = true → pair.2 ≠ .null) ∧
      u = { t with rows := t.rows ++ [stored engine t.columns cells] } := by
  unfold insert at h
  simp only at h
  split at h
  · cases h
  · rename_i hlen
    split at h
    · cases h
    · rename_i hnull
      split at h
      · cases h
      · refine ⟨not_not.mp hlen, fun pair hpair hnot heq => hnull ?_, (Except.ok.inj h).symm⟩
        exact List.any_eq_true.mpr ⟨pair, hpair, by simp [hnot, heq]⟩

/-- A statement that succeeds appends the stored form of every row, in order. -/
theorem insertAll_ok {cellss : List (List Cell)} (h : t.insertAll engine cellss = .ok u) :
    u.columns = t.columns ∧ u.rows = t.rows ++ cellss.map (stored engine t.columns) ∧
      ∀ cells ∈ cellss, cells.length = t.columns.length ∧
        ∀ pair ∈ t.columns.zip (stored engine t.columns cells),
          pair.1.notNull = true → pair.2 ≠ .null := by
  induction cellss generalizing t with
  | nil =>
      obtain rfl := Except.ok.inj h
      simp
  | cons cells rest ih =>
      unfold insertAll at h
      split at h
      · rename_i v hv
        obtain ⟨hlen, hnull, rfl⟩ := insert_ok hv
        obtain ⟨hcolumns, hrows, hall⟩ := ih h
        refine ⟨hcolumns, by simpa using hrows, fun cells' hcells' => ?_⟩
        rcases List.mem_cons.mp hcells' with rfl | hrest
        · exact ⟨hlen, hnull⟩
        · exact hall cells' hrest
      · cases h

theorem insertSelect_ok {source : Table} (h : t.insertSelect engine source = .ok u) :
    u.columns = t.columns ∧ u.rows = t.rows ++ source.rows.map (stored engine t.columns) ∧
      ∀ cells ∈ source.rows, cells.length = t.columns.length ∧
        ∀ pair ∈ t.columns.zip (stored engine t.columns cells),
          pair.1.notNull = true → pair.2 ≠ .null := by
  unfold insertSelect at h
  split at h
  · cases h
  · exact insertAll_ok h

theorem insertColumns_ok {names selected : List String} {source : Table}
    (h : t.insertColumns engine names source selected = .ok u) :
    (∀ name ∈ selected, name ∈ source.columns.map Column.name) ∧ u.columns = t.columns ∧
      u.rows = t.rows ++ source.rows.map fun row =>
        stored engine t.columns (t.fill names (source.pick row selected)) := by
  unfold insertColumns at h
  split at h
  · cases h
  · split at h
    · cases h
    · rename_i hselected
      obtain ⟨hcolumns, hrows, _⟩ := insertAll_ok h
      refine ⟨fun name hname => ?_, hcolumns, by simpa [Function.comp_def] using hrows⟩
      by_contra hmissing
      exact hselected (List.any_eq_true.mpr ⟨name, hname, by simpa using hmissing⟩)

end Table

/-! ## Rows that arrive -/

/-- The rows of `new` are those of `old`, under the names of `renames`, each of them once. -/
def Carried (old new : Table) (renames : List (String × String)) : Prop :=
  (new.rows.map fun row => renames.map fun pair => cellAt new.columns row pair.2).Perm
    (old.rows.map fun row => renames.map fun pair => cellAt old.columns row pair.1)

/-- A copy by position into columns of the same names and affinities carries every row. -/
theorem carried_insertSelect {engine : Engine} {t u source : Table}
    (h : t.insertSelect engine source = .ok u) (hempty : t.rows = [])
    (hnames : source.columns.map Column.name = t.columns.map Column.name)
    (haff : source.columns.map Column.affinity = t.columns.map Column.affinity)
    (hrows : ∀ row ∈ source.rows, Stores engine source.columns row) (names : List String) :
    Carried source u (names.map fun name => (name, name)) := by
  obtain ⟨hcolumns, hu, _⟩ := Table.insertSelect_ok h
  have hsame : u.rows = source.rows := by
    rw [hu, hempty, List.nil_append]
    conv_rhs => rw [← List.map_id source.rows]
    exact List.map_congr_left fun row hrow => stored_of_stores (hrows row hrow) haff
  unfold Carried
  rw [hsame]
  refine List.Perm.of_eq (List.map_congr_left fun row _ => ?_)
  simp only [List.map_map, Function.comp_def, hcolumns, cellAt_congr hnames]

/-- Looking up every name of a list, in a list of cells of the same length. -/
theorem map_lookup_zip {names : List String} (hnodup : names.Nodup) :
    ∀ {cells : List Cell}, cells.length = names.length →
      (names.map fun name => ((names.zip cells).lookup name).getD .null) = cells := by
  induction names with
  | nil =>
      intro cells hlen
      exact (List.eq_nil_of_length_eq_zero hlen).symm
  | cons name names ih =>
      intro cells hlen
      cases cells with
      | nil => simp at hlen
      | cons cell cells =>
          obtain ⟨hfresh, hnodup⟩ := List.nodup_cons.mp hnodup
          simp only [List.zip_cons_cons, List.map_cons, List.lookup_cons_self, Option.getD_some]
          rw [List.cons.injEq]
          refine ⟨rfl, ?_⟩
          refine Eq.trans ?_ (ih hnodup (by simpa using hlen))
          refine List.map_congr_left fun other hother => ?_
          have hne : (other == name) = false := by
            simp only [beq_eq_false_iff_ne, ne_eq]
            intro heq
            exact hfresh (heq ▸ hother)
          rw [List.lookup_cons, hne]

/-- The cells of a row, read back under the names of its columns. -/
theorem map_cellAt {columns : List Column} (hnodup : (columns.map Column.name).Nodup) :
    ∀ {row : List Cell}, row.length = columns.length →
      (columns.map fun column => cellAt columns row column.name) = row.map some := by
  induction columns with
  | nil =>
      intro row hlen
      rw [List.eq_nil_of_length_eq_zero hlen]
      rfl
  | cons column columns ih =>
      intro row hlen
      cases row with
      | nil => simp at hlen
      | cons cell row =>
          obtain ⟨hfresh, hnodup⟩ := List.nodup_cons.mp hnodup
          have hhead : cellAt (column :: columns) (cell :: row) column.name = some cell := by
            simp [cellAt]
          simp only [List.map_cons, hhead, List.cons.injEq, true_and]
          rw [← ih hnodup (by simpa using hlen)]
          refine List.map_congr_left fun other hother => ?_
          have hne : column.name ≠ other.name := by
            intro heq
            exact hfresh (heq ▸ List.mem_map_of_mem hother)
          simp [cellAt, hne]

/-- The cell under the name of a column is the cell at its position. -/
theorem cellAt_position {columns : List Column} (hnodup : (columns.map Column.name).Nodup)
    {row : List Cell} (hlen : row.length = columns.length) (i : Nat) (column : Column)
    (hi : columns[i]? = some column) : cellAt columns row column.name = row[i]? := by
  have hmap := congrArg (fun cells => cells[i]?) (map_cellAt hnodup hlen)
  simp only [List.getElem?_map, hi, Option.map_some] at hmap
  cases hcell : row[i]? with
  | none => simp [hcell] at hmap
  | some cell =>
      rw [hcell, Option.map_some] at hmap
      exact Option.some.inj hmap

/-- A copy by name into all columns carries every row, when the columns it pairs have the same
affinities. -/
theorem carried_insertColumns {engine : Engine} {t u source : Table} {names selected : List String}
    (h : t.insertColumns engine names source selected = .ok u) (hempty : t.rows = [])
    (hnames : t.columns.map Column.name = names) (hnodup : names.Nodup)
    (hlen : selected.length = names.length)
    (haff : ∀ pair ∈ selected.zip t.columns, ∀ column ∈ source.columns, column.name = pair.1 →
      column.affinity = pair.2.affinity)
    (hrows : ∀ row ∈ source.rows, Stores engine source.columns row) :
    Carried source u (selected.zip names) := by
  obtain ⟨hselected, hcolumns, hu⟩ := Table.insertColumns_ok h
  subst hnames
  have hstored : ∀ row ∈ source.rows, stored engine t.columns
      (t.fill (t.columns.map Column.name) (source.pick row selected)) =
      source.pick row selected := by
    intro row hrow
    have hpick : (source.pick row selected).length = (t.columns.map Column.name).length := by
      simpa [Table.pick] using hlen
    have hfill : t.fill (t.columns.map Column.name) (source.pick row selected) =
        source.pick row selected := by
      have hlookup := map_lookup_zip hnodup hpick
      unfold Table.fill
      simpa [Function.comp_def] using hlookup
    rw [hfill]
    have hsame : ∀ pair ∈ t.columns.zip (source.pick row selected),
        engine.convert pair.1.affinity pair.2 = pair.2 := by
      intro pair hpair
      obtain ⟨i, hi, rfl⟩ := List.getElem_of_mem hpair
      have hi' : i < selected.length := by
        have := hi
        simp only [List.length_zip, List.length_map, Table.pick] at this
        omega
      have hc : i < t.columns.length := by
        have := hi
        simp only [List.length_zip] at this
        omega
      simp only [List.getElem_zip, Table.pick, List.getElem_map]
      obtain ⟨cell, hcell⟩ := cellAt_isSome (hrows row hrow).length_eq
        (hselected _ (List.getElem_mem hi'))
      obtain ⟨column, hmem, hname⟩ := cellAt_mem hcell
      have hpairAff := haff (selected[i], t.columns[i])
        (by
          have hz : i < (selected.zip t.columns).length := by
            rw [List.length_zip]
            omega
          have hget : (selected.zip t.columns)[i] = (selected[i], t.columns[i]) := by simp
          rw [← hget]
          exact List.getElem_mem hz) column (List.of_mem_zip hmem).1 hname
      rw [hcell, Option.getD_some, ← hpairAff]
      exact (hrows row hrow).fixed _ hmem
    exact stored_of_stores ⟨by simpa using hpick, hsame⟩ rfl
  unfold Carried
  rw [hu, hempty, List.nil_append, List.map_map]
  refine List.Perm.of_eq (List.map_congr_left fun row hrow => ?_)
  simp only [Function.comp_apply, hcolumns, hstored row hrow]
  have hpick : (source.pick row selected).length = t.columns.length := by
    simpa [Table.pick] using hlen
  have hnew : ((t.columns.map Column.name).map fun name =>
      cellAt t.columns (source.pick row selected) name) = (source.pick row selected).map some := by
    have hmap := map_cellAt hnodup hpick
    simpa [Function.comp_def] using hmap
  have hold : (source.pick row selected).map some =
      selected.map fun name => cellAt source.columns row name := by
    unfold Table.pick
    rw [List.map_map]
    refine List.map_congr_left fun name hname => ?_
    obtain ⟨cell, hcell⟩ := cellAt_isSome (hrows row hrow).length_eq (hselected name hname)
    simp [hcell]
  have hsnd : (selected.zip (t.columns.map Column.name)).map Prod.snd =
      t.columns.map Column.name := List.map_snd_zip (by omega)
  have hfst : (selected.zip (t.columns.map Column.name)).map Prod.fst = selected :=
    List.map_fst_zip (by omega)
  calc (selected.zip (t.columns.map Column.name)).map
        (fun pair => cellAt t.columns (source.pick row selected) pair.2)
      = ((selected.zip (t.columns.map Column.name)).map Prod.snd).map
          fun name => cellAt t.columns (source.pick row selected) name := by rw [List.map_map]; rfl
    _ = (source.pick row selected).map some := by rw [hsnd, hnew]
    _ = ((selected.zip (t.columns.map Column.name)).map Prod.fst).map
          fun name => cellAt source.columns row name := by rw [hfst, hold]
    _ = (selected.zip (t.columns.map Column.name)).map
          (fun pair => cellAt source.columns row pair.1) := by rw [List.map_map]; rfl

end Sql
