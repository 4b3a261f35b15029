import Codex2Lark.Core.DocumentModels
import Mathlib.Algebra.BigOperators.Group.Finset.Piecewise
import Mathlib.Algebra.Order.BigOperators.Group.List
import Mathlib.Algebra.Order.Group.Nat
import Mathlib.Order.Interval.Finset.Nat
import Mathlib.Algebra.GroupWithZero.Nat

/-!
The layout of a rendered table: each cell takes the next free column of its row and covers its spans.
`validate_table_shape` compares the sums of the column spans of the rows and does not look at the row
spans.
-/

namespace Codex2Lark

/-- A cell where the layout has put it. -/
structure PlacedCell where
  cell : TableCell
  row : Nat
  column : Nat

namespace PlacedCell

variable (placed : PlacedCell)

def coversRow (row : Nat) : Bool := placed.row ≤ row && row < placed.row + placed.cell.rowspan

def coversColumn (column : Nat) : Bool :=
  placed.column ≤ column && column < placed.column + placed.cell.colspan

def covers (row column : Nat) : Bool := placed.coversRow row && placed.coversColumn column

end PlacedCell

namespace TableLayout

/-- The search for a free column, in at most so many columns. -/
def nextFree (placed : List PlacedCell) (row : Nat) : Nat → Nat → Nat
  | 0, column => column
  | fuel + 1, column =>
      if placed.any fun cell => cell.covers row column then nextFree placed row fuel (column + 1)
      else column

/-- No column from here on is taken. -/
def rightEdge (placed : List PlacedCell) : Nat :=
  (placed.map fun cell => cell.column + cell.cell.colspan).sum

/-- The first column from `column` on that no cell of an earlier row covers. -/
def freeColumn (placed : List PlacedCell) (row column : Nat) : Nat :=
  nextFree placed row (rightEdge placed) column

def layoutRow (placed : List PlacedCell) (row : Nat) : Nat → List TableCell → List PlacedCell
  | _, [] => []
  | column, cell :: rest =>
      let free := freeColumn placed row column
      ⟨cell, row, free⟩ :: layoutRow placed row (free + cell.colspan) rest

def layoutRows (placed : List PlacedCell) (row : Nat) : List (List TableCell) → List PlacedCell
  | [] => placed
  | cells :: rest => layoutRows (placed ++ layoutRow placed row 0 cells) (row + 1) rest

/-- The rows as `_render_table` writes them. -/
def gridRows (table : TableFields) : List (List TableCell) :=
  if table.headers.1 ≠ [] then table.headers.1 :: table.rows.1 else table.rows.1

def layout (table : TableFields) : List PlacedCell := layoutRows [] 0 (gridRows table)

/-- The cells cover each place of a rectangle once, and nothing else. -/
def CoversOnce (placed : List PlacedCell) (height width : Nat) : Prop :=
  ∀ row column, placed.countP (fun cell => cell.covers row column) =
    if row < height ∧ column < width then 1 else 0

/-- The layout tiles a rectangle of this width that has all the rows. -/
def Tiles (table : TableFields) (width : Nat) : Prop :=
  ∃ height, (gridRows table).length ≤ height ∧ CoversOnce (layout table) height width

/-- The column found is free: the search does not end too early. -/
theorem freeColumn_free (placed : List PlacedCell) (row column : Nat) :
    ∀ cell ∈ placed, cell.covers row (freeColumn placed row column) = false := by
  have hsearch : ∀ fuel column, rightEdge placed ≤ column + fuel →
      ∀ cell ∈ placed, cell.covers row (nextFree placed row fuel column) = false := by
    intro fuel
    induction fuel with
    | zero =>
        intro column hedge cell hcell
        have hright : cell.column + cell.cell.colspan ≤ rightEdge placed :=
          List.single_le_sum (fun _ _ => Nat.zero_le _) _ (List.mem_map_of_mem hcell)
        have hpast : ¬ column < cell.column + cell.cell.colspan := by omega
        simp [nextFree, PlacedCell.covers, PlacedCell.coversColumn, hpast]
    | succ fuel ih =>
        intro column hedge cell hcell
        unfold nextFree
        split
        · exact ih (column + 1) (by omega) cell hcell
        · rename_i hfree
          exact Bool.eq_false_iff.mpr fun hcovers => hfree (List.any_eq_true.mpr ⟨cell, hcell, hcovers⟩)
  exact hsearch _ column (by omega)

/-! ### Which cells a layout has in a row -/

def cellsIn (row : Nat) (placed : List PlacedCell) : List TableCell :=
  (placed.filter fun cell => cell.row = row).map PlacedCell.cell

theorem layoutRow_row {placed : List PlacedCell} {row column : Nat} {cells : List TableCell} :
    ∀ cell ∈ layoutRow placed row column cells, cell.row = row := by
  induction cells generalizing column with
  | nil => nofun
  | cons first rest ih =>
      intro cell hcell
      rcases List.mem_cons.mp hcell with rfl | hcell
      · rfl
      · exact ih cell hcell

theorem layoutRow_cells (placed : List PlacedCell) (row column : Nat) (cells : List TableCell) :
    (layoutRow placed row column cells).map PlacedCell.cell = cells := by
  induction cells generalizing column with
  | nil => rfl
  | cons first rest ih => rw [layoutRow, List.map_cons, ih]

theorem cellsIn_layoutRow (placed : List PlacedCell) (row other : Nat) (cells : List TableCell) :
    cellsIn other (layoutRow placed row 0 cells) = if row = other then cells else [] := by
  unfold cellsIn
  split
  · rename_i hsame
    rw [List.filter_eq_self.mpr, layoutRow_cells]
    intro cell hcell
    simpa [layoutRow_row cell hcell] using hsame
  · rename_i hother
    rw [List.filter_eq_nil_iff.mpr, List.map_nil]
    intro cell hcell
    simpa [layoutRow_row cell hcell] using hother

theorem cellsIn_append (row : Nat) (first second : List PlacedCell) :
    cellsIn row (first ++ second) = cellsIn row first ++ cellsIn row second := by
  simp [cellsIn]

/-- Row by row the layout has the cells of the table. -/
theorem cellsIn_layoutRows (placed : List PlacedCell) (row other : Nat)
    (rows : List (List TableCell)) :
    cellsIn other (layoutRows placed row rows) =
      cellsIn other placed ++ if row ≤ other then rows.getD (other - row) [] else [] := by
  induction rows generalizing placed row with
  | nil => simp [layoutRows]
  | cons cells rest ih =>
      rw [layoutRows, ih, cellsIn_append, cellsIn_layoutRow, List.append_assoc]
      congr 1
      rcases Nat.lt_trichotomy row other with hlt | heq | hgt
      · rw [if_neg (by omega), if_pos (by omega), if_pos (by omega),
          show other - row = (other - (row + 1)) + 1 from by omega]
        simp
      · subst heq
        simp
      · rw [if_neg (by omega), if_neg (by omega), if_neg (by omega), List.append_nil]

theorem cellsIn_layout (table : TableFields) (row : Nat) :
    cellsIn row (layout table) = (gridRows table).getD row [] := by
  rw [layout, cellsIn_layoutRows]
  simp [cellsIn]

theorem row_lt_of_mem {table : TableFields} {cell : PlacedCell} (hcell : cell ∈ layout table) :
    cell.row < (gridRows table).length := by
  have hmem : cell.cell ∈ cellsIn cell.row (layout table) :=
    List.mem_map.mpr ⟨cell, List.mem_filter.mpr ⟨hcell, by simp⟩, rfl⟩
  rw [cellsIn_layout] at hmem
  by_contra hout
  rw [List.getD_eq_getElem?_getD, List.getElem?_eq_none (Nat.le_of_not_lt hout)] at hmem
  cases hmem

/-! ### The columns that a row has covered -/

/-- The columns covered in a row, each as often as it is covered. -/
def rowCover (placed : List PlacedCell) (row : Nat) : Nat :=
  (placed.map fun cell => if cell.coversRow row then cell.cell.colspan else 0).sum

theorem sum_covers (placed : List PlacedCell) (row bound : Nat)
    (hbound : ∀ cell ∈ placed, cell.column + cell.cell.colspan ≤ bound) :
    ∑ column ∈ Finset.range bound, placed.countP (fun cell => cell.covers row column) =
      rowCover placed row := by
  induction placed with
  | nil => simp [rowCover]
  | cons first rest ih =>
      obtain ⟨hfirst, hrest⟩ := List.forall_mem_cons.mp hbound
      have hone : ∑ column ∈ Finset.range bound, (if first.covers row column = true then 1 else 0) =
          if first.coversRow row = true then first.cell.colspan else 0 := by
        rw [← Finset.card_filter]
        by_cases hrow : first.coversRow row = true
        · have hcolumns : (Finset.range bound).filter (fun column => first.covers row column = true) =
              Finset.Ico first.column (first.column + first.cell.colspan) := by
            ext column
            simp only [Finset.mem_filter, Finset.mem_range, Finset.mem_Ico, PlacedCell.covers, hrow,
              PlacedCell.coversColumn, Bool.true_and, Bool.and_eq_true, decide_eq_true_eq]
            omega
          rw [hcolumns, Nat.card_Ico, if_pos hrow]
          omega
        · simp [PlacedCell.covers, hrow]
      simp only [List.countP_cons, Finset.sum_add_distrib, ih hrest, hone, rowCover, List.map_cons,
        List.sum_cons]
      omega

/-- In a rectangle every row of it is as wide as the rectangle. -/
theorem rowCover_of_coversOnce {placed : List PlacedCell} {height width row : Nat}
    (honce : CoversOnce placed height width) :
    rowCover placed row = if row < height then width else 0 := by
  have hedge : ∀ cell ∈ placed, cell.column + cell.cell.colspan ≤ width + rightEdge placed := by
    intro cell hcell
    have hright : cell.column + cell.cell.colspan ≤ rightEdge placed :=
      List.single_le_sum (fun _ _ => Nat.zero_le _) _ (List.mem_map_of_mem hcell)
    omega
  rw [← sum_covers placed row _ hedge, Finset.sum_congr rfl fun column _ => honce row column]
  by_cases hrow : row < height
  · have hcolumns : (Finset.range (width + rightEdge placed)).filter (fun column => column < width) =
        Finset.range width := by
      ext column
      simp only [Finset.mem_filter, Finset.mem_range]
      omega
    simp only [hrow, true_and, if_true, ← Finset.card_filter, hcolumns, Finset.card_range]
  · simp [hrow]

theorem coversRow_own (cell : PlacedCell) : cell.coversRow cell.row = true := by
  have hspan := cell.cell.rowspanRange.1
  simp [PlacedCell.coversRow]
  omega

/-- The row's own cells and what reaches into it from above. -/
theorem rowCover_eq (placed : List PlacedCell) (row : Nat) :
    rowCover placed row = rowWidth (cellsIn row placed) +
      (placed.map fun cell =>
        if cell.coversRow row ∧ cell.row ≠ row then cell.cell.colspan else 0).sum := by
  unfold rowCover rowWidth cellsIn
  induction placed with
  | nil => rfl
  | cons first rest ih =>
      by_cases hown : first.row = row
      · have hcovers : first.coversRow row = true := hown ▸ coversRow_own first
        simp only [List.map_cons, List.sum_cons, hcovers, if_true, hown, ne_eq, not_true_eq_false,
          and_false, if_false, List.filter_cons, decide_true, ih]
        omega
      · simp only [List.map_cons, List.sum_cons, hown, ne_eq, not_false_eq_true, and_true,
          List.filter_cons, decide_false, Bool.false_eq_true, if_false, ih]
        omega

/-- A cell that reaches into a row leaves less room for the row's own cells. -/
theorem rowWidth_lt_rowCover {placed : List PlacedCell} {row : Nat} {cell : PlacedCell}
    (hcell : cell ∈ placed) (hcovers : cell.coversRow row = true) (habove : cell.row ≠ row) :
    rowWidth (cellsIn row placed) < rowCover placed row := by
  have hspan := cell.cell.colspanRange.1
  have hpart : cell.cell.colspan ≤ (placed.map fun cell =>
      if cell.coversRow row ∧ cell.row ≠ row then cell.cell.colspan else 0).sum := by
    have hle := List.single_le_sum (fun _ _ => Nat.zero_le _) _
      (List.mem_map_of_mem (f := fun cell : PlacedCell =>
        if cell.coversRow row = true ∧ cell.row ≠ row then cell.cell.colspan else 0) hcell)
    simpa [hcovers, habove] using hle
  rw [rowCover_eq]
  omega

/-! ### Tables whose cells keep to their rows -/

/-- No cell spans into a later row of the table; the cells of the last row span equally far. -/
def KeepsToRows : List (List TableCell) → Prop
  | [] => True
  | [last] => ∃ span, 1 ≤ span ∧ ∀ cell ∈ last, cell.rowspan = span
  | cells :: rest => (∀ cell ∈ cells, cell.rowspan = 1) ∧ KeepsToRows rest

/-- How many rows such a table covers. -/
def spannedRows : List (List TableCell) → Nat
  | [] => 0
  | [last] => (last.head?.map TableCell.rowspan).getD 1
  | _ :: rest => spannedRows rest + 1

theorem freeColumn_of_empty {placed : List PlacedCell} {row : Nat}
    (hempty : ∀ cell ∈ placed, cell.coversRow row = false) (column : Nat) :
    freeColumn placed row column = column := by
  unfold freeColumn
  cases rightEdge placed with
  | zero => rfl
  | succ fuel =>
      rw [nextFree, if_neg]
      rw [List.any_eq_true]
      rintro ⟨cell, hcell, hcovers⟩
      simp [PlacedCell.covers, hempty cell hcell] at hcovers

/-- In a row that nothing reaches into, the cells stand side by side. -/
theorem countP_layoutRow {placed : List PlacedCell} {row span : Nat}
    (hempty : ∀ cell ∈ placed, cell.coversRow row = false) {cells : List TableCell}
    (hspan : ∀ cell ∈ cells, cell.rowspan = span) (start other column : Nat) :
    (layoutRow placed row start cells).countP (fun cell => cell.covers other column) =
      if (row ≤ other ∧ other < row + span) ∧ start ≤ column ∧ column < start + rowWidth cells then 1
      else 0 := by
  induction cells generalizing start with
  | nil =>
      rw [if_neg]
      · rfl
      · simp [rowWidth]
  | cons first rest ih =>
      obtain ⟨hfirst, hrest⟩ := List.forall_mem_cons.mp hspan
      have hcolspan := first.colspanRange.1
      have hwidth : rowWidth (first :: rest) = first.colspan + rowWidth rest := by simp [rowWidth]
      rw [layoutRow, freeColumn_of_empty hempty, List.countP_cons, ih hrest, hwidth]
      by_cases hrow : row ≤ other ∧ other < row + span
      · by_cases hcolumn : start ≤ column ∧ column < start + first.colspan
        · have hpast : ¬ start + first.colspan ≤ column := by omega
          have hinside : start ≤ column ∧ column < start + (first.colspan + rowWidth rest) := by omega
          simp [PlacedCell.covers, PlacedCell.coversRow, PlacedCell.coversColumn, hfirst, hrow,
            hcolumn, hpast, hinside]
        · have hnot : ¬ (start ≤ column ∧ column < start + first.colspan) := hcolumn
          have hiff : (start + first.colspan ≤ column ∧
              column < start + first.colspan + rowWidth rest) ↔
                start ≤ column ∧ column < start + (first.colspan + rowWidth rest) := by omega
          simp [PlacedCell.covers, PlacedCell.coversRow, PlacedCell.coversColumn, hfirst, hrow,
            hnot, hiff]
      · simp [PlacedCell.covers, PlacedCell.coversRow, hfirst, hrow]

/-- Equally wide rows whose cells keep to them cover every place once. -/
theorem countP_layoutRows {width : Nat} (rows : List (List TableCell)) (placed : List PlacedCell)
    (row : Nat) (hempty : ∀ cell ∈ placed, ∀ other, row ≤ other → cell.coversRow other = false)
    (hkeeps : KeepsToRows rows) (hwidth : ∀ cells ∈ rows, rowWidth cells = width)
    (other column : Nat) :
    (layoutRows placed row rows).countP (fun cell => cell.covers other column) =
      placed.countP (fun cell => cell.covers other column) +
        if (row ≤ other ∧ other < row + spannedRows rows) ∧ column < width then 1 else 0 := by
  induction rows generalizing placed row with
  | nil => simp [layoutRows, spannedRows]
  | cons cells rest ih =>
      have hcells : rowWidth cells = width := hwidth cells List.mem_cons_self
      have hfree : ∀ cell ∈ placed, cell.coversRow row = false :=
        fun cell hcell => hempty cell hcell row le_rfl
      cases rest with
      | nil =>
          obtain ⟨span, -, hspan⟩ := hkeeps
          rw [layoutRows, layoutRows, List.countP_append, countP_layoutRow hfree hspan, hcells]
          cases cells with
          | nil =>
              have hnone : width = 0 := hcells.symm
              simp [hnone]
          | cons first others =>
              have hfirst : first.rowspan = span := hspan first List.mem_cons_self
              simp [spannedRows, hfirst]
      | cons second others =>
          obtain ⟨hspan, hrest⟩ := hkeeps
          rw [layoutRows, ih]
          · rw [List.countP_append, countP_layoutRow hfree hspan, hcells]
            have hrows : spannedRows (cells :: second :: others) =
                spannedRows (second :: others) + 1 := rfl
            rw [hrows, Nat.add_assoc]
            congr 1
            by_cases hcolumn : column < width
            · by_cases hfirst : row ≤ other ∧ other < row + 1
              · have hlater : ¬ row + 1 ≤ other := by omega
                have hall : row ≤ other ∧ other < row + (spannedRows (second :: others) + 1) := by
                  omega
                simp only [hcolumn, Nat.zero_le, Nat.zero_add, and_true, if_pos hfirst, hlater,
                  false_and, if_false, if_pos hall]
              · have hiff : (row + 1 ≤ other ∧
                    other < row + 1 + spannedRows (second :: others)) ↔
                      row ≤ other ∧ other < row + (spannedRows (second :: others) + 1) := by omega
                simp only [hcolumn, Nat.zero_le, Nat.zero_add, and_true, if_neg hfirst, hiff]
            · simp [hcolumn]
          · intro cell hcell later hlater
            rcases List.mem_append.mp hcell with hold | hnew
            · exact hempty cell hold later (by omega)
            · have hrow := layoutRow_row cell hnew
              have hmem : cell.cell ∈ cells := by
                rw [← layoutRow_cells placed row 0 cells]
                exact List.mem_map_of_mem hnew
              have hone := hspan cell.cell hmem
              simp [PlacedCell.coversRow, hrow, hone]
              omega
          · exact hrest
          · exact fun others hothers => hwidth others (List.mem_cons_of_mem _ hothers)

theorem length_le_spannedRows (rows : List (List TableCell)) : rows.length ≤ spannedRows rows := by
  induction rows with
  | nil => exact le_rfl
  | cons cells rest ih =>
      cases rest with
      | nil =>
          cases cells with
          | nil => simp [spannedRows]
          | cons first others => simpa [spannedRows] using first.rowspanRange.1
      | cons second others =>
          have hrows : spannedRows (cells :: second :: others) =
            spannedRows (second :: others) + 1 := rfl
          rw [hrows, List.length_cons]
          omega

theorem tiles_of_keepsToRows {table : TableFields} {width : Nat}
    (hkeeps : KeepsToRows (gridRows table))
    (hwidth : ∀ cells ∈ gridRows table, rowWidth cells = width) : Tiles table width := by
  refine ⟨spannedRows (gridRows table), length_le_spannedRows _, ?_⟩
  intro row column
  rw [layout, countP_layoutRows (gridRows table) [] 0 nofun hkeeps hwidth]
  simp

theorem keepsToRows_iff {rows : List (List TableCell)} :
    KeepsToRows rows ↔
      (∀ i, i + 1 < rows.length → ∀ cell ∈ rows.getD i [], cell.rowspan = 1) ∧
        ∃ span, 1 ≤ span ∧ ∀ cell ∈ rows.getD (rows.length - 1) [], cell.rowspan = span := by
  induction rows with
  | nil => simp [KeepsToRows, show ∃ span : Nat, 1 ≤ span from ⟨1, le_rfl⟩]
  | cons cells rest ih =>
      cases rest with
      | nil => simp [KeepsToRows]
      | cons second others =>
          have hunfold : KeepsToRows (cells :: second :: others) =
            ((∀ cell ∈ cells, cell.rowspan = 1) ∧ KeepsToRows (second :: others)) := rfl
          rw [hunfold, ih]
          constructor
          · rintro ⟨hfirst, hrest, hlast⟩
            refine ⟨?_, by simpa using hlast⟩
            intro i hi
            cases i with
            | zero => exact hfirst
            | succ i => simpa using hrest i (by simpa using hi)
          · rintro ⟨hall, hlast⟩
            refine ⟨hall 0 (by simp), ?_, by simpa using hlast⟩
            intro i hi
            simpa using hall (i + 1) (by simpa using hi)

variable {table : TableFields} {width : Nat}

theorem mem_cellsIn_own {placed : List PlacedCell} {cell : PlacedCell} (hcell : cell ∈ placed) :
    cell.cell ∈ cellsIn cell.row placed :=
  List.mem_map.mpr ⟨cell, List.mem_filter.mpr ⟨hcell, by simp⟩, rfl⟩

theorem rowWidth_of_tiles (hkeeps : KeepsToRows (gridRows table)) (htiles : Tiles table width) :
    ∀ cells ∈ gridRows table, rowWidth cells = width := by
  obtain ⟨height, hheight, honce⟩ := htiles
  intro cells hcells
  obtain ⟨row, hrow, rfl⟩ := List.mem_iff_getElem.mp hcells
  have hown : cellsIn row (layout table) = (gridRows table)[row] := by
    rw [cellsIn_layout, List.getD_eq_getElem?_getD, List.getElem?_eq_getElem hrow]
    rfl
  have hcover : rowCover (layout table) row = width := by
    rw [rowCover_of_coversOnce honce, if_pos (by omega)]
  -- nothing reaches into the row from above
  have hnothing : ((layout table).map fun cell =>
      if cell.coversRow row ∧ cell.row ≠ row then cell.cell.colspan else 0).sum = 0 := by
    refine List.sum_eq_zero ?_
    intro part hpart
    obtain ⟨cell, hcell, rfl⟩ := List.mem_map.mp hpart
    refine if_neg ?_
    rintro ⟨hcovers, hother⟩
    have hplaced := row_lt_of_mem hcell
    simp only [PlacedCell.coversRow, Bool.and_eq_true, decide_eq_true_eq] at hcovers
    have hmem := mem_cellsIn_own hcell
    rw [cellsIn_layout] at hmem
    have hone := (keepsToRows_iff.mp hkeeps).1 cell.row (by omega) cell.cell hmem
    omega
  rw [rowCover_eq, hnothing, hown] at hcover
  omega

/-- Two places in the list that cover one place of the table. -/
theorem eq_of_covers_once {placed : List PlacedCell} {row column : Nat}
    (hone : placed.countP (fun cell => cell.covers row column) = 1) {first second : PlacedCell}
    (hfirst : first ∈ placed) (hsecond : second ∈ placed)
    (hcovers : first.covers row column = true) (hcovers' : second.covers row column = true) :
    first = second := by
  rw [List.countP_eq_length_filter] at hone
  obtain ⟨only, honly⟩ := List.length_eq_one_iff.mp hone
  have hfirst' : first ∈ placed.filter fun cell => cell.covers row column :=
    List.mem_filter.mpr ⟨hfirst, hcovers⟩
  have hsecond' : second ∈ placed.filter fun cell => cell.covers row column :=
    List.mem_filter.mpr ⟨hsecond, hcovers'⟩
  rw [honly, List.mem_singleton] at hfirst' hsecond'
  rw [hfirst', hsecond']

theorem covers_own (cell : PlacedCell) : cell.covers cell.row cell.column = true := by
  have hspan := cell.cell.colspanRange.1
  rw [PlacedCell.covers, coversRow_own, PlacedCell.coversColumn]
  simp
  omega

/-- In a rectangle of equally wide rows no cell reaches into a later row of the table. -/
theorem rowspan_eq_one {height common : Nat} (honce : CoversOnce (layout table) height width)
    (hheight : (gridRows table).length ≤ height)
    (hcommon : ∀ cells ∈ gridRows table, rowWidth cells = common) {cell : PlacedCell}
    (hcell : cell ∈ layout table) (hrow : cell.row + 1 < (gridRows table).length) :
    cell.cell.rowspan = 1 := by
  have hown : ∀ row, row < (gridRows table).length →
      rowWidth (cellsIn row (layout table)) = common := by
    intro row hrow
    rw [cellsIn_layout, List.getD_eq_getElem?_getD, List.getElem?_eq_getElem hrow]
    exact hcommon _ (List.getElem_mem hrow)
  have hcover : ∀ row, row < (gridRows table).length → rowCover (layout table) row = width := by
    intro row hrow
    rw [rowCover_of_coversOnce honce, if_pos (by omega)]
  -- nothing is above the first row, so the rectangle is as wide as the rows
  have hwidth : common ≤ width := by
    rw [← hown 0 (by omega), ← hcover 0 (by omega), rowCover_eq]
    omega
  have hfirst : width ≤ common := by
    have hnothing : ((layout table).map fun cell =>
        if cell.coversRow 0 ∧ cell.row ≠ 0 then cell.cell.colspan else 0).sum = 0 := by
      refine List.sum_eq_zero ?_
      intro part hpart
      obtain ⟨other, _, rfl⟩ := List.mem_map.mp hpart
      refine if_neg ?_
      rintro ⟨hcovers, hother⟩
      simp only [PlacedCell.coversRow, Bool.and_eq_true, decide_eq_true_eq] at hcovers
      omega
    rw [← hown 0 (by omega), ← hcover 0 (by omega), rowCover_eq, hnothing]
    omega
  have hspan := cell.cell.rowspanRange.1
  by_contra hlonger
  have hcovers : cell.coversRow (cell.row + 1) = true := by
    simp [PlacedCell.coversRow]
    omega
  have hless := rowWidth_lt_rowCover hcell hcovers (by omega)
  rw [hown _ hrow, hcover _ hrow] at hless
  omega

theorem keepsToRows_of_tiles {common : Nat}
    (hcommon : ∀ cells ∈ gridRows table, rowWidth cells = common) (htiles : Tiles table width) :
    KeepsToRows (gridRows table) := by
  obtain ⟨height, hheight, honce⟩ := htiles
  have hplaced : ∀ row, ∀ cell ∈ (gridRows table).getD row [],
      ∃ placed ∈ layout table, placed.row = row ∧ placed.cell = cell := by
    intro row cell hcell
    rw [← cellsIn_layout] at hcell
    obtain ⟨placed, hmem, rfl⟩ := List.mem_map.mp hcell
    obtain ⟨hmem, hrow⟩ := List.mem_filter.mp hmem
    exact ⟨placed, hmem, by simpa using hrow, rfl⟩
  -- the lower end of the shorter of two cells of the last row would be covered by nothing
  have hequal : ∀ first ∈ layout table, ∀ second ∈ layout table,
      first.row + 1 = (gridRows table).length → second.row = first.row →
      ¬ first.cell.rowspan < second.cell.rowspan := by
    intro first hfirst second hsecond hlast hsame hshorter
    have hbelow : first.row + first.cell.rowspan < height := by
      have hcovered := honce (first.row + first.cell.rowspan) second.column
      by_contra hout
      rw [if_neg (by omega)] at hcovered
      refine List.countP_eq_zero.mp hcovered second hsecond ?_
      have hcolspan := second.cell.colspanRange.1
      simp [PlacedCell.covers, PlacedCell.coversRow, PlacedCell.coversColumn, hsame]
      omega
    have hinside : first.column < width := by
      have hcovered := honce first.row first.column
      by_contra hout
      rw [if_neg (by omega)] at hcovered
      exact List.countP_eq_zero.mp hcovered first hfirst (covers_own first)
    have hcovered := honce (first.row + first.cell.rowspan) first.column
    rw [if_pos ⟨hbelow, hinside⟩] at hcovered
    obtain ⟨other, hother, hcovers⟩ := List.countP_pos_iff.mp (by omega :
      0 < (layout table).countP fun cell =>
        cell.covers (first.row + first.cell.rowspan) first.column)
    have hlt := row_lt_of_mem hother
    simp only [PlacedCell.covers, PlacedCell.coversRow, PlacedCell.coversColumn, Bool.and_eq_true,
      decide_eq_true_eq] at hcovers
    have hotherRow : other.row = first.row := by
      by_contra hearlier
      have hone := rowspan_eq_one honce hheight hcommon hother (by omega)
      have hspan := first.cell.rowspanRange.1
      omega
    have hown : other.covers first.row first.column = true := by
      have hspan := first.cell.rowspanRange.1
      simp only [PlacedCell.covers, PlacedCell.coversRow, PlacedCell.coversColumn,
        Bool.and_eq_true, decide_eq_true_eq]
      omega
    have hcount := honce first.row first.column
    rw [if_pos ⟨by have hspan := first.cell.rowspanRange.1; omega, hinside⟩] at hcount
    obtain rfl := eq_of_covers_once hcount hother hfirst hown (covers_own first)
    omega
  refine keepsToRows_iff.mpr ⟨?_, ?_⟩
  · intro row hrow cell hcell
    obtain ⟨placed, hmem, rfl, rfl⟩ := hplaced row cell hcell
    exact rowspan_eq_one honce hheight hcommon hmem hrow
  · cases hlast : (gridRows table).getD ((gridRows table).length - 1) [] with
    | nil => exact ⟨1, le_rfl, nofun⟩
    | cons first rest =>
        refine ⟨first.rowspan, first.rowspanRange.1, ?_⟩
        intro cell hcell
        obtain ⟨placed, hmem, hrow, rfl⟩ := hplaced _ cell (hlast ▸ hcell)
        obtain ⟨placed', hmem', hrow', rfl⟩ := hplaced _ first (hlast ▸ List.mem_cons_self)
        have hlt := row_lt_of_mem hmem
        have hle := hequal placed hmem placed' hmem' (by omega) (by omega)
        have hge := hequal placed' hmem' placed hmem (by omega) (by omega)
        omega

/-! ### What the validator accepts -/

/-- Without column widths, or with one for each column. -/
def MatchesWidths (table : TableFields) (width : Nat) : Prop :=
  table.columnWidths.1 = [] ∨ table.columnWidths.1.length = width

theorem mem_logicalWidths {value : Nat} :
    value ∈ table.logicalWidths ↔ ∃ cells ∈ gridRows table, rowWidth cells = value := by
  unfold TableFields.logicalWidths gridRows
  by_cases hheaders : table.headers.1 = []
  · simp [hheaders]
  · simp [hheaders, or_comm, eq_comm]

theorem dedup_length_eq_one_iff {values : List Nat} (hsome : values ≠ []) :
    values.dedup.length = 1 ↔ ∃ common, ∀ value ∈ values, value = common := by
  constructor
  · intro hone
    obtain ⟨common, hcommon⟩ := List.length_eq_one_iff.mp hone
    refine ⟨common, ?_⟩
    intro value hvalue
    rw [← List.mem_dedup, hcommon] at hvalue
    exact List.mem_singleton.mp hvalue
  · rintro ⟨common, hcommon⟩
    have hreplicate := List.eq_replicate_of_mem hcommon
    have hlength : values.length ≠ 0 := mt List.length_eq_zero_iff.mp hsome
    rw [hreplicate, List.replicate_dedup hlength]
    rfl

theorem validateTableShape_ok_iff :
    table.validateTableShape = .ok () ↔
      ∃ width, (∀ cells ∈ gridRows table, rowWidth cells = width) ∧ MatchesWidths table width := by
  obtain ⟨firstRow, otherRows, hrows⟩ := List.exists_cons_of_length_pos
    (show 0 < table.rows.1.length from table.rows.2.1)
  have hhead : table.logicalWidths.headD 0 = rowWidth firstRow := by
    unfold TableFields.logicalWidths
    rw [hrows]
    split <;> rfl
  have hmem : firstRow ∈ gridRows table := by
    unfold gridRows
    rw [hrows]
    split <;> simp
  have hsome : table.logicalWidths ≠ [] :=
    List.ne_nil_of_mem (mem_logicalWidths.mpr ⟨firstRow, hmem, rfl⟩)
  unfold TableFields.validateTableShape
  by_cases hone : table.logicalWidths.dedup.length = 1
  · obtain ⟨common, hcommon⟩ := (dedup_length_eq_one_iff hsome).mp hone
    have hequal : ∀ cells ∈ gridRows table, rowWidth cells = common :=
      fun cells hcells => hcommon _ (mem_logicalWidths.mpr ⟨cells, hcells, rfl⟩)
    rw [if_neg (not_not.mpr hone), hhead, hequal firstRow hmem]
    constructor
    · intro hok
      refine ⟨common, hequal, ?_⟩
      by_contra hmismatch
      rw [MatchesWidths, not_or] at hmismatch
      rw [if_pos hmismatch] at hok
      cases hok
    · rintro ⟨width, hwidth, hmatches⟩
      obtain rfl : width = common := (hwidth firstRow hmem).symm.trans (hequal firstRow hmem)
      refine if_neg ?_
      rintro ⟨hsome, hdiffer⟩
      exact hmatches.elim hsome hdiffer
  · rw [if_pos hone]
    refine iff_of_false nofun ?_
    rintro ⟨width, hwidth, -⟩
    refine hone ((dedup_length_eq_one_iff hsome).mpr ⟨width, ?_⟩)
    intro value hvalue
    obtain ⟨cells, hcells, rfl⟩ := mem_logicalWidths.mp hvalue
    exact hwidth cells hcells

/-- The validator accepts exactly the tables that are laid out as a rectangle when no cell spans
rows that have cells of their own. -/
theorem table_shape_iff (table : TableFields) :
    ((table.validateTableShape = .ok () →
          ∃ width, (∀ cells ∈ gridRows table, rowWidth cells = width) ∧ Tiles table width) ∧
        ∀ width, Tiles table width → MatchesWidths table width →
          table.validateTableShape = .ok ()) ↔
      ∀ width, MatchesWidths table width →
        (∀ cells ∈ gridRows table, rowWidth cells = width) ∨ Tiles table width →
          KeepsToRows (gridRows table) := by
  constructor
  · rintro ⟨hsound, hcomplete⟩ width hmatches (hequal | htiles)
    · obtain ⟨_, _, htiles⟩ := hsound (validateTableShape_ok_iff.mpr ⟨width, hequal, hmatches⟩)
      exact keepsToRows_of_tiles hequal htiles
    · obtain ⟨_, hequal, _⟩ := validateTableShape_ok_iff.mp (hcomplete width htiles hmatches)
      exact keepsToRows_of_tiles hequal htiles
  · intro hkeeps
    refine ⟨?_, ?_⟩
    · intro hok
      obtain ⟨width, hequal, hmatches⟩ := validateTableShape_ok_iff.mp hok
      exact ⟨width, hequal, tiles_of_keepsToRows (hkeeps width hmatches (.inl hequal)) hequal⟩
    · intro width htiles hmatches
      have hequal := rowWidth_of_tiles (hkeeps width hmatches (.inr htiles)) htiles
      exact validateTableShape_ok_iff.mpr ⟨width, hequal, hmatches⟩

private def emptyCell (rowspan : Nat) (hspan : 1 ≤ rowspan ∧ rowspan ≤ 1000) : TableCell where
  content := ⟨[], by decide⟩
  rowspan := rowspan
  rowspanRange := hspan

private def one : TableCell := emptyCell 1 (by decide)

private def two : TableCell := emptyCell 2 (by decide)

private def tableOf (rows : List (List TableCell)) (hrows : 1 ≤ rows.length ∧ rows.length ≤ 1000) :
    TableFields where
  headers := ⟨[], by decide⟩
  rows := ⟨rows, hrows⟩
  columnWidths := ⟨[], by decide⟩

private def overfull : TableFields := tableOf [[two, one], [one, one]] (by decide)

private def fitting : TableFields := tableOf [[two, one], [one]] (by decide)

/-- A cell over two rows: with two cells in the second row the table is accepted, and the second row
sticks out; with one it would be a rectangle, and it is rejected. -/
theorem spanning_tables :
    (overfull.validateTableShape = .ok () ∧ ¬ ∃ width, Tiles overfull width) ∧
      fitting.validateTableShape ≠ .ok () ∧ Tiles fitting 2 := by
  refine ⟨⟨by decide, ?_⟩, by decide, 2, le_rfl, ?_⟩
  · rintro ⟨width, htiles⟩
    have hequal : ∀ cells ∈ gridRows overfull, rowWidth cells = 2 := by decide
    have hkeeps := (keepsToRows_iff.mp (keepsToRows_of_tiles hequal htiles)).1 0 (by decide) two
      List.mem_cons_self
    exact absurd hkeeps (by decide)
  · intro row column
    have hlayout : layout fitting = [⟨two, 0, 0⟩, ⟨one, 0, 1⟩, ⟨one, 1, 1⟩] := rfl
    rw [hlayout]
    have htwo : two.rowspan = 2 ∧ two.colspan = 1 := ⟨rfl, rfl⟩
    have hone : one.rowspan = 1 ∧ one.colspan = 1 := ⟨rfl, rfl⟩
    simp only [List.countP_cons, List.countP_nil, PlacedCell.covers, PlacedCell.coversRow,
      PlacedCell.coversColumn, htwo, hone, Bool.and_eq_true, decide_eq_true_eq]
    split_ifs <;> omega

end TableLayout

end Codex2Lark
