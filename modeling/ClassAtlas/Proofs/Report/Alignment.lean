import ClassAtlas.Report.Table
import Mathlib.Data.List.Forall2

/-!
# Aligned tables

The width of a column is measured in bytes and its cells are filled up by characters.  A
character takes at least one byte, so that every cell fits into its column (`fits_columnWidths`),
and what is printed before a column is as long in all lines of a table (`table_aligned`).
-/

namespace ClassAtlas.Report

/-! ## Widths -/

/-- Every cell has room in its column. -/
def Fits (widths : List Nat) (cells : List String) : Prop :=
  List.Forall₂ (fun cell width => cell.length ≤ width) cells widths

/-- A character takes at least one byte. -/
theorem length_le_byteLength (text : List Char) : text.length ≤ Text.byteLength text := by
  induction text with
  | nil => exact Nat.le_refl 0
  | cons character rest ih =>
      have positive := character.utf8Size_pos
      rw [List.length_cons, Text.byteLength_cons]
      omega

theorem length_le_cellWidth (cell : String) : cell.length ≤ cellWidth cell := by
  rw [← String.length_toList]
  exact length_le_byteLength cell.toList

/-- A row fits into columns of the widths of its cells. -/
theorem fits_cellWidth (row : List String) : Fits (row.map cellWidth) row := by
  induction row with
  | nil => exact .nil
  | cons cell row ih => exact .cons (length_le_cellWidth cell) ih

section Widen

variable {widths : List Nat} {row cells : List String}

theorem length_widen (widths : List Nat) (row : List String) :
    (widen widths row).length = widths.length := by
  induction widths generalizing row with
  | nil => cases row <;> rfl
  | cons width widths ih =>
      cases row with
      | nil => rfl
      | cons cell row => exact congrArg (· + 1) (ih row)

/-- What has room keeps it when columns are widened. -/
theorem Fits.widen (fits : Fits widths cells) (row : List String) :
    Fits (widen widths row) cells := by
  induction fits generalizing row with
  | nil => cases row <;> exact .nil
  | cons fit rest ih =>
      cases row with
      | nil => exact .cons fit rest
      | cons other row => exact .cons (Nat.le_trans fit (Nat.le_max_left _ _)) (ih row)

/-- The row for which columns are widened has room in them. -/
theorem fits_widen (full : row.length = widths.length) : Fits (widen widths row) row := by
  induction row generalizing widths with
  | nil =>
      cases widths with
      | nil => exact .nil
      | cons width widths => cases full
  | cons cell row ih =>
      cases widths with
      | nil => cases full
      | cons width widths =>
          have fit := Nat.le_trans (length_le_cellWidth cell) (Nat.le_max_right width _)
          exact .cons fit (ih (Nat.succ.inj full))

/-- Widening for one row after another makes room for all of them. -/
theorem fits_foldl_widen {rows : List (List String)}
    (full : ∀ row ∈ rows, row.length = widths.length)
    (known : Fits widths cells ∨ cells ∈ rows) : Fits (rows.foldl Report.widen widths) cells := by
  induction rows generalizing widths with
  | nil =>
      rcases known with fits | member
      · exact fits
      · cases member
  | cons row rows ih =>
      have fullRow := full row List.mem_cons_self
      have fullRows : ∀ other ∈ rows, other.length = (Report.widen widths row).length := by
        intro other member
        rw [length_widen]
        exact full other (List.mem_cons_of_mem row member)
      apply ih fullRows
      rcases known with fits | member
      · exact .inl (fits.widen row)
      · rcases List.mem_cons.1 member with rfl | later
        · exact .inl (fits_widen fullRow)
        · exact .inr later

end Widen

/-- All lines of a table have room in its columns. -/
theorem fits_columnWidths {headers : List String} {rows : List (List String)}
    (full : ∀ row ∈ rows, row.length = headers.length) {cells : List String}
    (member : cells ∈ headers :: rows) : Fits (columnWidths headers rows) cells := by
  apply fits_foldl_widen
  · intro row isRow
    rw [List.length_map]
    exact full row isRow
  · rcases List.mem_cons.1 member with rfl | isRow
    · exact .inl (fits_cellWidth cells)
    · exact .inr isRow

/-! ## Places in a line -/

/-- Where a column begins: behind the columns before it, each with the gap that follows it. -/
def columnStart : List Nat → Nat → Nat
  | width :: widths, column + 1 => width + 2 + columnStart widths column
  | _, _ => 0

@[simp] theorem columnStart_zero (widths : List Nat) : columnStart widths 0 = 0 := by
  cases widths <;> rfl

@[simp] theorem columnStart_cons_succ (width : Nat) (widths : List Nat) (column : Nat) :
    columnStart (width :: widths) (column + 1) = width + 2 + columnStart widths column := rfl

/-- The line holds these cells and nothing else, each where its column begins. -/
structure IsAligned (widths : List Nat) (cells : List String) (line : String) : Prop where
  fits : Fits widths cells
  /-- From the start of a column to the start of the next one stand its cell and blanks. -/
  inner : ∀ {column : Nat} {cell : String}, cells[column]? = some cell →
    column + 1 < cells.length → ∃ blanks, 2 ≤ blanks ∧
      (line.toList.take (columnStart widths (column + 1))).drop (columnStart widths column) =
        cell.toList ++ List.replicate blanks ' '
  /-- From the start of the last column on stands its cell, and the line ends behind it. -/
  last : ∀ {cell : String}, cells.getLast? = some cell →
    line.toList.drop (columnStart widths (cells.length - 1)) = cell.toList ++ ['\n']

theorem toList_ruler (character : Char) (width : Nat) :
    (ruler character width).toList = List.replicate width character :=
  String.toList_ofList

theorem length_ruler (character : Char) (width : Nat) : (ruler character width).length = width := by
  rw [← String.length_toList, toList_ruler, List.length_replicate]

/-- A cell with others after it is filled up. -/
theorem alignedCells_cons_cons (width : Nat) (widths : List Nat) (cell next : String)
    (rest : List String) :
    alignedCells (width :: widths) (cell :: next :: rest) =
      padded width cell :: alignedCells widths (next :: rest) := rfl

/-- The last cell is left as it is. -/
theorem toList_tableLine_last (widths : List Nat) (cell : String) :
    (tableLine (alignedCells widths [cell])).toList = cell.toList ++ ['\n'] := by
  simp [tableLine, alignedCells]

/-- A cell is filled up to the gap before the next one. -/
theorem toList_tableLine_cons (width : Nat) (widths : List Nat) (cell next : String)
    (rest : List String) :
    (tableLine (alignedCells (width :: widths) (cell :: next :: rest))).toList =
      (cell.toList ++ List.replicate (width - cell.length + 2) ' ') ++
        (tableLine (alignedCells widths (next :: rest))).toList := by
  obtain ⟨piece, pieces, aligned⟩ :
      ∃ piece pieces, alignedCells widths (next :: rest) = piece :: pieces := by
    cases rest with
    | nil => exact ⟨_, _, rfl⟩
    | cons other rest => exact ⟨_, _, rfl⟩
  have gap : columnGap.toList = List.replicate 2 ' ' := rfl
  rw [alignedCells_cons_cons, aligned, tableLine, tableLine, String.toList_append, String.toList_append,
    String.toList_intercalate, String.toList_intercalate, List.map_cons, List.map_cons,
    List.intercalate_cons_cons, gap, padded, String.toList_append, toList_ruler,
    List.replicate_add]
  simp only [List.append_assoc]

/-- A cell, filled up with blanks to its width and the gap, goes before an aligned line. -/
theorem IsAligned.cons {width : Nat} {widths : List Nat} {cell next line whole : String}
    {rest : List String} (fit : cell.length ≤ width)
    (aligned : IsAligned widths (next :: rest) line)
    (shape : whole.toList =
      (cell.toList ++ List.replicate (width - cell.length + 2) ' ') ++ line.toList) :
    IsAligned (width :: widths) (cell :: next :: rest) whole := by
  have room : width + 2 = (cell.toList ++ List.replicate (width - cell.length + 2) ' ').length := by
    rw [List.length_append, List.length_replicate, String.length_toList]
    omega
  refine ⟨.cons fit aligned.fits, ?_, ?_⟩
  · intro column other isCell inside
    cases column with
    | zero =>
        cases isCell
        refine ⟨width - cell.length + 2, Nat.le_add_left 2 _, ?_⟩
        rw [columnStart_cons_succ, columnStart_zero, columnStart_zero, Nat.add_zero, shape, room,
          List.take_left, List.drop_zero]
    | succ column =>
        have insideRest : column + 1 < (next :: rest).length := Nat.lt_of_succ_lt_succ inside
        obtain ⟨blanks, enough, stands⟩ := aligned.inner isCell insideRest
        refine ⟨blanks, enough, ?_⟩
        rw [columnStart_cons_succ, columnStart_cons_succ, shape, room, List.take_length_add_append,
          List.drop_length_add_append]
        exact stands
  · intro other isLast
    rw [List.getLast?_cons_cons] at isLast
    rw [show (cell :: next :: rest).length - 1 = (next :: rest).length - 1 + 1 from rfl,
      columnStart_cons_succ, shape, room, List.drop_length_add_append]
    exact aligned.last isLast

/-- Cells that fit are printed where their columns begin. -/
theorem isAligned_tableLine {widths : List Nat} {cells : List String} (fits : Fits widths cells) :
    IsAligned widths cells (tableLine (alignedCells widths cells)) := by
  induction fits with
  | nil => exact ⟨.nil, by simp, by simp⟩
  | @cons cell width cells widths fit rest ih =>
      cases cells with
      | nil =>
          refine ⟨.cons fit rest, by simp, ?_⟩
          intro other isLast
          cases isLast
          exact toList_tableLine_last (width :: widths) cell
      | cons next others => exact ih.cons fit (toList_tableLine_cons width widths cell next others)

/-! ## Tables -/

/-- Dashes as wide as their columns are not filled up. -/
theorem alignedCells_ruler (widths : List Nat) :
    alignedCells widths (widths.map (ruler '-')) = widths.map (ruler '-') := by
  induction widths with
  | nil => rfl
  | cons width widths ih =>
      cases widths with
      | nil => rfl
      | cons next others =>
          have full : padded width (ruler '-' width) = ruler '-' width := by
            rw [padded, length_ruler, Nat.sub_self]
            exact String.append_empty
          rw [List.map_cons] at ih
          rw [List.map_cons, List.map_cons, alignedCells_cons_cons, full, ih]

theorem fits_ruler (widths : List Nat) : Fits widths (widths.map (ruler '-')) := by
  induction widths with
  | nil => exact .nil
  | cons width widths ih => exact .cons (Nat.le_of_eq (length_ruler '-' width)) ih

/-- A table whose rows have as many cells as its headers is a line of headers, a line of dashes as
long as the columns are wide, and a line for each row, in this order.  All of them hold their cells
whole, and begin each column at the same character. -/
theorem table_aligned {headers : List String} {rows : List (List String)}
    (full : ∀ row ∈ rows, row.length = headers.length) :
    ∃ header rule lines, table headers rows = String.join (header :: rule :: lines) ∧
      IsAligned (columnWidths headers rows) headers header ∧
      IsAligned (columnWidths headers rows) ((columnWidths headers rows).map (ruler '-')) rule ∧
      List.Forall₂ (IsAligned (columnWidths headers rows)) rows lines := by
  have line {cells : List String} (member : cells ∈ headers :: rows) :=
    isAligned_tableLine (fits_columnWidths full member)
  have rule := isAligned_tableLine (fits_ruler (columnWidths headers rows))
  rw [alignedCells_ruler] at rule
  refine ⟨_, _, _, rfl, line List.mem_cons_self, rule, ?_⟩
  rw [List.forall₂_map_right_iff, List.forall₂_same]
  exact fun row member => line (List.mem_cons_of_mem headers member)

/-- The width of a column counts two bytes for a letter that is filled up as one character. -/
theorem table_aligned_accented :
    (∀ row ∈ [["été", "a"], ["b", "ß"]], row.length = ["x", "y"].length) ∧
      ∃ header rule lines,
        table ["x", "y"] [["été", "a"], ["b", "ß"]] = String.join (header :: rule :: lines) ∧
        IsAligned [5, 2] ["x", "y"] header ∧ IsAligned [5, 2] ["-----", "--"] rule ∧
        List.Forall₂ (IsAligned [5, 2]) [["été", "a"], ["b", "ß"]] lines := by
  have full : ∀ row ∈ [["été", "a"], ["b", "ß"]], row.length = ["x", "y"].length := by decide
  have widths : columnWidths ["x", "y"] [["été", "a"], ["b", "ß"]] = [5, 2] := by decide +kernel
  have aligned := table_aligned full
  rw [widths] at aligned
  exact ⟨full, aligned⟩

end ClassAtlas.Report
