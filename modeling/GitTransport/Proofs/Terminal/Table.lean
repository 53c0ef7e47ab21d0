/-
The columns of a table.

  A row that is added widens the columns to its cells (`widths_addRow`).  So at any time a column
  is as wide as the widest text that has been put into it, its header or a cell
  (`isGreatest_columnWidth`), and the lines are made with these widths: the headers and every row
  have their texts in full, each in its column, and a column begins at one place in all of them
  (`lines_in_columns`).

  The line of the headers and the lines of the rows then have one length, whatever the texts are.
  The rule between them counts a separator with its bytes, so it has that length exactly if there
  is no separator in a line or all characters of the separator are ASCII (`sameLength_iff`).
-/

import GitTransport.Terminal.Table
import Mathlib.Algebra.BigOperators.Group.List.Basic
import Mathlib.Algebra.Order.Ring.Nat
import Mathlib.Data.List.Induction
import Mathlib.Order.Bounds.Defs

namespace GitTransport.Terminal.Table

variable (headers : List String) (rows : List (List String)) (row cells : List String)
  (separator : String) (width : Nat → Nat) (n j : Nat)

/-! ## What is in a column -/

/-- The table with these headers and rows, the rows added one after the other. -/
def ofRows : Table := rows.foldl addRow (ofHeaders headers)

/-- The cell of a row in a column; a missing cell is empty. -/
def cellAt : String := cells.getD j ""

/-- All texts of a column: its header and the cell of each row. -/
def column : List String := (headers :: rows).map (cellAt · j)

/-- The width of a column, as it grows with the texts in it. -/
def columnWidth : Nat := (column headers rows j).foldl widen 0

theorem ofRows_concat : ofRows headers (rows ++ [row]) = (ofRows headers rows).addRow row :=
  List.foldl_concat addRow (ofHeaders headers) row rows

theorem column_concat :
    column headers (rows ++ [row]) j = column headers rows j ++ [cellAt row j] := by
  rw [column, ← List.cons_append, List.map_append]
  rfl

theorem columnWidth_concat :
    columnWidth headers (rows ++ [row]) j = widen (columnWidth headers rows j) (cellAt row j) := by
  rw [columnWidth, column_concat, List.foldl_append]
  rfl

/-- A column never gets narrower. -/
theorem columnWidth_le_concat :
    columnWidth headers rows j ≤ columnWidth headers (rows ++ [row]) j := by
  rw [columnWidth_concat]
  exact Nat.le_max_left _ _

/-- The width is the length of a text of the column, and no text of it is longer. -/
theorem isGreatest_columnWidth :
    IsGreatest {k | ∃ text ∈ column headers rows j, text.length = k}
      (columnWidth headers rows j) := by
  -- a row that is added gives the column one more text
  induction rows using List.reverseRecOn with
  | nil =>
    have hcolumn : column headers [] j = [cellAt headers j] := rfl
    have hwidth : columnWidth headers [] j = (cellAt headers j).length := Nat.zero_max _
    rw [hcolumn, hwidth]
    refine ⟨⟨_, List.mem_cons_self, rfl⟩, ?_⟩
    rintro k ⟨text, htext, rfl⟩
    obtain rfl := List.mem_singleton.1 htext
    exact Nat.le_refl _
  | append_singleton rows row ih =>
    rw [columnWidth_concat, column_concat, widen]
    obtain ⟨⟨widest, hmem, hwidest⟩, hbound⟩ := ih
    refine ⟨?_, ?_⟩
    · rcases Nat.le_total (columnWidth headers rows j) (cellAt row j).length with hle | hle
      · rw [Nat.max_eq_right hle]
        exact ⟨_, List.mem_append_right _ List.mem_cons_self, rfl⟩
      · rw [Nat.max_eq_left hle]
        exact ⟨widest, List.mem_append_left _ hmem, hwidest⟩
    · rintro k ⟨text, htext, rfl⟩
      rcases List.mem_append.1 htext with hold | hnew
      · exact Nat.le_trans (hbound ⟨text, hold, rfl⟩) (Nat.le_max_left _ _)
      · rw [List.mem_singleton.1 hnew]
        exact Nat.le_max_right _ _

/-- The headers and the rows fit into the columns. -/
theorem length_cellAt_le {headers rows} (h : cells ∈ headers :: rows) :
    (cellAt cells j).length ≤ columnWidth headers rows j :=
  (isGreatest_columnWidth headers rows j).2 ⟨_, List.mem_map_of_mem h, rfl⟩

/-! ## The table behind a number of rows -/

/-- A row has a cell for each column that there is, and no others. -/
theorem fit_eq : fit n cells = (List.range n).map (cellAt cells) := by
  induction cells generalizing n with
  | nil =>
    -- only missing cells are left
    have hmissing : cellAt [] = fun _ => "" := rfl
    rw [fit, List.take_nil, List.nil_append, hmissing, List.map_const', List.length_range]
    rfl
  | cons cell cells ih =>
    cases n with
    | zero => simp [fit]
    | succ n =>
      have hfit : fit (n + 1) (cell :: cells) = cell :: fit n cells := by
        rw [fit, List.take_succ_cons, List.length_cons, Nat.add_sub_add_right]
        rfl
      rw [hfit, ih, List.range_succ_eq_map, List.map_cons, List.map_map]
      rfl

theorem fit_length : fit cells.length cells = cells := by
  rw [fit, List.take_length, Nat.sub_self]
  exact List.append_nil cells

/-- A row that is added widens the columns to its cells. -/
theorem widths_addRow (table : Table) : (table.addRow cells).widths =
    List.zipWith widen table.widths (fit table.headers.length cells) := by
  rw [widths, addRow, List.foldl_concat]
  rfl

@[simp] theorem headers_addRow (table : Table) : (table.addRow cells).headers = table.headers := rfl

@[simp] theorem headers_ofRows : (ofRows headers rows).headers = headers := by
  induction rows using List.reverseRecOn with
  | nil => rfl
  | append_singleton rows row ih => rw [ofRows_concat, headers_addRow, ih]

theorem rows_ofRows : (ofRows headers rows).rows = rows.map (fit headers.length) := by
  induction rows using List.reverseRecOn with
  | nil => rfl
  | append_singleton rows row ih =>
    rw [ofRows_concat, addRow, ih, headers_ofRows, List.map_append]
    rfl

theorem widths_ofRows :
    (ofRows headers rows).widths = (List.range headers.length).map (columnWidth headers rows) := by
  induction rows using List.reverseRecOn with
  | nil =>
    show headers.map String.length = _
    conv_lhs => rw [← fit_length headers, fit_eq, List.map_map]
    refine List.map_congr_left fun j _ => ?_
    exact (Nat.zero_max _).symm
  | append_singleton rows row ih =>
    rw [ofRows_concat, widths_addRow, ih, headers_ofRows, fit_eq, List.zipWith_map,
      List.zipWith_self]
    refine List.map_congr_left fun j _ => ?_
    exact (columnWidth_concat headers rows row j).symm

/-! ## Where the cells of a line are -/

/-- Where a column begins in a line: behind the columns before it, each with its separator. -/
def offset : Nat := ((List.range j).map fun i => width i + separator.length).sum

/-- The line has these cells, each in its column: the text of the cell is there in full, and then
    blanks up to the width of the column. -/
structure InColumns (n : Nat) (width : Nat → Nat) (separator : String) (cells : List String)
    (line : String) : Prop where
  joined : line =
    String.intercalate separator ((List.range n).map fun j => pad (cellAt cells j) (width j))
  text : ∀ j, j < n →
    (line.toList.drop (offset separator width j)).take (width j) =
      (cellAt cells j).toList ++ List.replicate (width j - (cellAt cells j).length) ' '

theorem toList_pad (cell : String) (k : Nat) :
    (pad cell k).toList = cell.toList ++ List.replicate (k - cell.length) ' ' :=
  String.toList_ofList

/-- A cell that fits is as long as its column is wide. -/
theorem length_pad {cell : String} {k : Nat} (h : cell.length ≤ k) : (pad cell k).length = k := by
  rw [← String.length_toList, toList_pad, List.length_append, List.length_replicate,
    String.length_toList]
  omega

/-- A piece of a joined list stands behind the pieces before it and their separators. -/
theorem exists_intercalate_eq {α : Type} (separator : List α) (pieces : List (List α)) (j : Nat)
    (hj : j < pieces.length) : ∃ before behind,
      separator.intercalate pieces = before ++ (pieces[j] ++ behind) ∧
        before.length = ((pieces.take j).map fun piece => piece.length + separator.length).sum := by
  induction pieces generalizing j with
  | nil => cases hj
  | cons piece pieces ih =>
    cases pieces with
    | nil =>
      -- the last piece has no separator behind it
      obtain rfl : j = 0 := by simpa using hj
      exact ⟨[], [], by simp, rfl⟩
    | cons next rest =>
      rw [List.intercalate_cons_cons]
      cases j with
      | zero => exact ⟨[], _, List.append_assoc _ _ _, rfl⟩
      | succ j =>
        obtain ⟨before, behind, heq, hlength⟩ := ih j (Nat.lt_of_succ_lt_succ hj)
        refine ⟨piece ++ separator ++ before, behind, ?_, ?_⟩
        · rw [heq, List.append_assoc, List.append_assoc, List.append_assoc]
          rfl
        · rw [List.take_succ_cons, List.map_cons, List.sum_cons, ← hlength, List.length_append,
            List.length_append]

theorem length_intercalate (pieces : List String) :
    (String.intercalate separator pieces).length =
      (pieces.map String.length).sum + separator.length * (pieces.length - 1) := by
  induction pieces with
  | nil => rfl
  | cons piece pieces ih =>
    cases pieces with
    | nil => simp
    | cons next rest =>
      rw [String.intercalate_cons_cons, String.length_append, String.length_append, ih]
      simp only [List.map_cons, List.sum_cons, List.length_cons, Nat.add_sub_cancel, Nat.mul_succ]
      omega

/-- The cells of a line that fit are where their columns are. -/
theorem inColumns_of_fits (h : ∀ j, (cellAt cells j).length ≤ width j) :
    InColumns n width separator cells
      (line ((List.range n).map width) separator (fit n cells)) := by
  have hline : line ((List.range n).map width) separator (fit n cells) =
      String.intercalate separator
        ((List.range n).map fun j => pad (cellAt cells j) (width j)) := by
    rw [line, fit_eq, List.zipWith_map, List.zipWith_self]
  refine ⟨hline, fun j hj => ?_⟩
  rw [hline, String.toList_intercalate, List.map_map]
  obtain ⟨before, behind, heq, hlength⟩ := exists_intercalate_eq separator.toList
    ((List.range n).map (String.toList ∘ fun j => pad (cellAt cells j) (width j))) j (by simpa)
  -- what is before the cell is as long as the columns before it are wide
  have hoffset : before.length = offset separator width j := by
    rw [hlength, ← List.map_take, List.map_map, List.take_range, Nat.min_eq_left (Nat.le_of_lt hj)]
    refine congrArg List.sum (List.map_congr_left fun i _ => ?_)
    show (pad (cellAt cells i) (width i)).toList.length + separator.toList.length = _
    rw [String.length_toList, String.length_toList, length_pad (h i)]
  have hcell : (pad (cellAt cells j) (width j)).toList.length = width j := by
    rw [String.length_toList, length_pad (h j)]
  rw [heq, ← hoffset, List.drop_left, List.getElem_map, List.getElem_range, Function.comp_apply,
    ← toList_pad]
  exact List.take_left' hcell

/-! ## The lines of a table -/

/-- The line of some cells in a table. -/
def lineOf : String :=
  line ((List.range headers.length).map (columnWidth headers rows)) separator
    (fit headers.length cells)

theorem lines_ofRows : (ofRows headers rows).lines separator =
    lineOf headers rows headers separator ::
      rule ((List.range headers.length).map (columnWidth headers rows)) separator ::
      rows.map (lineOf headers rows · separator) := by
  rw [lines, headers_ofRows, rows_ofRows, widths_ofRows, List.map_map, lineOf, fit_length]
  rfl

theorem inColumns_lineOf {headers rows cells} (h : cells ∈ headers :: rows) :
    InColumns headers.length (columnWidth headers rows) separator cells
      (lineOf headers rows cells separator) :=
  inColumns_of_fits cells separator (columnWidth headers rows) headers.length
    fun j => length_cellAt_le cells j h

/-- The line of the headers, a rule, and a line for each row, all with these columns. -/
theorem exists_lines_eq : ∃ header k body,
    (ofRows headers rows).lines separator =
      header :: String.ofList (List.replicate k '-') :: body ∧
    InColumns headers.length (columnWidth headers rows) separator headers header ∧
    List.Forall₂ (InColumns headers.length (columnWidth headers rows) separator) rows body := by
  refine ⟨_, _, _, lines_ofRows headers rows separator, ?_, ?_⟩
  · exact inColumns_lineOf separator List.mem_cons_self
  · rw [List.forall₂_map_right_iff, List.forall₂_same]
    intro row hrow
    exact inColumns_lineOf separator (List.mem_cons_of_mem _ hrow)

/-- A column is as wide as its widest text.  The line of the headers and the line of each row have
    their texts in full and in order, each in its column, and a column begins at one place in all
    these lines.  A row that is added changes no text of the lines before it, and makes no column
    narrower. -/
theorem lines_in_columns (headers : List String) (rows : List (List String)) (separator : String) :
    (∀ j, IsGreatest {k | ∃ text ∈ column headers rows j, text.length = k}
      (columnWidth headers rows j)) ∧
    (∃ header k body, (ofRows headers rows).lines separator =
        header :: String.ofList (List.replicate k '-') :: body ∧
      InColumns headers.length (columnWidth headers rows) separator headers header ∧
      List.Forall₂ (InColumns headers.length (columnWidth headers rows) separator) rows body) ∧
    ∀ row, ∃ header k body last, ((ofRows headers rows).addRow row).lines separator =
        header :: String.ofList (List.replicate k '-') :: (body ++ [last]) ∧
      InColumns headers.length (columnWidth headers (rows ++ [row])) separator headers header ∧
      List.Forall₂ (InColumns headers.length (columnWidth headers (rows ++ [row])) separator)
        rows body ∧
      InColumns headers.length (columnWidth headers (rows ++ [row])) separator row last ∧
      ∀ j, columnWidth headers rows j ≤ columnWidth headers (rows ++ [row]) j := by
  refine ⟨isGreatest_columnWidth headers rows, exists_lines_eq headers rows separator,
    fun row => ?_⟩
  · have hlines := lines_ofRows headers (rows ++ [row]) separator
    rw [ofRows_concat, List.map_append] at hlines
    refine ⟨_, _, _, _, hlines, ?_, ?_, ?_, columnWidth_le_concat headers rows row⟩
    · exact inColumns_lineOf separator List.mem_cons_self
    · rw [List.forall₂_map_right_iff, List.forall₂_same]
      intro earlier hearlier
      exact inColumns_lineOf separator
        (List.mem_cons_of_mem _ (List.mem_append_left _ hearlier))
    · exact inColumns_lineOf separator
        (List.mem_cons_of_mem _ (List.mem_append_right _ List.mem_cons_self))

/-- A row with a cell too few, and one with a cell too many and the widest text. -/
example : (ofRows ["Nom", "É"] [["a"], ["Éléa", "x", "y"]]).lines " | " =
    ["Nom  | É", "--------", "a    |  ", "Éléa | x"] := by
  decide

/-! ## The length of the lines -/

/-- All lines have one length, in characters. -/
def SameLength (lines : List String) : Prop := ∃ k, ∀ line ∈ lines, line.length = k

/-- A text has at least one byte for each character, and no more exactly if it is ASCII. -/
theorem utf8ByteSize_ofList_spec (cs : List Char) :
    cs.length ≤ (String.ofList cs).utf8ByteSize ∧
      (cs.length = (String.ofList cs).utf8ByteSize ↔ ∀ c ∈ cs, c.toNat < 0x80) := by
  induction cs with
  | nil => exact ⟨Nat.le_refl 0, by simp⟩
  | cons c cs ih =>
    obtain ⟨hle, hiff⟩ := ih
    have hpos : 0 < c.utf8Size := c.utf8Size_pos
    have hone : c.utf8Size = 1 ↔ c.toNat < 0x80 := by
      rw [Char.utf8Size_eq_one_iff]
      exact Nat.lt_succ_iff.symm
    rw [List.length_cons, String.ofList_cons, String.utf8ByteSize_append,
      String.utf8ByteSize_singleton, List.forall_mem_cons, ← hiff, ← hone]
    omega

theorem length_eq_utf8ByteSize_iff (text : String) :
    text.length = text.utf8ByteSize ↔ ∀ c ∈ text.toList, c.toNat < 0x80 := by
  have hspec := (utf8ByteSize_ofList_spec text.toList).2
  rwa [String.ofList_toList, String.length_toList] at hspec

/-- The length of the line of the headers, and of the line of each row. -/
theorem length_lineOf {headers rows cells} (h : cells ∈ headers :: rows) :
    (lineOf headers rows cells separator).length =
      ((List.range headers.length).map (columnWidth headers rows)).sum +
        separator.length * (headers.length - 1) := by
  have hcells : (List.range headers.length).map
      (String.length ∘ fun j => pad (cellAt cells j) (columnWidth headers rows j)) =
      (List.range headers.length).map (columnWidth headers rows) := by
    refine List.map_congr_left fun j _ => ?_
    rw [Function.comp_apply]
    exact length_pad (length_cellAt_le cells j h)
  rw [(inColumns_lineOf separator h).joined, length_intercalate, List.map_map, hcells,
    List.length_map, List.length_range]

theorem length_rule (widths : List Nat) : (rule widths separator).length =
    widths.sum + separator.utf8ByteSize * (widths.length - 1) := by
  rw [rule, String.length_ofList, List.length_replicate, List.sum_eq_foldl]

/-- The line of the headers and the lines of the rows have one length, whatever the texts are.  The
    rule has it too exactly if no separator is in a line or the separator is ASCII. -/
theorem sameLength_iff (headers : List String) (rows : List (List String)) (separator : String) :
    SameLength (((ofRows headers rows).lines separator).eraseIdx 1) ∧
      (SameLength ((ofRows headers rows).lines separator) ↔
        headers.length ≤ 1 ∨ ∀ c ∈ separator.toList, c.toNat < 0x80) := by
  have hheader : (lineOf headers rows headers separator).length = _ :=
    length_lineOf separator List.mem_cons_self
  have hrule := length_rule separator ((List.range headers.length).map (columnWidth headers rows))
  rw [List.length_map, List.length_range] at hrule
  have hsame : SameLength ((headers :: rows).map (lineOf headers rows · separator)) := by
    refine ⟨(lineOf headers rows headers separator).length, fun text htext => ?_⟩
    obtain ⟨cells, hcells, rfl⟩ := List.mem_map.1 htext
    rw [hheader]
    exact length_lineOf separator hcells
  rw [lines_ofRows, ← length_eq_utf8ByteSize_iff]
  refine ⟨hsame, ?_, ?_⟩
  · intro ⟨k, hk⟩
    have hfirst := hk _ List.mem_cons_self
    have hsecond := hk _ (List.mem_cons_of_mem _ List.mem_cons_self)
    -- the rule has the widths of the other lines, so its separators have their length
    have hseparators : separator.length * (headers.length - 1) =
        separator.utf8ByteSize * (headers.length - 1) := by omega
    rcases Nat.eq_zero_or_pos (headers.length - 1) with hzero | hpos
    · exact .inl (by omega)
    · exact .inr (Nat.eq_of_mul_eq_mul_right hpos hseparators)
  · intro hcase
    have hseparators : separator.length * (headers.length - 1) =
        separator.utf8ByteSize * (headers.length - 1) := by
      rcases hcase with hone | hbytes
      · have hzero : headers.length - 1 = 0 := by omega
        rw [hzero, Nat.mul_zero, Nat.mul_zero]
      · rw [hbytes]
    obtain ⟨k, hk⟩ := hsame
    refine ⟨k, fun text htext => ?_⟩
    rcases List.mem_cons.1 htext with rfl | htext
    · exact hk _ List.mem_cons_self
    · rcases List.mem_cons.1 htext with rfl | htext
      · rw [hrule, ← hseparators, ← hheader]
        exact hk _ List.mem_cons_self
      · exact hk _ (List.mem_cons_of_mem _ htext)

/-- A bar of three bytes makes the rule longer than the line above it. -/
theorem not_sameLength : ¬ SameLength ((ofRows ["A", "B"] []).lines "│") := by
  intro ⟨k, hk⟩
  have hheader : "A│B".length = k := hk _ (by decide)
  have hrule : "-----".length = k := hk _ (by decide)
  exact absurd (hheader.trans hrule.symm) (by decide)

end GitTransport.Terminal.Table
