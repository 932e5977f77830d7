import SimplexTableau.Proofs.Entries
import SimplexTableau.Report

/-!
# The layout of step tables

A printed step is a title and a table: a header, a rule and one line for each row. All lines of
the table are equally long, each column ends at the same place in all of them, and every cell is
filled up with blanks on the left to the width of its column. The pivot cell is the only one that
is put in brackets. A step is refused only for a row with fewer numbers than there are headers.
-/

namespace SimplexTableau

namespace Report

/-- The place where a column starts. Two blanks follow each column in front of it. -/
def columnStart (widths : List ℕ) (col : ℕ) : ℕ :=
  ((widths.take col).map (· + 2)).sum

/-- The place where a column ends. -/
def columnEnd (widths : List ℕ) (col : ℕ) : ℕ :=
  columnStart widths col + widths.getD col 0

/-- A line that shows its cells in columns of the given widths. -/
structure Aligned (widths : List ℕ) (cells : List String) (line : String) : Prop where
  count : cells.length = widths.length
  length : line.length + 2 = (widths.map (· + 2)).sum
  fits : ∀ col, (cells.getD col "").length ≤ widths.getD col 0
  field : ∀ col < widths.length,
    (line.toList.drop (columnStart widths col)).take (widths.getD col 0) =
      List.replicate (widths.getD col 0 - (cells.getD col "").length) ' ' ++
        (cells.getD col "").toList
  ends : ∀ col < widths.length,
    (cells.getD col "").toList <:+ line.toList.take (columnEnd widths col)
  gap : ∀ col, col + 1 < widths.length →
    (line.toList.drop (columnEnd widths col)).take 2 = [' ', ' ']

section Lines

variable {α : Type} {sep : List α} {fields : List (List α)} {widths : List ℕ}
  {cells : List String}

lemma intercalate_split (sep : List α) (front back : List (List α)) (field : List α) :
    sep.intercalate (front ++ field :: back) =
      front.flatMap (· ++ sep) ++ (field ++ back.flatMap (sep ++ ·)) := by
  induction front with
  | nil =>
    induction back generalizing field with
    | nil => simp
    | cons next back ih => simpa using congrArg (field ++ sep ++ ·) (ih next)
  | cons first front ih =>
    rw [List.cons_append, List.flatMap_cons, List.append_assoc, ← ih]
    cases front <;> simp

lemma length_flatMap_front (sep : List α) (front : List (List α)) :
    (front.flatMap (· ++ sep)).length = (front.map fun f => f.length + sep.length).sum := by
  simp [List.length_flatMap]

lemma length_intercalate_add (h : fields ≠ []) :
    (sep.intercalate fields).length + sep.length =
      (fields.map fun f => f.length + sep.length).sum := by
  obtain ⟨field, back, rfl⟩ := List.exists_cons_of_ne_nil h
  have hsplit := intercalate_split sep [] back field
  rw [List.nil_append] at hsplit
  rw [hsplit]
  simp [List.length_flatMap]
  omega

/-- The text of a cell filled up to the width of its column. -/
def padded (width : ℕ) (cell : String) : List Char :=
  List.replicate (width - cell.length) ' ' ++ cell.toList

lemma toList_rightJustified (width : ℕ) (cell : String) :
    (rightJustified width cell).toList = padded width cell := by
  simp [rightJustified, padded]

lemma length_padded {width : ℕ} {cell : String} (h : cell.length ≤ width) :
    (padded width cell).length = width := by
  rw [padded, List.length_append, List.length_replicate, String.length_toList]
  omega

lemma toList_lineText (widths : List ℕ) (cells : List String) :
    (lineText widths cells).toList = [' ', ' '].intercalate (List.zipWith padded widths cells) := by
  rw [lineText, String.toList_intercalate, List.map_zipWith]
  simp only [toList_rightJustified]
  rfl

lemma map_length_padded (hcount : cells.length = widths.length)
    (hfits : ∀ col, (cells.getD col "").length ≤ widths.getD col 0) :
    (List.zipWith padded widths cells).map List.length = widths := by
  apply List.ext_getElem
  · simp [hcount]
  · intro col hcol hcol'
    have hcell : col < cells.length := by omega
    have hfit := hfits col
    rw [List.getD_eq_getElem _ _ hcell, List.getD_eq_getElem _ _ hcol'] at hfit
    rw [List.getElem_map, List.getElem_zipWith, length_padded hfit]

lemma exists_cut (hcount : cells.length = widths.length)
    (hfits : ∀ col, (cells.getD col "").length ≤ widths.getD col 0) {col : ℕ}
    (hcol : col < widths.length) :
    ∃ front back, (lineText widths cells).toList =
        front ++ (padded (widths.getD col 0) (cells.getD col "") ++ back) ∧
      front.length = columnStart widths col ∧
      (col + 1 < widths.length → back.take 2 = [' ', ' ']) := by
  have hcell : col < cells.length := by omega
  set fields := List.zipWith padded widths cells with hfields
  have hlengths : fields.map List.length = widths := map_length_padded hcount hfits
  have hfield : col < fields.length := by simp [hfields, hcount, hcol]
  have hget : fields[col] = padded (widths.getD col 0) (cells.getD col "") := by
    rw [List.getD_eq_getElem _ _ hcell, List.getD_eq_getElem _ _ hcol]
    exact List.getElem_zipWith
  refine ⟨(fields.take col).flatMap (· ++ [' ', ' ']),
    (fields.drop (col + 1)).flatMap ([' ', ' '] ++ ·), ?_, ?_, fun hnext => ?_⟩
  · rw [toList_lineText, ← hget, ← intercalate_split, ← List.drop_eq_getElem_cons hfield,
      List.take_append_drop]
  · rw [length_flatMap_front, columnStart, ← hlengths, ← List.map_take, List.map_map]
    rfl
  · have hlater : col + 1 < fields.length := by simp [hfields, hcount, hnext]
    rw [List.drop_eq_getElem_cons hlater]
    rfl

theorem aligned_lineText (hne : widths ≠ []) (hcount : cells.length = widths.length)
    (hfits : ∀ col, (cells.getD col "").length ≤ widths.getD col 0) :
    Aligned widths cells (lineText widths cells) where
  count := hcount
  fits := hfits
  length := by
    have hfields : List.zipWith padded widths cells ≠ [] := by
      rw [← List.length_pos_iff_ne_nil, List.length_zipWith, hcount, Nat.min_self]
      exact List.length_pos_iff_ne_nil.mpr hne
    have hlengths := map_length_padded hcount hfits
    have hsum := @length_intercalate_add _ [' ', ' '] _ hfields
    rw [← toList_lineText, String.length_toList] at hsum
    have hwidths : ((List.zipWith padded widths cells).map fun f => f.length + 2) =
        widths.map (· + 2) := by
      conv_rhs => rw [← hlengths, List.map_map]
      rfl
    rw [← hwidths]
    exact hsum
  field := by
    intro col hcol
    obtain ⟨front, back, hline, hfront, -⟩ := exists_cut hcount hfits hcol
    rw [hline, ← hfront, List.drop_left, List.take_left' (length_padded (hfits col))]
    rfl
  ends := by
    intro col hcol
    obtain ⟨front, back, hline, hfront, -⟩ := exists_cut hcount hfits hcol
    have hlength : (front ++ padded (widths.getD col 0) (cells.getD col "")).length =
        columnEnd widths col := by
      rw [List.length_append, hfront, length_padded (hfits col), columnEnd]
    rw [hline, ← List.append_assoc, List.take_left' hlength, padded, ← List.append_assoc]
    exact List.suffix_append _ _
  gap := by
    intro col hcol
    obtain ⟨front, back, hline, hfront, hback⟩ := exists_cut hcount hfits (Nat.lt_of_succ_lt hcol)
    have hlength : (front ++ padded (widths.getD col 0) (cells.getD col "")).length =
        columnEnd widths col := by
      rw [List.length_append, hfront, length_padded (hfits col), columnEnd]
    rw [hline, ← List.append_assoc, List.drop_left' hlength]
    exact hback hcol

lemma lineText_take (widths : List ℕ) (cells : List String) :
    lineText widths (cells.take widths.length) = lineText widths cells := by
  have hfields : List.zipWith rightJustified widths (cells.take widths.length) =
      List.zipWith rightJustified widths cells := by
    calc List.zipWith rightJustified widths (cells.take widths.length)
        = List.zipWith rightJustified (widths.take widths.length) (cells.take widths.length) := by
          rw [List.take_length]
      _ = (List.zipWith rightJustified widths cells).take widths.length :=
          List.take_zipWith.symm
      _ = List.zipWith rightJustified widths cells :=
          List.take_of_length_le (by simp)
  rw [lineText, lineText, hfields]

/-- A cell of dashes that fills its column. -/
def dashes (width : ℕ) : String :=
  String.ofList (List.replicate width '-')

@[simp] lemma length_dashes (width : ℕ) : (dashes width).length = width := by
  simp [dashes]

lemma ruleText_eq (widths : List ℕ) : ruleText widths = lineText widths (widths.map dashes) := by
  have hfull : ∀ w, rightJustified w (dashes w) = dashes w := by
    intro w
    rw [rightJustified, length_dashes, Nat.sub_self]
    simp
  rw [ruleText, lineText, List.zipWith_map_right, List.zipWith_self]
  simp only [hfull]
  rfl

theorem aligned_ruleText (hne : widths ≠ []) :
    Aligned widths (widths.map dashes) (ruleText widths) := by
  rw [ruleText_eq]
  refine aligned_lineText hne (by simp) fun col => ?_
  by_cases hcol : col < widths.length
  · simp [hcol]
  · simp [hcol]

end Lines

section Widths

variable {lines : List (List String)} {line : List String}

/-- The length of the longest cell in a column, where a cell that is not there is empty. -/
def longestCell (lines : List (List String)) (col : ℕ) : ℕ :=
  (lines.map fun line => (line.getD col "").length).foldl max 0

lemma exists_longestCell (hne : lines ≠ []) (col : ℕ) :
    ∃ longest ∈ lines, longestCell lines col = (longest.getD col "").length ∧
      ∀ line ∈ lines, (line.getD col "").length ≤ longestCell lines col := by
  obtain ⟨width, hwidth⟩ := Option.ne_none_iff_exists'.mp
    (mt List.max?_eq_none_iff.mp (mt List.map_eq_nil_iff.mp hne) :
      (lines.map fun line => (line.getD col "").length).max? ≠ none)
  have heq : longestCell lines col = width := by
    rw [longestCell, List.foldl_max, hwidth]
    exact Nat.zero_max width
  obtain ⟨hmem, hle⟩ := List.max?_eq_some_iff.mp hwidth
  obtain ⟨longest, hlongest, hlength⟩ := List.mem_map.mp hmem
  refine ⟨longest, hlongest, heq.trans hlength.symm, fun line hline => ?_⟩
  rw [heq]
  exact hle _ (List.mem_map_of_mem hline)

lemma cellLength_of_lt {col : ℕ} (h : col < line.length) :
    cellLength col line = .ok (line.getD col "").length := by
  rw [cellLength, List.getElem?_eq_getElem h, List.getD_eq_getElem _ _ h]

lemma cellLength_of_le {col : ℕ} (h : line.length ≤ col) :
    cellLength col line = .error .outOfRange := by
  rw [cellLength, List.getElem?_eq_none h]

/-- A column has a width if every line has a cell in it. -/
lemma columnWidth_of_lt {col : ℕ} (h : ∀ line ∈ lines, col < line.length) :
    columnWidth lines col = .ok (longestCell lines col) := by
  rw [columnWidth, mapM_eq_ok fun line hline => cellLength_of_lt (h line hline)]
  rfl

/-- A column without a cell in some line has none. -/
lemma columnWidth_of_le {col : ℕ} (hline : line ∈ lines) (h : line.length ≤ col) :
    columnWidth lines col = .error .outOfRange := by
  have hcells : lines.mapM (cellLength col) = .error .outOfRange := by
    refine mapM_eq_error_of_mem (fun other _ => ?_) hline (cellLength_of_le h)
    rcases lt_or_ge col other.length with hlt | hle
    · exact Or.inl ⟨_, cellLength_of_lt hlt⟩
    · exact Or.inr (cellLength_of_le hle)
  rw [columnWidth, hcells]
  rfl

end Widths

/-- The texts of a row as far as there are headers: the basic variable, then the numbers, and the
pivot cell alone in brackets. -/
structure Shows (s : TraceStep Float) (number : ℕ) (row : TableauRow Float)
    (cells : List String) : Prop where
  count : cells.length = s.headers.length + 1
  basic : cells[0]? = some row.basicVar
  pivot : ∀ col x, col < s.headers.length → row.coefficients[col]? = some x →
    s.pivotRow = some (number : ℤ) → s.pivotCol = some (col : ℤ) →
      cells[col + 1]? = some ("[" ++ Decimal.twoPlaces x ++ "]")
  plain : ∀ col x, col < s.headers.length → row.coefficients[col]? = some x →
    (s.pivotRow ≠ some (number : ℤ) ∨ s.pivotCol ≠ some (col : ℤ)) →
      cells[col + 1]? = some (Decimal.twoPlaces x)

/-- A step as a table: a line for the headers, a rule, and a line for each row. A column is as wide
as its longest cell. -/
structure Table (s : TraceStep Float) where
  widths : List ℕ
  cells : List (List String)
  header : String
  rule : String
  rows : List String
  columns : widths.length = s.headers.length + 1
  header_aligned : Aligned widths ("Basis" :: s.headers) header
  rule_aligned : Aligned widths (widths.map dashes) rule
  count_cells : cells.length = s.rows.length
  count_rows : rows.length = s.rows.length
  row_aligned : ∀ number row, s.rows[number]? = some row → ∃ texts line,
    cells[number]? = some texts ∧ rows[number]? = some line ∧ Shows s number row texts ∧
      Aligned widths texts line
  tight : ∀ col < widths.length, ∃ texts ∈ ("Basis" :: s.headers) :: cells,
    (texts.getD col "").length = widths.getD col 0

namespace Table

variable {s : TraceStep Float}

/-- The lines below the title. -/
def lines (t : Table s) : List String :=
  t.header :: t.rule :: t.rows

/-- The title and the lines. -/
def text (t : Table s) : String :=
  "\n".intercalate (s!"Step {s.index}: {s.description}" :: t.lines)

lemma length_line (t : Table s) {line : String} (h : line ∈ t.lines) :
    line.length = t.header.length := by
  have hheader := t.header_aligned.length
  rcases List.mem_cons.mp h with rfl | h
  · rfl
  · rcases List.mem_cons.mp h with rfl | h
    · have hrule := t.rule_aligned.length
      omega
    · obtain ⟨number, hnumber, rfl⟩ := List.getElem_of_mem h
      have hrow : number < s.rows.length := by rw [← t.count_rows]; exact hnumber
      obtain ⟨texts, line, -, hline, -, haligned⟩ :=
        t.row_aligned number _ (List.getElem?_eq_getElem hrow)
      rw [List.getElem?_eq_getElem hnumber, Option.some_inj] at hline
      have hlength := haligned.length
      rw [hline]
      omega

end Table

section Steps

variable {s : TraceStep Float} {number : ℕ} {row : TableauRow Float}

/-- The cells of a row that have a column. -/
def shownCells (s : TraceStep Float) (number : ℕ) (row : TableauRow Float) : List String :=
  (rowCells s number row).take (s.headers.length + 1)

lemma shownCells_getElem? {col : ℕ} {x : Float} (hcol : col < s.headers.length)
    (hx : row.coefficients[col]? = some x) :
    (shownCells s number row)[col + 1]? = some (cellText s number col x) := by
  rw [shownCells, rowCells, List.take_succ_cons, List.getElem?_cons_succ,
    List.getElem?_take_of_lt hcol]
  simp [hx]

lemma shows_shownCells (h : s.headers.length ≤ row.coefficients.length) :
    Shows s number row (shownCells s number row) where
  count := by
    simp [shownCells, rowCells, h]
  basic := rfl
  pivot := by
    intro col x hcol hx hrow hpivot
    rw [shownCells_getElem? hcol hx, cellText, if_pos ⟨hrow, hpivot⟩]
  plain := by
    intro col x hcol hx hother
    rw [shownCells_getElem? hcol hx, cellText, if_neg (by tauto)]

lemma getD_shownCells {col : ℕ} (hcol : col < s.headers.length + 1) :
    (shownCells s number row).getD col "" = (rowCells s number row).getD col "" := by
  rw [List.getD_eq_getElem?_getD, List.getD_eq_getElem?_getD, shownCells,
    List.getElem?_take_of_lt hcol]

lemma bodyCells_getElem? (h : s.rows[number]? = some row) :
    (bodyCells s)[number]? = some (rowCells s number row) := by
  simp [bodyCells, h]

/-- The lengths of the longest cells in the columns under the headers. -/
def tableWidths (s : TraceStep Float) : List ℕ :=
  (List.range (s.headers.length + 1)).map (longestCell (headerCells s :: bodyCells s))

lemma exists_row_of_mem_bodyCells {texts : List String} (h : texts ∈ bodyCells s) :
    ∃ row ∈ s.rows, texts.length = row.coefficients.length + 1 := by
  obtain ⟨⟨row, number⟩, hrow, rfl⟩ := List.mem_map.mp h
  refine ⟨row, (List.mem_zipIdx' hrow).2 ▸ List.getElem_mem _, ?_⟩
  simp [rowCells]

/-- All columns have a width if no row has fewer numbers than there are headers. -/
lemma columnWidths_eq_ok (h : ∀ row ∈ s.rows, s.headers.length ≤ row.coefficients.length) :
    columnWidths s = .ok (tableWidths s) := by
  refine mapM_eq_ok fun col hcol => columnWidth_of_lt ?_
  have hlt : col < s.headers.length + 1 := by simpa [headerCells] using hcol
  refine List.forall_mem_cons.mpr ⟨by simpa [headerCells] using hlt, fun texts htexts => ?_⟩
  obtain ⟨row, hrow, hlength⟩ := exists_row_of_mem_bodyCells htexts
  have hlong := h row hrow
  omega

/-- A row with fewer numbers than there are headers leaves the last column without a width. -/
lemma columnWidths_eq_error (hrow : row ∈ s.rows)
    (h : row.coefficients.length < s.headers.length) : columnWidths s = .error .outOfRange := by
  obtain ⟨number, hnumber⟩ := List.mem_iff_getElem?.mp hrow
  have htexts : rowCells s number row ∈ headerCells s :: bodyCells s :=
    List.mem_cons_of_mem _ (List.mem_of_getElem? (bodyCells_getElem? hnumber))
  have hlast : columnWidth (headerCells s :: bodyCells s) s.headers.length =
      .error .outOfRange := by
    refine columnWidth_of_le htexts ?_
    rw [rowCells, List.length_cons, List.length_map, List.length_zipIdx]
    exact h
  refine mapM_eq_error_of_mem (fun col _ => ?_) (by simp [headerCells]) hlast
  by_cases hall : ∀ line ∈ headerCells s :: bodyCells s, col < line.length
  · exact Or.inl ⟨_, columnWidth_of_lt hall⟩
  · push Not at hall
    obtain ⟨line, hline, hle⟩ := hall
    exact Or.inr (columnWidth_of_le hline hle)

lemma length_tableWidths (s : TraceStep Float) :
    (tableWidths s).length = s.headers.length + 1 := by
  simp [tableWidths]

lemma tableWidths_getD {col : ℕ} (hcol : col < s.headers.length + 1) :
    (tableWidths s).getD col 0 = longestCell (headerCells s :: bodyCells s) col := by
  have hlt : col < (tableWidths s).length := by rw [length_tableWidths]; exact hcol
  rw [List.getD_eq_getElem _ _ hlt]
  simp [tableWidths]

lemma length_le_tableWidths {texts : List String} (h : texts ∈ headerCells s :: bodyCells s)
    {col : ℕ} (hcol : col < s.headers.length + 1) :
    (texts.getD col "").length ≤ (tableWidths s).getD col 0 := by
  rw [tableWidths_getD hcol]
  obtain ⟨-, -, -, hle⟩ := exists_longestCell (List.cons_ne_nil (headerCells s) (bodyCells s)) col
  exact hle texts h

lemma aligned_tableWidths {shown texts : List String}
    (hcount : shown.length = s.headers.length + 1) (hmem : texts ∈ headerCells s :: bodyCells s)
    (hshown : ∀ col < s.headers.length + 1, shown.getD col "" = texts.getD col "") :
    Aligned (tableWidths s) shown (lineText (tableWidths s) shown) := by
  have hwidths := length_tableWidths s
  refine aligned_lineText (List.ne_nil_of_length_eq_add_one hwidths) (hcount.trans hwidths.symm)
    fun col => ?_
  by_cases hcol : col < s.headers.length + 1
  · rw [hshown col hcol]
    exact length_le_tableWidths hmem hcol
  · rw [List.getD_eq_default _ _ (by omega)]
    exact Nat.zero_le _

lemma aligned_row (h : s.rows[number]? = some row)
    (hlong : s.headers.length ≤ row.coefficients.length) :
    Aligned (tableWidths s) (shownCells s number row)
      (lineText (tableWidths s) (rowCells s number row)) := by
  rw [← lineText_take, length_tableWidths]
  exact aligned_tableWidths (shows_shownCells hlong).count
    (List.mem_cons_of_mem _ (List.mem_of_getElem? (bodyCells_getElem? h)))
    fun col hcol => getD_shownCells hcol

lemma aligned_header (s : TraceStep Float) :
    Aligned (tableWidths s) ("Basis" :: s.headers) (lineText (tableWidths s) (headerCells s)) :=
  aligned_tableWidths rfl List.mem_cons_self fun _ _ => rfl

lemma exists_widest {col : ℕ} (hcol : col < s.headers.length + 1) :
    ∃ texts ∈ ("Basis" :: s.headers) ::
        s.rows.zipIdx.map (fun (row, number) => shownCells s number row),
      (texts.getD col "").length = (tableWidths s).getD col 0 := by
  obtain ⟨longest, hmem, hlength, -⟩ :=
    exists_longestCell (List.cons_ne_nil (headerCells s) (bodyCells s)) col
  rw [tableWidths_getD hcol, hlength]
  rcases List.mem_cons.mp hmem with rfl | hmem
  · exact ⟨_, List.mem_cons_self, rfl⟩
  · obtain ⟨⟨row, number⟩, hrow, rfl⟩ := List.mem_map.mp hmem
    refine ⟨_, List.mem_cons_of_mem _ (List.mem_map_of_mem hrow), ?_⟩
    rw [getD_shownCells hcol]

/-- The table of a step whose rows are long enough. -/
def tableOf (s : TraceStep Float)
    (h : ∀ row ∈ s.rows, s.headers.length ≤ row.coefficients.length) : Table s where
  widths := tableWidths s
  cells := s.rows.zipIdx.map fun (row, number) => shownCells s number row
  header := lineText (tableWidths s) (headerCells s)
  rule := ruleText (tableWidths s)
  rows := (bodyCells s).map (lineText (tableWidths s))
  columns := length_tableWidths s
  header_aligned := aligned_header s
  rule_aligned := aligned_ruleText (List.ne_nil_of_length_eq_add_one (length_tableWidths s))
  count_cells := by simp
  count_rows := by simp [bodyCells]
  row_aligned := by
    intro number row hrow
    have hlong := h row (List.mem_of_getElem? hrow)
    refine ⟨shownCells s number row, lineText (tableWidths s) (rowCells s number row), ?_, ?_,
      shows_shownCells hlong, aligned_row hrow hlong⟩
    · simp [hrow]
    · rw [List.getElem?_map, bodyCells_getElem? hrow]
      rfl
  tight := by
    intro col hcol
    rw [length_tableWidths] at hcol
    exact exists_widest hcol

/-- A step is refused exactly for a row with fewer numbers than there are headers. Every other step
is printed as a title and a table whose lines are equally long. -/
theorem step_table (s : TraceStep Float) :
    (∀ f, step s = .error f ↔
      f = .outOfRange ∧ ∃ row ∈ s.rows, row.coefficients.length < s.headers.length) ∧
    ((∀ row ∈ s.rows, s.headers.length ≤ row.coefficients.length) → ∃ t : Table s,
      step s = .ok t.text ∧ ∀ line ∈ t.lines, line.length = t.header.length) := by
  by_cases hshort : ∃ row ∈ s.rows, row.coefficients.length < s.headers.length
  · have hstep : step s = .error .outOfRange := by
      obtain ⟨row, hrow, hlt⟩ := hshort
      rw [step, stepLines, columnWidths_eq_error hrow hlt]
      rfl
    refine ⟨fun f => ?_, fun h => ?_⟩
    · rw [hstep, Except.error.injEq]
      exact ⟨fun hf => ⟨hf.symm, hshort⟩, fun hf => hf.1.symm⟩
    · obtain ⟨row, hrow, hlt⟩ := hshort
      exact absurd (h row hrow) hlt.not_ge
  · have hlong : ∀ row ∈ s.rows, s.headers.length ≤ row.coefficients.length := by
      simpa using hshort
    have hstep : step s = .ok (tableOf s hlong).text := by
      rw [step, stepLines, columnWidths_eq_ok hlong]
      rfl
    refine ⟨fun f => ?_, fun _ => ⟨tableOf s hlong, hstep, fun line => Table.length_line _⟩⟩
    rw [hstep]
    exact ⟨fun hf => (nomatch hf), fun hf => absurd hf.2 hshort⟩

/-- A step with two headers and a surplus number in its second row. -/
def widened : TraceStep Float where
  index := 1
  kind := .iteration
  description := "x2 enters"
  headers := ["x1", "RHS"]
  rows := [⟨"Z", [-1 / 3, 0], 0⟩, ⟨"slack one", [2.5, 12, 7], 12⟩]
  basicVars := ["slack one"]
  pivotRow := some 1
  pivotCol := some 0

theorem step_table_widened :
    (∀ row ∈ widened.rows, widened.headers.length ≤ row.coefficients.length) ∧
      ∃ t : Table widened, step widened = .ok t.text ∧
        ∀ line ∈ t.lines, line.length = t.header.length :=
  have hlong : ∀ row ∈ widened.rows, widened.headers.length ≤ row.coefficients.length := by
    decide
  ⟨hlong, (step_table widened).2 hlong⟩

example : step widened = .ok ("Step 1: x2 enters\n" ++
    "    Basis      x1  RHS\n" ++
    "---------  ------  ---\n" ++
    "        Z   -0.33    0\n" ++
    "slack one  [2.50]   12") := by
  decide +kernel

end Steps

end Report

end SimplexTableau
