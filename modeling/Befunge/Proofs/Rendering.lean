-- Playfields and texts. A text is laid out as its lines, each with blanks after it up to the length
-- of the longest, and nothing but the line feeds is lost. The other way round, the rows of a
-- playfield under one another are a text that is laid out as this playfield, unless a cell holds a
-- line feed.
import Befunge.Proofs.Layout
import Mathlib.Order.Bounds.Defs

namespace Befunge.Playfield

/-! ## From a text to a playfield -/

theorem foldl_max_mem (lengths : List Nat) (least : Nat) :
    lengths.foldl max least = least ∨ lengths.foldl max least ∈ lengths := by
  induction lengths generalizing least with
  | nil => exact Or.inl rfl
  | cons n rest ih =>
    rw [List.foldl_cons]
    rcases ih (max least n) with h | h
    · rw [h]
      by_cases hn : n ≤ least
      · exact Or.inl (Nat.max_eq_left hn)
      · right
        rw [Nat.max_eq_right (by omega)]
        exact List.mem_cons_self
    · exact Or.inr (List.mem_cons_of_mem n h)

/-- A playfield is as wide as its longest line is long, and at least one cell wide. -/
theorem isGreatest_widest (lines : List (List Char)) :
    IsGreatest {n | n = 1 ∨ ∃ line ∈ lines, line.length = n} (widest lines) := by
  refine ⟨?_, ?_⟩
  · rcases foldl_max_mem (lines.map List.length) 1 with h | h
    · exact Or.inl h
    · exact Or.inr (List.mem_map.1 h)
  · rintro n (rfl | ⟨line, hline, rfl⟩)
    · exact widest_pos lines
    · exact length_le_widest hline

theorem ofSource_eq_ofLines (source : String) :
    ofSource source = ofLines (source.toList.splitOn '\n') := by
  unfold ofSource
  rw [Lines.split_eq_splitOn]

theorem cells_ofLines (lines : List (List Char)) :
    (ofLines lines).cells =
      (lines.map fun line => (line.rightpad (widest lines) padding).toArray).toArray := rfl

/-- A row has the characters of its line and blanks after them. -/
theorem at?_of_line {lines : List (List Char)} {line : List Char} {i j : Nat}
    (hline : lines[j]? = some line) (hi : i < widest lines) :
    (ofLines lines).at? (i, j) = some (line.getD i padding) := by
  obtain ⟨hj, _⟩ := List.getElem?_eq_some_iff.1 hline
  have hrow : lines.getD j [] = line := by rw [List.getD_eq_getElem?_getD, hline, Option.getD_some]
  rw [at?_ofLines lines hj hi, hrow]

theorem line_prefix_row {lines : List (List Char)} {line : List Char} {j : Nat}
    (hline : lines[j]? = some line) :
    ∃ row, (ofLines lines).rows[j]? = some row ∧ line <+: row.toList := by
  refine ⟨String.ofList (line.rightpad (widest lines) padding), ?_, ?_⟩
  · simp [rows, cells_ofLines, hline]
  · rw [String.toList_ofList]
    exact List.prefix_append line _

/-- Lines are laid out as the same playfield if they are equal with the blanks after them, and only
then. -/
theorem ofLines_eq_iff {lines lines' : List (List Char)} :
    ofLines lines' = ofLines lines ↔
      widest lines' = widest lines ∧
        lines'.map (·.rightpad (widest lines) padding) =
          lines.map (·.rightpad (widest lines) padding) := by
  constructor
  · intro h
    have hwidth : widest lines' = widest lines := congrArg width h
    have hcells := congrArg (·.cells.toList.map Array.toList) h
    simp only [cells_ofLines, List.map_map, hwidth] at hcells
    exact ⟨hwidth, hcells⟩
  · rintro ⟨hwidth, hpad⟩
    have hcells := congrArg (List.map List.toArray) hpad
    rw [List.map_map, List.map_map] at hcells
    rw [Playfield.mk.injEq, cells_ofLines, cells_ofLines, hwidth]
    exact ⟨congrArg List.toArray hcells, hwidth⟩

/-- No line feed is left in a playfield that is laid out from a text. -/
theorem newline_not_mem_ofSource {source : String} {row : Array Char}
    (h : row ∈ (ofSource source).cells) : '\n' ∉ row := by
  unfold ofSource at h
  rw [cells_ofLines, List.mem_toArray] at h
  obtain ⟨line, hline, rfl⟩ := List.mem_map.1 h
  have hfree := Lines.newline_not_mem_of_mem_split hline
  simp [List.rightpad, padding, hfree]

/-- A text is laid out as its lines, which end at every line feed and nowhere else. There is a row
for every line, also for an empty one, and a column for every character of the longest, or one if
all are empty. A row has the characters of its line and blanks after them. So no character is lost,
no cell holds a line feed, and two texts give the same playfield if they have as many lines, are
equally wide, and have the same lines with the blanks after them, and only then. -/
theorem a_text_is_laid_out_as_its_lines (source : String) :
    (ofSource source).WellFormed ∧
      let g := ofSource source
      let lines := source.toList.splitOn '\n'
      (g.height = source.toList.count '\n' + 1 ∧ lines.length = g.height) ∧
      IsGreatest {n | n = 1 ∨ ∃ line ∈ lines, line.length = n} g.width ∧
      (∀ row ∈ g.cells, row.size = g.width ∧ '\n' ∉ row) ∧
      (∀ j line, lines[j]? = some line →
        (∀ i < g.width, g.at? (i, j) = some (line.getD i ' ')) ∧
          ∃ row, g.rows[j]? = some row ∧ line <+: row.toList) ∧
      ∀ source', let lines' := source'.toList.splitOn '\n'
        ofSource source' = g ↔
          lines'.length = lines.length ∧ (ofSource source').width = g.width ∧
            lines'.map (·.rightpad g.width ' ') = lines.map (·.rightpad g.width ' ') := by
  refine ⟨wellFormed_ofSource source, ?_⟩
  intro g lines
  have hg : g = ofLines lines := ofSource_eq_ofLines source
  have hheight : g.height = lines.length := by rw [hg, height_ofLines]
  have hwidth : g.width = widest lines := congrArg width hg
  refine ⟨⟨?_, hheight.symm⟩, ?_, ?_, ?_, ?_⟩
  · rw [hheight, ← Lines.length_split, Lines.split_eq_splitOn]
  · rw [hwidth]
    exact isGreatest_widest lines
  · intro row hrow
    obtain ⟨j, hj⟩ := Array.mem_iff_getElem?.1 hrow
    exact ⟨(wellFormed_ofSource source).row_size j row hj, newline_not_mem_ofSource hrow⟩
  · intro j line hline
    rw [hwidth, hg]
    exact ⟨fun i hi => at?_of_line hline hi, line_prefix_row hline⟩
  · intro source' lines'
    rw [hwidth, hg, ofSource_eq_ofLines source', ofLines_eq_iff]
    constructor
    · rintro ⟨hsame, hpad⟩
      have hlength := congrArg List.length hpad
      rw [List.length_map, List.length_map] at hlength
      exact ⟨hlength, hsame, hpad⟩
    · rintro ⟨_, hsame, hpad⟩
      exact ⟨hsame, hpad⟩

/-- A carriage return is a cell like others, and a line feed at the end makes one row more. Blanks
at the end of a line are not told from those that are added to it. -/
theorem a_carriage_return_is_laid_out :
    let source := "ab\r\n\nc\n"
    let g := ofSource source
    (source.toList.splitOn '\n')[2]? = some ['c'] ∧
      (g.height = 4 ∧ g.width = 3) ∧
      (g.at? (0, 2) = some 'c' ∧ g.at? (2, 2) = some ' ') ∧
      ofSource "ab\r\n  \nc\n" = g ∧ ofSource "ab\r\n\nc" ≠ g := by
  intro source g
  obtain ⟨_, ⟨hheight, _⟩, _, _, hlines, hsame⟩ := a_text_is_laid_out_as_its_lines source
  have hwidth : g.width = 3 := by decide
  have hcount : source.toList.count '\n' = 3 := by decide
  have hline : (source.toList.splitOn '\n')[2]? = some ['c'] := by decide
  obtain ⟨hcell, _⟩ := hlines 2 ['c'] hline
  rw [hcount] at hheight
  refine ⟨hline, ⟨hheight, hwidth⟩, ⟨hcell 0 (by decide), hcell 2 (by decide)⟩, ?_, ?_⟩
  · exact (hsame _).2 (by decide)
  · intro h
    exact absurd ((hsame _).1 h).1 (by decide)

/-! ## From a playfield to a text -/

/-- The rows of a playfield as lines. -/
def lines (g : Playfield) : List (List Char) := g.cells.toList.map Array.toList

/-- The rows of a playfield under one another. -/
def text (g : Playfield) : String := "\n".intercalate g.rows

theorem text_eq_join (g : Playfield) : g.text = String.ofList (Lines.join g.lines) := by
  apply String.toList_inj.1
  unfold text
  rw [String.toList_intercalate, String.toList_ofList, Lines.join_eq_intercalate]
  simp [rows, lines, Function.comp_def]

variable {g : Playfield}

theorem length_of_mem_lines (hg : g.WellFormed) {line : List Char} (h : line ∈ g.lines) :
    line.length = g.width := by
  obtain ⟨row, hrow, rfl⟩ := List.mem_map.1 h
  obtain ⟨i, hi⟩ := Array.mem_iff_getElem?.1 (Array.mem_toList_iff.1 hrow)
  exact hg.row_size i row hi

theorem lines_ne_nil (hg : g.WellFormed) : g.lines ≠ [] := by
  have hpos : 0 < g.cells.toList.length := hg.height_pos
  unfold lines
  intro h
  rw [List.map_eq_nil_iff] at h
  rw [h] at hpos
  exact Nat.lt_irrefl 0 hpos

theorem widest_lines (hg : g.WellFormed) : widest g.lines = g.width := by
  obtain ⟨hmem, hle⟩ := isGreatest_widest g.lines
  obtain ⟨line, hline⟩ := List.exists_mem_of_ne_nil _ (lines_ne_nil hg)
  have hpos := hg.width_pos
  have hline' := hle (Or.inr ⟨line, hline, length_of_mem_lines hg hline⟩)
  rcases hmem with h | ⟨longest, hlongest, h⟩
  · omega
  · rw [← h, length_of_mem_lines hg hlongest]

/-- The rows of a playfield are laid out without any blanks after them. -/
theorem ofLines_lines (hg : g.WellFormed) : ofLines g.lines = g := by
  have hrow : ∀ row ∈ g.cells.toList,
      (row.toList.rightpad (widest g.lines) padding).toArray = row := by
    intro row hrow
    have hlength := length_of_mem_lines hg (List.mem_map_of_mem hrow)
    rw [widest_lines hg, ← hlength, List.rightpad, Nat.sub_self, List.replicate_zero,
      List.append_nil, Array.toArray_toList]
  have hcells : (ofLines g.lines).cells.toList = g.cells.toList := by
    rw [cells_ofLines]
    unfold lines at hrow ⊢
    rw [List.map_map]
    calc
      _ = g.cells.toList.map id := List.map_congr_left hrow
      _ = g.cells.toList := List.map_id _
  have hwidth : (ofLines g.lines).width = g.width := widest_lines hg
  obtain ⟨cells, width⟩ := g
  rw [Playfield.mk.injEq]
  exact ⟨Array.toList_inj.1 hcells, hwidth⟩

theorem newline_not_mem_lines (h : ∀ row ∈ g.cells, '\n' ∉ row) :
    ∀ line ∈ g.lines, '\n' ∉ line := by
  intro line hline
  obtain ⟨row, hrow, rfl⟩ := List.mem_map.1 hline
  rw [Array.mem_toList_iff]
  exact h row (Array.mem_toList_iff.1 hrow)

theorem ofSource_text (hg : g.WellFormed) (h : ∀ row ∈ g.cells, '\n' ∉ row) :
    ofSource g.text = g := by
  rw [text_eq_join, ofSource_join (lines_ne_nil hg) (newline_not_mem_lines h), ofLines_lines hg]

/-- The rows of a playfield under one another are laid out as this playfield again, unless a cell
holds a line feed. A playfield that is laid out from a text has no such cell. -/
theorem rows_are_laid_out_again_unless_a_cell_is_a_newline (hg : g.WellFormed) :
    (ofSource g.text = g ↔ ∀ row ∈ g.cells, '\n' ∉ row) ∧
      ∀ source, ofSource (ofSource source).text = ofSource source := by
  refine ⟨⟨?_, ofSource_text hg⟩, ?_⟩
  · intro h row hrow
    rw [← h] at hrow
    exact newline_not_mem_ofSource hrow
  · intro source
    exact ofSource_text (wellFormed_ofSource source) fun _ => newline_not_mem_ofSource

/-- Two rows with blanks and a carriage return at their ends are laid out again. -/
theorem rows_that_end_in_blanks_are_laid_out_again :
    let g := ofLines ["ab\r".toList, " ".toList]
    ofSource g.text = g ∧ ¬ofSource (g.write (-1) (-1) '\n').text = g.write (-1) (-1) '\n' := by
  intro g
  have hg : g.WellFormed := wellFormed_ofLines (List.cons_ne_nil _ _)
  obtain ⟨hplain, _⟩ := rows_are_laid_out_again_unless_a_cell_is_a_newline hg
  obtain ⟨hput, _⟩ := rows_are_laid_out_again_unless_a_cell_is_a_newline (hg.write (-1) (-1) '\n')
  exact ⟨hplain.2 (by decide +kernel), fun h => absurd (hput.1 h) (by decide +kernel)⟩

end Befunge.Playfield
