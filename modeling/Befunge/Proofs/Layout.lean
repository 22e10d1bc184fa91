-- The cells of a program as it was loaded: the characters of its lines, and blanks after the
-- end of the short ones. A program of one row or of one column is a closed line of cells.
import Befunge.Proofs.Cells
import Befunge.Proofs.Pointer

namespace Befunge.Playfield

/-! ## Lines -/

theorem at?_ofLines (lines : List (List Char)) {i j : Nat} (hi : i < lines.length)
    (hj : j < widest lines) :
    (ofLines lines).at? (j, i) = some ((lines.getD i []).getD j padding) := by
  unfold at? ofLines
  simp only [List.getElem?_toArray, List.getElem?_map, List.getElem?_eq_getElem hi,
    Option.map_some, Option.bind_some, Lines.getElem?_pad padding _ hj,
    List.getD_eq_getElem?_getD, Option.getD_some]

theorem read_ofLines {lines : List (List Char)} (hne : lines ≠ []) (x y : Int) :
    (ofLines lines).read x y =
      (lines.getD (Torus.wrap y lines.length) []).getD (Torus.wrap x (widest lines)) padding := by
  have hlength : 0 < lines.length := List.length_pos_iff.2 hne
  have hspot : (ofLines lines).spot x y =
      (Torus.wrap x (widest lines), Torus.wrap y lines.length) := by
    unfold spot
    rw [height_ofLines]
    rfl
  rw [read_eq (wellFormed_ofLines hne), hspot, at?_ofLines lines (Torus.wrap_lt y hlength)
    (Torus.wrap_lt x (widest_pos lines))]
  rfl

/-- A source that is joined from lines is laid out as those lines. -/
theorem ofSource_join {lines : List (List Char)} (hne : lines ≠ [])
    (h : ∀ line ∈ lines, '\n' ∉ line) :
    ofSource (String.ofList (Lines.join lines)) = ofLines lines := by
  unfold ofSource
  rw [String.toList_ofList, Lines.split_join hne h]

/-! ## One row -/

theorem widest_row {cells : List Char} (h : cells ≠ []) : widest [cells] = cells.length := by
  have := List.length_pos_iff.2 h
  simp only [widest, List.map_cons, List.map_nil, List.foldl_cons, List.foldl_nil]
  omega

/-- A row is read around and around. -/
theorem read_row {cells : List Char} (h : cells ≠ []) (x y : Int) :
    (ofLines [cells]).read x y = cells.getD (Torus.wrap x cells.length) padding := by
  have hwrap : Torus.wrap y 1 = 0 := by
    have := Torus.wrap_lt y Nat.one_pos
    omega
  rw [read_ofLines (by simp), widest_row h, List.length_singleton, hwrap]
  rfl

theorem addressable_row {cells : List Char} (h : cells ≠ []) (hlen : cells.length < 2 ^ 62) :
    (ofLines [cells]).Addressable := by
  refine ⟨wellFormed_ofLines (List.cons_ne_nil _ _), ?_, ?_⟩
  · show widest [cells] < 2 ^ 62
    rw [widest_row h]
    exact hlen
  · rw [height_ofLines]
    simp

/-! ## One column -/

/-- The lines of a program that is written from top to bottom. -/
def column (cells : List Char) : List (List Char) := cells.map fun c => [c]

theorem column_ne_nil {cells : List Char} (h : cells ≠ []) : column cells ≠ [] := by
  simpa [column] using h

theorem widest_column (cells : List Char) : widest (column cells) = 1 := by
  unfold widest column
  induction cells with
  | nil => rfl
  | cons c cells ih => simpa using ih

/-- A column is read around and around. -/
theorem read_column {cells : List Char} (h : cells ≠ []) (x y : Int) :
    (ofLines (column cells)).read x y = cells.getD (Torus.wrap y cells.length) padding := by
  have hne := column_ne_nil h
  have hlength : (column cells).length = cells.length := List.length_map _
  have hwrap : Torus.wrap x 1 = 0 := by
    have := Torus.wrap_lt x Nat.one_pos
    omega
  have hlt := Torus.wrap_lt y (List.length_pos_iff.2 h)
  rw [read_ofLines hne, widest_column, hlength, hwrap]
  simp only [column, List.getD_eq_getElem?_getD, List.getElem?_map,
    List.getElem?_eq_getElem hlt, Option.map_some, Option.getD_some, List.getElem?_cons_zero]

theorem addressable_column {cells : List Char} (h : cells ≠ []) (hlen : cells.length < 2 ^ 62) :
    (ofLines (column cells)).Addressable := by
  refine ⟨wellFormed_ofLines (column_ne_nil h), ?_, ?_⟩
  · show widest (column cells) < 2 ^ 62
    rw [widest_column]
    decide
  · rw [height_ofLines, column, List.length_map]
    exact hlen

end Befunge.Playfield
