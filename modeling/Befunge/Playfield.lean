-- The playfield: the cells of a program, on a torus. A program can read and
-- overwrite every cell of it, at any coordinates.
import Befunge.Torus
import Befunge.Text.Lines

namespace Befunge

/-- Rows of cells, with the width that columns are counted by. A playfield that is read from
JSON may have rows of other lengths; one that is laid out from a source is well formed. -/
structure Playfield where
  cells : Array (Array Char)
  width : Nat
  deriving DecidableEq

namespace Playfield

/-- The cell that fills short rows. -/
def padding : Char := ' '

/-- The number of rows. -/
def height (g : Playfield) : Nat := g.cells.size

/-! ## Laying out a source -/

/-- The length of the longest of some lines, and at least one. -/
def widest (lines : List (List Char)) : Nat :=
  (lines.map List.length).foldl max 1

/-- The playfield with the given lines, each padded to the length of the longest. -/
def ofLines (lines : List (List Char)) : Playfield where
  cells := (lines.map fun line => (Lines.pad padding (widest lines) line).toArray).toArray
  width := widest lines

/-- The playfield of a source text. The empty text gives one blank cell. -/
def ofSource (source : String) : Playfield := ofLines (Lines.split source.toList)

/-- The rows as texts, from top to bottom. -/
def rows (g : Playfield) : List String :=
  g.cells.toList.map fun row => String.ofList row.toList

/-! ## Cells -/

/-- The row and the column of the cell that coordinates mean. There is none if a dimension is
zero or the row is too short. -/
def locate? (g : Playfield) (x y : Int) : Option (Nat × Nat) := do
  let i ← Torus.wrap? y g.height
  let j ← Torus.wrap? x g.width
  let row ← g.cells[i]?
  if j < row.size then some (i, j) else none

/-- The cell at some coordinates, if there is one. -/
def read? (g : Playfield) (x y : Int) : Option Char := do
  let (i, j) ← g.locate? x y
  let row ← g.cells[i]?
  row[j]?

/-- The playfield with the cell in row `i` and column `j` overwritten. -/
def set (g : Playfield) (i j : Nat) (c : Char) : Playfield :=
  { g with cells := g.cells.modify i fun row => row.setIfInBounds j c }

/-- The playfield with the cell at some coordinates overwritten, if there is one. -/
def write? (g : Playfield) (x y : Int) (c : Char) : Option Playfield :=
  match g.locate? x y with
  | some (i, j) => some (g.set i j c)
  | none => none

/-- The cell at some coordinates, and a blank where there is none. -/
def read (g : Playfield) (x y : Int) : Char := (g.read? x y).getD padding

/-- The playfield with the cell at some coordinates overwritten, and the same playfield where
there is none. -/
def write (g : Playfield) (x y : Int) (c : Char) : Playfield :=
  match g.locate? x y with
  | some (i, j) => g.set i j c
  | none => g

/-! ## Well-formed playfields -/

/-- At least one row and one column, and every row as long as the width says. Every coordinate
then means a cell. -/
structure WellFormed (g : Playfield) : Prop where
  height_pos : 0 < g.height
  width_pos : 0 < g.width
  row_size : ∀ (i : Nat) (row : Array Char), g.cells[i]? = some row → row.size = g.width

theorem foldl_max_ge (lengths : List Nat) (least : Nat) :
    least ≤ lengths.foldl max least ∧ ∀ n ∈ lengths, n ≤ lengths.foldl max least := by
  induction lengths generalizing least with
  | nil => simp
  | cons n rest ih =>
    obtain ⟨h1, h2⟩ := ih (max least n)
    simp only [List.foldl_cons]
    refine ⟨by omega, ?_⟩
    intro k hk
    rcases List.mem_cons.1 hk with rfl | hk
    · omega
    · exact h2 k hk

theorem widest_pos (lines : List (List Char)) : 0 < widest lines :=
  (foldl_max_ge _ 1).1

theorem length_le_widest {lines : List (List Char)} {line : List Char} (h : line ∈ lines) :
    line.length ≤ widest lines :=
  (foldl_max_ge _ 1).2 _ (List.mem_map_of_mem h)

@[simp]
theorem height_ofLines (lines : List (List Char)) : (ofLines lines).height = lines.length := by
  simp [ofLines, height]

/-- A playfield that is laid out from at least one line is well formed. -/
theorem wellFormed_ofLines {lines : List (List Char)} (h : lines ≠ []) :
    (ofLines lines).WellFormed where
  height_pos := by
    rw [height_ofLines]
    exact List.length_pos_iff.2 h
  width_pos := widest_pos lines
  row_size := by
    intro i row hrow
    simp only [ofLines, List.getElem?_toArray, List.getElem?_map, Option.map_eq_some_iff] at hrow
    obtain ⟨line, hline, rfl⟩ := hrow
    exact Lines.length_pad (length_le_widest (List.mem_of_getElem? hline))

/-- The playfield of a source is well formed. -/
theorem wellFormed_ofSource (source : String) : (ofSource source).WellFormed :=
  wellFormed_ofLines (Lines.split_ne_nil _)

/-- On a well-formed playfield, coordinates mean the cell where they wrap to. -/
theorem WellFormed.locate?_eq {g : Playfield} (h : g.WellFormed) (x y : Int) :
    g.locate? x y = some (Torus.wrap y g.height, Torus.wrap x g.width) := by
  have hi : Torus.wrap y g.height < g.cells.size := Torus.wrap_lt y h.height_pos
  have hrow := Array.getElem?_eq_getElem hi
  have hj : Torus.wrap x g.width < g.cells[Torus.wrap y g.height].size := by
    rw [h.row_size _ _ hrow]
    exact Torus.wrap_lt x h.width_pos
  simp [locate?, Torus.wrap?_of_pos y h.height_pos, Torus.wrap?_of_pos x h.width_pos, hrow, hj]

@[simp]
theorem height_set (g : Playfield) (i j : Nat) (c : Char) : (g.set i j c).height = g.height := by
  simp [set, height]

@[simp]
theorem width_set (g : Playfield) (i j : Nat) (c : Char) : (g.set i j c).width = g.width := rfl

theorem WellFormed.set {g : Playfield} (h : g.WellFormed) (i j : Nat) (c : Char) :
    (g.set i j c).WellFormed where
  height_pos := by simpa using h.height_pos
  width_pos := h.width_pos
  row_size := by
    intro k row hrow
    simp only [Playfield.set, Array.getElem?_modify] at hrow
    split at hrow
    · obtain ⟨old, hold, rfl⟩ := Option.map_eq_some_iff.1 hrow
      simpa using h.row_size _ _ hold
    · exact h.row_size _ _ hrow

/-- Overwriting a cell keeps a playfield well formed. -/
theorem WellFormed.write {g : Playfield} (h : g.WellFormed) (x y : Int) (c : Char) :
    (g.write x y c).WellFormed := by
  rw [Playfield.write, h.locate?_eq]
  exact h.set _ _ _

end Playfield

end Befunge
