-- The cells of a playfield: what is read after a cell has been overwritten, and playfields
-- that differ in some cells only.
import Befunge.Proofs.Stepping
import Mathlib.Data.Set.Insert

namespace Befunge

/-- The column and the row of a cell of a playfield. -/
abbrev Spot := Nat × Nat

namespace Playfield

/-! ## Reading after writing -/

/-- The cell that coordinates mean. -/
def spot (g : Playfield) (x y : Int) : Spot := (Torus.wrap x g.width, Torus.wrap y g.height)

variable {g g' : Playfield}

theorem spot_congr (hw : g'.width = g.width) (hh : g'.height = g.height) (x y : Int) :
    g'.spot x y = g.spot x y := by
  unfold spot
  rw [hw, hh]

/-- The cell in a row and a column. -/
def at? (g : Playfield) (s : Spot) : Option Char := g.cells[s.2]?.bind (·[s.1]?)

theorem spot_lt (hg : g.WellFormed) (x y : Int) :
    (g.spot x y).1 < g.width ∧ (g.spot x y).2 < g.height :=
  ⟨Torus.wrap_lt x hg.width_pos, Torus.wrap_lt y hg.height_pos⟩

theorem exists_at? (hg : g.WellFormed) {s : Spot} (hs : s.1 < g.width ∧ s.2 < g.height) :
    ∃ c, g.at? s = some c := by
  have hrow := Array.getElem?_eq_getElem (show s.2 < g.cells.size from hs.2)
  unfold at?
  rw [hrow]
  exact ⟨_, Array.getElem?_eq_getElem (by rw [hg.row_size _ _ hrow]; exact hs.1)⟩

theorem at?_set (hg : g.WellFormed) {s : Spot} (hs : s.1 < g.width ∧ s.2 < g.height) (c : Char)
    (t : Spot) : (g.set s.2 s.1 c).at? t = if t = s then some c else g.at? t := by
  obtain ⟨j, i⟩ := s
  obtain ⟨l, k⟩ := t
  have hcolumn : j < g.width := hs.1
  have hbound : i < g.cells.size := hs.2
  have hrow := Array.getElem?_eq_getElem hbound
  have hsize := hg.row_size _ _ hrow
  unfold at? set
  simp only [Array.getElem?_modify]
  by_cases hi : i = k
  · subst hi
    rw [if_pos rfl, hrow]
    simp only [Option.map_some, Option.bind_some, Array.getElem?_setIfInBounds]
    by_cases hj : j = l
    · subst hj
      rw [if_pos rfl, if_pos rfl, if_pos (by omega)]
    · rw [if_neg hj, if_neg (fun h => hj (congrArg Prod.fst h).symm)]
  · rw [if_neg hi, if_neg (fun h => hi (congrArg Prod.snd h).symm)]

theorem read_eq (hg : g.WellFormed) (x y : Int) :
    g.read x y = (g.at? (g.spot x y)).getD padding := by
  unfold read read?
  rw [hg.locate?_eq]
  rfl

/-- On a well-formed playfield there is a cell at all coordinates. -/
theorem read?_eq (hg : g.WellFormed) (x y : Int) : g.read? x y = some (g.read x y) := by
  obtain ⟨c, hc⟩ := exists_at? hg (spot_lt hg x y)
  have hread : g.read? x y = g.at? (g.spot x y) := by
    unfold read?
    rw [hg.locate?_eq]
    rfl
  unfold read
  rw [hread, hc]
  rfl

theorem write_eq (hg : g.WellFormed) (x y : Int) (c : Char) :
    g.write x y c = g.set (g.spot x y).2 (g.spot x y).1 c := by
  unfold write
  rw [hg.locate?_eq]
  rfl

/-- Writing changes what is read at all coordinates that mean the same cell, and nowhere else. -/
theorem read_write (hg : g.WellFormed) (x y : Int) (c : Char) (x' y' : Int) :
    (g.write x y c).read x' y' = if g.spot x' y' = g.spot x y then c else g.read x' y' := by
  have hspot := spot_congr (g.width_write x y c) (g.height_write x y c) x' y'
  rw [read_eq (hg.write x y c), hspot, write_eq hg, at?_set hg (spot_lt hg x y), read_eq hg]
  split
  · rfl
  · rfl

/-! ## Playfields of given cells -/

/-- The playfield of a given size whose cell in row `i` and column `j` is `cell i j`. -/
def tabulate (height width : Nat) (cell : Nat → Nat → Char) : Playfield where
  cells := Array.ofFn fun i : Fin height => Array.ofFn fun j : Fin width => cell i j
  width := width

section

variable {height width : Nat}

@[simp]
theorem height_tabulate (height width : Nat) (cell : Nat → Nat → Char) :
    (tabulate height width cell).height = height := Array.size_ofFn

@[simp]
theorem width_tabulate (height width : Nat) (cell : Nat → Nat → Char) :
    (tabulate height width cell).width = width := rfl

theorem wellFormed_tabulate (hh : 0 < height) (hw : 0 < width) (cell : Nat → Nat → Char) :
    (tabulate height width cell).WellFormed where
  height_pos := by
    rw [height_tabulate]
    exact hh
  width_pos := hw
  row_size := by
    intro i row hrow
    simp only [tabulate, Array.getElem?_ofFn] at hrow
    split at hrow
    · cases hrow
      exact Array.size_ofFn
    · cases hrow

theorem read?_tabulate (hh : 0 < height) (hw : 0 < width) (cell : Nat → Nat → Char) (x y : Int) :
    (tabulate height width cell).read? x y =
      some (cell (Torus.wrap y height) (Torus.wrap x width)) := by
  have hi := Torus.wrap_lt y hh
  have hj := Torus.wrap_lt x hw
  unfold read?
  rw [(wellFormed_tabulate hh hw cell).locate?_eq, height_tabulate, width_tabulate]
  unfold tabulate
  simp only [Option.bind_eq_bind, Option.bind_some, Array.getElem?_ofFn, dif_pos hi, dif_pos hj]

end

/-! ## Playfields that differ in some cells -/

/-- Two well-formed playfields of one size with the same cells but for those in `D`. -/
structure AgreeOutside (D : Set Spot) (g g' : Playfield) : Prop where
  left : g.WellFormed
  right : g'.WellFormed
  width_eq : g'.width = g.width
  height_eq : g'.height = g.height
  read_eq : ∀ x y, g.spot x y ∉ D → g'.read x y = g.read x y

variable {D : Set Spot}

theorem AgreeOutside.write (h : AgreeOutside D g g') (x y : Int) (c : Char) :
    AgreeOutside (D \ {g.spot x y}) (g.write x y c) (g'.write x y c) where
  left := h.left.write x y c
  right := h.right.write x y c
  width_eq := by rw [width_write, width_write, h.width_eq]
  height_eq := by rw [height_write, height_write, h.height_eq]
  read_eq := by
    intro x' y' hnot
    rw [spot_congr (g.width_write x y c) (g.height_write x y c)] at hnot
    rw [read_write h.left, read_write h.right, spot_congr h.width_eq h.height_eq,
      spot_congr h.width_eq h.height_eq]
    by_cases hsame : g.spot x' y' = g.spot x y
    · rw [if_pos hsame, if_pos hsame]
    · rw [if_neg hsame, if_neg hsame]
      exact h.read_eq x' y' (fun hD => hnot ⟨hD, hsame⟩)

theorem AgreeOutside.mono {E : Set Spot} (h : AgreeOutside D g g') (hsub : D ⊆ E) :
    AgreeOutside E g g' :=
  { h with read_eq := fun x y hnot => h.read_eq x y (fun hD => hnot (hsub hD)) }

theorem agreeOutside_write (hg : g.WellFormed) (x y : Int) (c : Char) :
    AgreeOutside {g.spot x y} g (g.write x y c) where
  left := hg
  right := hg.write x y c
  width_eq := g.width_write x y c
  height_eq := g.height_write x y c
  read_eq := by
    intro x' y' hnot
    rw [Set.mem_singleton_iff] at hnot
    rw [read_write hg, if_neg hnot]

end Playfield

end Befunge
