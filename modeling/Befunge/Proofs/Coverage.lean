-- Playfields of any shape. A playfield that is read from JSON may have short rows, or no cell at
-- all, and then some coordinates mean no cell. Here is said which ones, and that overwriting cells
-- never changes the shape.
import Befunge.Proofs.Pointer
import Befunge.Proofs.RoundTrip

namespace Befunge.Playfield

variable {g h : Playfield} {x y : Int} {c : Char}

/-! ## Shapes -/

/-- At least one row and one column, and every row at least as long as the width says. -/
structure Covered (g : Playfield) : Prop where
  height_pos : 0 < g.height
  width_pos : 0 < g.width
  le_row_size : ∀ row ∈ g.cells, g.width ≤ row.size

/-- The playfield has no cell at these coordinates: it has no row or no column, or the row that they
mean ends before the column that they mean. -/
def Lacks (g : Playfield) (x y : Int) : Prop :=
  g.height = 0 ∨ g.width = 0 ∨
    ∀ row, g.cells[Torus.wrap y g.height]? = some row → row[Torus.wrap x g.width]? = none

/-- The lengths of the rows. -/
def rowSizes (g : Playfield) : Array Nat := g.cells.map Array.size

theorem size_rowSizes (g : Playfield) : g.rowSizes.size = g.height := Array.size_map

/-- Whether all coordinates are covered is told by the width and the lengths of the rows. -/
theorem covered_iff :
    g.Covered ↔ 0 < g.rowSizes.size ∧ 0 < g.width ∧ ∀ n ∈ g.rowSizes, g.width ≤ n := by
  rw [size_rowSizes]
  constructor
  · rintro ⟨hheight, hwidth, hrow⟩
    refine ⟨hheight, hwidth, ?_⟩
    simpa [rowSizes] using hrow
  · rintro ⟨hheight, hwidth, hrow⟩
    refine ⟨hheight, hwidth, ?_⟩
    simpa [rowSizes] using hrow

theorem Covered.congr (hg : g.Covered) (hwidth : h.width = g.width)
    (hrows : h.rowSizes = g.rowSizes) : h.Covered := by
  rw [covered_iff] at hg ⊢
  rw [hwidth, hrows]
  exact hg

/-! ## Where there is no cell -/

theorem locate?_eq_none_iff : g.locate? x y = none ↔ g.Lacks x y := by
  unfold locate? Lacks
  by_cases hheight : g.height = 0
  · simp [Torus.wrap?, hheight]
  by_cases hwidth : g.width = 0
  · simp [Torus.wrap?, hheight, hwidth]
  have hi : Torus.wrap y g.height < g.cells.size := Torus.wrap_lt y (Nat.pos_of_ne_zero hheight)
  simp [Torus.wrap?, hheight, hwidth, Array.getElem?_eq_getElem hi]

/-- Where there is a cell, it stands in the row and the column that the coordinates mean. -/
theorem locate?_eq_some {i j : Nat} (hcell : g.locate? x y = some (i, j)) :
    ∃ row, g.cells[i]? = some row ∧ j < row.size := by
  unfold locate? at hcell
  simp only [Option.bind_eq_bind, Option.bind_eq_some_iff] at hcell
  obtain ⟨k, _, l, _, row, hrow, hcell⟩ := hcell
  split at hcell
  · rename_i hsize
    cases hcell
    exact ⟨row, hrow, hsize⟩
  · cases hcell

theorem read?_eq_none_iff : g.read? x y = none ↔ g.Lacks x y := by
  rw [← locate?_eq_none_iff]
  unfold read?
  rcases hcell : g.locate? x y with _ | ⟨i, j⟩
  · simp
  · obtain ⟨row, hrow, hsize⟩ := locate?_eq_some hcell
    simp [hrow, hsize]

theorem write?_eq_none_iff : g.write? x y c = none ↔ g.Lacks x y := by
  rw [← locate?_eq_none_iff]
  unfold write?
  rcases g.locate? x y with _ | ⟨i, j⟩ <;> simp

/-- Where there is no cell, the playfield stays as it is. -/
theorem write_eq_getD : g.write x y c = (g.write? x y c).getD g := by
  unfold write write?
  rcases g.locate? x y with _ | ⟨i, j⟩ <;> simp

theorem Covered.not_lacks (hg : g.Covered) (x y : Int) : ¬g.Lacks x y := by
  rintro (hheight | hwidth | hnone)
  · exact absurd hg.height_pos (by omega)
  · exact absurd hg.width_pos (by omega)
  · have hi : Torus.wrap y g.height < g.cells.size := Torus.wrap_lt y hg.height_pos
    have hj := Torus.wrap_lt x hg.width_pos
    have hrow := hg.le_row_size _ (Array.getElem_mem hi)
    have hend := hnone _ (Array.getElem?_eq_getElem hi)
    rw [Array.getElem?_eq_none_iff] at hend
    omega

/-- The number of a cell on a ring is a coordinate that means it. -/
theorem wrap_ofNat {n d : Nat} (hn : n < d) (hd : d < 2 ^ 63) :
    Torus.wrap (Int64.ofNat n).toInt d = n := by
  have hword : (Int64.ofNat n).toInt = n := Int64.toInt_ofNat_of_lt (by omega)
  rw [hword, ← Int.natCast_inj, Torus.wrap_of_lt (by omega) (by omega)]

/-- If no coordinates lack a cell, every row has one in the last column. -/
theorem covered_of_not_lacks (hwidth : g.width < 2 ^ 63) (hheight : g.height < 2 ^ 63)
    (hall : ∀ x y : Value, ¬g.Lacks x.toInt y.toInt) : g.Covered := by
  have hsize : 0 < g.height ∧ 0 < g.width := by
    have hzero := hall 0 0
    unfold Lacks at hzero
    omega
  refine ⟨hsize.1, hsize.2, ?_⟩
  intro row hrow
  obtain ⟨i, hi⟩ := Array.mem_iff_getElem?.1 hrow
  have hlt : i < g.height := (Array.getElem?_eq_some_iff.1 hi).1
  apply Nat.le_of_not_lt
  intro hshort
  apply hall (Int64.ofNat (g.width - 1)) (Int64.ofNat i)
  refine Or.inr (Or.inr ?_)
  intro row' hrow'
  rw [wrap_ofNat hlt hheight, hi] at hrow'
  cases hrow'
  rw [wrap_ofNat (by omega) hwidth, Array.getElem?_eq_none_iff]
  omega

/-! ## Overwriting keeps the shape -/

theorem rowSizes_set (g : Playfield) (i j : Nat) (c : Char) :
    (g.set i j c).rowSizes = g.rowSizes := by
  apply Array.ext_getElem?
  intro k
  simp only [rowSizes, set, Array.getElem?_map, Array.getElem?_modify]
  by_cases hk : i = k
  · rw [if_pos hk, Option.map_map]
    congr 1
    funext row
    exact Array.size_setIfInBounds
  · rw [if_neg hk]

theorem exists_set_of_write? (hwrite : g.write? x y c = some h) : ∃ i j, h = g.set i j c := by
  unfold write? at hwrite
  split at hwrite
  · exact ⟨_, _, (Option.some.inj hwrite).symm⟩
  · cases hwrite

theorem shape_of_write? (hwrite : g.write? x y c = some h) :
    h.width = g.width ∧ h.rowSizes = g.rowSizes := by
  obtain ⟨i, j, rfl⟩ := exists_set_of_write? hwrite
  exact ⟨width_set g i j c, rowSizes_set g i j c⟩

/-! ## The law -/

theorem forall_not_lacks_iff (hwidth : g.width < 2 ^ 63) (hheight : g.height < 2 ^ 63) :
    (∀ x y : Value, ¬g.Lacks x.toInt y.toInt) ↔ g.Covered := by
  constructor
  · exact covered_of_not_lacks hwidth hheight
  · intro hg x y
    exact hg.not_lacks x.toInt y.toInt

theorem isSome_read?_iff : (g.read? x y).isSome ↔ ¬g.Lacks x y := by
  rw [← read?_eq_none_iff, Option.isSome_iff_ne_none]

theorem isSome_write?_iff : (g.write? x y c).isSome ↔ ¬g.Lacks x y := by
  rw [← write?_eq_none_iff (c := c), Option.isSome_iff_ne_none]

/-- A playfield of any shape is read from its JSON text. Every pair of words means a cell of it, for
reading and for writing, if and only if all is covered. Single coordinates mean no cell exactly where
the playfield lacks one, and then writing changes nothing. Where writing succeeds, it keeps the width
and the lengths of the rows, so what was covered stays covered. The number of rows is a size in
memory, which is always less than the number of words that are not negative; of the width this has to
be said. -/
theorem covered_playfields_have_a_cell_everywhere (g : Playfield) (hwidth : g.width < 2 ^ 63)
    (hheight : g.height < 2 ^ 63) :
    Codec.decode? (Codec.encode g) = some g ∧
    ((∀ x y : Value, (g.read? x.toInt y.toInt).isSome) ↔ g.Covered) ∧
    ((∀ (x y : Value) (c : Char), (g.write? x.toInt y.toInt c).isSome) ↔ g.Covered) ∧
    ∀ x y : Value,
      (g.read? x.toInt y.toInt = none ↔ g.Lacks x.toInt y.toInt) ∧
      ∀ c : Char,
        (g.write? x.toInt y.toInt c = none ↔ g.Lacks x.toInt y.toInt) ∧
        g.write x.toInt y.toInt c = (g.write? x.toInt y.toInt c).getD g ∧
        ∀ h, g.write? x.toInt y.toInt c = some h →
          h.width = g.width ∧ h.rowSizes = g.rowSizes ∧ (g.Covered → h.Covered) := by
  have hall := forall_not_lacks_iff hwidth hheight
  refine ⟨?_, ?_, ?_, ?_⟩
  · have hword : g.width < UInt64.size := Nat.lt_trans hwidth (by decide)
    rw [Codec.decode?_encode_eq]
    exact ofJson?_toJson hword
  · simp only [isSome_read?_iff, hall]
  · simp only [isSome_write?_iff, forall_const, hall]
  · intro x y
    refine ⟨read?_eq_none_iff, ?_⟩
    intro c
    refine ⟨write?_eq_none_iff, write_eq_getD, ?_⟩
    intro h hwrite
    obtain ⟨hsame, hrows⟩ := shape_of_write? hwrite
    exact ⟨hsame, hrows, fun hg => hg.congr hsame hrows⟩

/-- A row that is too long does no harm. One that is too short lacks its last column, and has the
columns before it. -/
theorem a_short_row_lacks_its_last_column :
    let long : Playfield := ⟨#[#['a', 'b'], #['c', 'd', 'e']], 2⟩
    let short : Playfield := ⟨#[#['a', 'b'], #['c']], 2⟩
    let last : Value := -1
    (2 < 2 ^ 63 ∧ long.height < 2 ^ 63 ∧ short.height < 2 ^ 63) ∧
      (∀ x y : Value, (long.read? x.toInt y.toInt).isSome) ∧
      ¬(∀ x y : Value, (short.read? x.toInt y.toInt).isSome) ∧
      short.write? last.toInt last.toInt 'f' = none ∧ short.write last.toInt last.toInt 'f' = short ∧
      short.read? 0 last.toInt = some 'c' := by
  intro long short last
  have hwidth : 2 < 2 ^ 63 := by decide
  have hlong : long.height < 2 ^ 63 := by decide
  have hshort : short.height < 2 ^ 63 := by decide
  obtain ⟨_, hread, _, _⟩ := covered_playfields_have_a_cell_everywhere long hwidth hlong
  obtain ⟨_, hread', _, hcell⟩ := covered_playfields_have_a_cell_everywhere short hwidth hshort
  obtain ⟨hlacks, hwrite, _⟩ := (hcell last last).2 'f'
  have hnone : short.write? last.toInt last.toInt 'f' = none :=
    hlacks.2 ((hcell last last).1.1 (by decide))
  refine ⟨⟨hwidth, hlong, hshort⟩, hread.2 ⟨by decide, by decide, by decide⟩, ?_, hnone, ?_,
    by decide⟩
  · intro hall
    have hcovered := hread'.1 hall
    exact absurd (hcovered.le_row_size #['c'] (by simp [short])) (by decide)
  · rw [hwrite, hnone]
    rfl

end Befunge.Playfield
