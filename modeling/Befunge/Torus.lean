-- Coordinates on a ring of cells. Opposite edges of the playfield are joined,
-- so a coordinate means its remainder by the size of the ring.
namespace Befunge.Torus

/-- The cell of a ring of `d` cells that the coordinate `c` means: the remainder of `c` by
`d` that is never negative. -/
def wrap (c : Int) (d : Nat) : Nat := (c % (d : Int)).toNat

/-- The cell that a coordinate means on a ring that may have no cell at all. -/
def wrap? (c : Int) (d : Nat) : Option Nat := if d = 0 then none else some (wrap c d)

theorem wrap?_of_pos {d : Nat} (c : Int) (h : 0 < d) : wrap? c d = some (wrap c d) := by
  simp [wrap?, Nat.ne_of_gt h]

theorem coe_wrap {d : Nat} (c : Int) (h : 0 < d) : (wrap c d : Int) = c % d :=
  Int.toNat_of_nonneg (Int.emod_nonneg c (by omega))

theorem wrap_lt {d : Nat} (c : Int) (h : 0 < d) : wrap c d < d := by
  have := Int.emod_lt_of_pos c (b := d) (by omega)
  have := coe_wrap c h
  omega

/-- The rule for a coordinate that has left the ring by less than one turn: a negative one
has the size added once, and then the remainder takes the sign of its dividend. -/
def wrapOnce (c : Int) (d : Nat) : Int := Int.tmod (if c < 0 then c + d else c) d

end Befunge.Torus
