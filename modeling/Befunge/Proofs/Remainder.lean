-- The cell that a coordinate means. It is the one cell of the ring whose number is congruent to
-- the coordinate. The rule that adds the size of the ring once finds it for every coordinate down
-- to one turn below zero, and further below only for the multiples of the size. For all others it
-- is one turn short.
import Befunge.Proofs.Pointer
import Mathlib.Data.Int.ModEq

namespace Befunge.Torus

variable {c r : Int} {d : Nat}

/-! ## The remainder -/

/-- A number on the ring is the cell that a coordinate means if and only if it is congruent to it. -/
theorem eq_wrap_iff (hd : 0 < d) : r = wrap c d ↔ (0 ≤ r ∧ r < d) ∧ r ≡ c [ZMOD d] := by
  rw [coe_wrap c hd]
  constructor
  · rintro rfl
    have h0 : 0 ≤ c % d := Int.emod_nonneg c (by omega)
    have hlt : c % d < d := Int.emod_lt_of_pos c (by omega)
    exact ⟨⟨h0, hlt⟩, Int.mod_modEq c d⟩
  · rintro ⟨⟨h0, hlt⟩, hcongr⟩
    rw [← Int.emod_eq_of_lt h0 hlt]
    exact hcongr

/-- The coordinates that mean themselves are those on the ring. -/
theorem wrap_eq_self_iff (hd : 0 < d) : (wrap c d : Int) = c ↔ 0 ≤ c ∧ c < d := by
  rw [eq_comm, eq_wrap_iff hd]
  exact and_iff_left (Int.ModEq.refl c)

/-! ## Adding the size once -/

/-- More than one turn below zero, adding the size once leaves a negative coordinate, and its
remainder is a whole turn below the cell, unless it is zero. -/
theorem wrapOnce_of_lt (hd : 0 < d) (hlow : c < -(d : Int)) (hdvd : ¬(d : Int) ∣ c) :
    wrapOnce c d = wrap c d - d := by
  have hneg : c < 0 := by omega
  have hsum : ¬0 ≤ c + d := by omega
  have hdvd' : ¬(d : Int) ∣ c + d := by
    rw [Int.dvd_add_left (Int.dvd_refl _)]
    exact hdvd
  unfold wrapOnce
  rw [if_pos hneg, Int.tmod_eq_emod, if_neg (not_or.2 ⟨hsum, hdvd'⟩), Int.add_emod_right,
    coe_wrap c hd, Int.natAbs_natCast]

/-- The rule on words. -/
def wrapOnceWord (c : Int64) (d : Nat) : Int64 :=
  (if c < 0 then c + Int64.ofNat d else c) % Int64.ofNat d

/-- Adding the size to a negative word does not wrap around. -/
theorem toInt_wrapOnceWord (c : Int64) (hd : d < 2 ^ 63) :
    (wrapOnceWord c d).toInt = wrapOnce c.toInt d := by
  have hsize : (Int64.ofNat d).toInt = d := Int64.toInt_ofNat_of_lt hd
  have hzero : c < 0 ↔ c.toInt < 0 := Int64.lt_iff_toInt_lt
  unfold wrapOnceWord wrapOnce
  rw [Int64.toInt_mod, hsize]
  congr 1
  by_cases hneg : c.toInt < 0
  · have hmin : -2 ^ 63 ≤ c.toInt := Int64.le_toInt c
    rw [if_pos hneg, if_pos (hzero.2 hneg), Point.toInt_add_of_range, hsize]
    · omega
    · omega
  · rw [if_neg hneg, if_neg (mt hzero.1 hneg)]

/-- A coordinate means the one number on the ring that is congruent to it. So coordinates mean the
same cell if and only if they are congruent, and those on the ring are the ones that mean
themselves. Adding the size to a negative coordinate once before taking the remainder finds this
cell for the coordinates that are at most one turn below zero and for the multiples of the size.
For every other coordinate it gives a negative number, one turn below the cell. Words have room
for that rule. -/
theorem every_coordinate_means_one_cell (hd : 0 < d) :
    (∀ c r : Int, (0 ≤ r ∧ r < d) ∧ r ≡ c [ZMOD d] ↔ r = wrap c d) ∧
      (∀ c c' : Int, c ≡ c' [ZMOD d] ↔ wrap c d = wrap c' d) ∧
      (∀ c : Int, wrap c d = c ↔ 0 ≤ c ∧ c < d) ∧
      (∀ c : Int, wrapOnce c d = wrap c d ↔ -(d : Int) ≤ c ∨ (d : Int) ∣ c) ∧
      (∀ c : Int, ¬(-(d : Int) ≤ c ∨ (d : Int) ∣ c) →
        wrapOnce c d < 0 ∧ wrapOnce c d + d = wrap c d) ∧
      ∀ c : Int64, d < 2 ^ 63 → (wrapOnceWord c d).toInt = wrapOnce c.toInt d := by
  refine ⟨?_, ?_, ?_, ?_, ?_, ?_⟩
  · intro c r
    exact (eq_wrap_iff hd).symm
  · intro c c'
    exact (wrap_eq_iff hd).symm
  · intro c
    exact wrap_eq_self_iff hd
  · intro c
    exact wrapOnce_eq_wrap_iff hd
  · intro c hfar
    obtain ⟨hlow, hdvd⟩ := not_or.1 hfar
    have honce := wrapOnce_of_lt hd (Int.lt_of_not_ge hlow) hdvd
    have hlt := wrap_lt c hd
    omega
  · intro c hword
    exact toInt_wrapOnceWord c hword

/-- On a ring of four cells, nine below zero means the last cell. Adding four once does not lead
there, but it is enough for eight below zero. -/
theorem nine_below_zero_is_more_than_one_turn :
    0 < 4 ∧
      (∀ r : Int, (0 ≤ r ∧ r < 4) ∧ r ≡ -9 [ZMOD 4] ↔ r = 3) ∧
      (wrapOnce (-9) 4 < 0 ∧ wrapOnce (-9) 4 + 4 = 3) ∧
      wrapOnce (-8) 4 = wrap (-8) 4 ∧
      (wrapOnceWord (-9) 4).toInt = wrapOnce (-9) 4 := by
  have hlast : (wrap (-9) 4 : Int) = 3 := by decide
  obtain ⟨hunique, _, _, honce, hfar, hword⟩ := every_coordinate_means_one_cell (d := 4) (by decide)
  refine ⟨by decide, ?_, ?_, ?_, ?_⟩
  · intro r
    rw [← hlast]
    exact hunique (-9) r
  · rw [← hlast]
    exact hfar (-9) (by decide)
  · exact (honce (-8)).2 (by decide)
  · exact hword (-9) (by decide)

end Befunge.Torus
