-- Where the pointer may be. A place that lies at most two cells outside the playfield
-- is brought onto it by either rule for coordinates, and moving and bringing back can be
-- done in any order.
import Befunge.Proofs.Stepping
import Mathlib.Algebra.Group.Int.Defs
import Mathlib.Algebra.Group.Nat.Defs

namespace Befunge

/-! ## Coordinates -/

namespace Torus

theorem wrap_of_lt {c : Int} {d : Nat} (h0 : 0 ≤ c) (h : c < d) : (wrap c d : Int) = c := by
  rw [coe_wrap c (by omega)]
  exact Int.emod_eq_of_lt h0 h

theorem wrap_eq_iff {a b : Int} {d : Nat} (hd : 0 < d) :
    wrap a d = wrap b d ↔ a % d = b % d := by
  rw [← coe_wrap a hd, ← coe_wrap b hd, Int.natCast_inj]

theorem wrap_wrap_add (a b : Int) {d : Nat} (hd : 0 < d) :
    wrap (wrap a d + b) d = wrap (a + b) d := by
  rw [wrap_eq_iff hd, coe_wrap a hd, Int.emod_add_emod]

/-- Adding the size once is enough for a coordinate that has left the ring by no more than one
turn, and for one that means the first cell, but for no other. -/
theorem wrapOnce_eq_wrap_iff {c : Int} {d : Nat} (hd : 0 < d) :
    wrapOnce c d = wrap c d ↔ -(d : Int) ≤ c ∨ (d : Int) ∣ c := by
  have hdvd : (d : Int) ∣ c + d ↔ (d : Int) ∣ c := Int.dvd_add_left (Int.dvd_refl _)
  unfold wrapOnce
  rw [coe_wrap c hd]
  split
  · rw [Int.tmod_eq_emod, Int.add_emod_right]
    simp only [hdvd]
    split
    · omega
    · rw [Int.natAbs_natCast]
      omega
  · rw [Int.tmod_eq_emod_of_nonneg (by omega)]
    simp only [true_iff]
    omega

end Torus

/-! ## Places -/

theorem Heading.delta_range (h : Heading) :
    -1 ≤ h.delta.1.toInt ∧ h.delta.1.toInt ≤ 1 ∧ -1 ≤ h.delta.2.toInt ∧ h.delta.2.toInt ≤ 1 := by
  cases h <;> decide

namespace Point

theorem eq_of_toInt {p q : Point} (hx : p.x.toInt = q.x.toInt) (hy : p.y.toInt = q.y.toInt) :
    p = q := by
  obtain ⟨px, py⟩ := p
  obtain ⟨qx, qy⟩ := q
  rw [Point.mk.injEq]
  exact ⟨Int64.toInt_inj.1 hx, Int64.toInt_inj.1 hy⟩

theorem toInt_add_of_range {a b : Int64} (h0 : -2 ^ 63 ≤ a.toInt + b.toInt)
    (h1 : a.toInt + b.toInt < 2 ^ 63) : (a + b).toInt = a.toInt + b.toInt := by
  rw [Int64.toInt_add]
  exact Int.bmod_eq_of_le (by omega) (by omega)

end Point

namespace Playfield

/-- A well-formed playfield that is small enough for words to count beyond its edges. -/
structure Addressable (g : Playfield) : Prop extends g.WellFormed where
  width_lt : g.width < 2 ^ 62
  height_lt : g.height < 2 ^ 62

/-- A place at most `k` cells outside of the playfield. -/
structure Nearby (g : Playfield) (k : Int) (p : Point) : Prop where
  x_ge : -k ≤ p.x.toInt
  x_lt : p.x.toInt < g.width + k
  y_ge : -k ≤ p.y.toInt
  y_lt : p.y.toInt < g.height + k

/-- The place on the playfield that coordinates mean. -/
def place (g : Playfield) (x y : Int) : Point :=
  ⟨Int64.ofNat (Torus.wrap x g.width), Int64.ofNat (Torus.wrap y g.height)⟩

/-- A place brought onto the playfield. -/
abbrev settle (g : Playfield) (p : Point) : Point := g.place p.x.toInt p.y.toInt

/-- A place brought onto the playfield by adding each size at most once. -/
def settleOnce (g : Playfield) (p : Point) : Point :=
  ⟨Int64.ofInt (Torus.wrapOnce p.x.toInt g.width), Int64.ofInt (Torus.wrapOnce p.y.toInt g.height)⟩

variable {g : Playfield} {p : Point} {k : Int}

theorem Addressable.toInt_place_x (hg : g.Addressable) (x y : Int) :
    (g.place x y).x.toInt = Torus.wrap x g.width := by
  have hlt := Torus.wrap_lt x hg.width_pos
  have hw := hg.width_lt
  exact Int64.toInt_ofNat_of_lt (by omega)

theorem Addressable.toInt_place_y (hg : g.Addressable) (x y : Int) :
    (g.place x y).y.toInt = Torus.wrap y g.height := by
  have hlt := Torus.wrap_lt y hg.height_pos
  have hh := hg.height_lt
  exact Int64.toInt_ofNat_of_lt (by omega)

theorem Addressable.nearby_place (hg : g.Addressable) (x y : Int) : g.Nearby 0 (g.place x y) where
  x_ge := by rw [hg.toInt_place_x]; omega
  x_lt := by
    have := Torus.wrap_lt x hg.width_pos
    rw [hg.toInt_place_x]
    omega
  y_ge := by rw [hg.toInt_place_y]; omega
  y_lt := by
    have := Torus.wrap_lt y hg.height_pos
    rw [hg.toInt_place_y]
    omega

theorem Addressable.nearby_settle (hg : g.Addressable) (p : Point) : g.Nearby 0 (g.settle p) :=
  hg.nearby_place _ _

theorem Addressable.settle_eq_self (hg : g.Addressable) (hp : g.Nearby 0 p) : g.settle p = p := by
  obtain ⟨h1, h2, h3, h4⟩ := hp
  apply Point.eq_of_toInt
  · rw [hg.toInt_place_x]
    exact Torus.wrap_of_lt (by omega) (by omega)
  · rw [hg.toInt_place_y]
    exact Torus.wrap_of_lt (by omega) (by omega)

theorem Addressable.nearby_origin (hg : g.Addressable) : g.Nearby 0 Point.origin where
  x_ge := by decide
  x_lt := by
    have := hg.width_pos
    have h : Point.origin.x.toInt = 0 := by decide
    omega
  y_ge := by decide
  y_lt := by
    have := hg.height_pos
    have h : Point.origin.y.toInt = 0 := by decide
    omega

theorem Nearby.mono {l : Int} (hp : g.Nearby k p) (h : k ≤ l) : g.Nearby l p := by
  obtain ⟨h1, h2, h3, h4⟩ := hp
  exact ⟨by omega, by omega, by omega, by omega⟩

theorem Addressable.toInt_advance (hg : g.Addressable) (hp : g.Nearby k p) (hk : k ≤ 2)
    (h : Heading) :
    (p.advance h).x.toInt = p.x.toInt + h.delta.1.toInt ∧
      (p.advance h).y.toInt = p.y.toInt + h.delta.2.toInt := by
  obtain ⟨d1, d2, d3, d4⟩ := h.delta_range
  obtain ⟨h1, h2, h3, h4⟩ := hp
  have hw := hg.width_lt
  have hh := hg.height_lt
  exact ⟨Point.toInt_add_of_range (by omega) (by omega),
    Point.toInt_add_of_range (by omega) (by omega)⟩

theorem Addressable.nearby_advance (hg : g.Addressable) (hp : g.Nearby k p) (hk : k ≤ 2)
    (h : Heading) : g.Nearby (k + 1) (p.advance h) := by
  obtain ⟨d1, d2, d3, d4⟩ := h.delta_range
  obtain ⟨hx, hy⟩ := hg.toInt_advance hp hk h
  obtain ⟨h1, h2, h3, h4⟩ := hp
  exact ⟨by omega, by omega, by omega, by omega⟩

/-- Two cells outside the playfield are no more than one turn, or the playfield has only one
cell in that direction. -/
theorem Addressable.settleOnce_eq_settle (hg : g.Addressable) (hp : g.Nearby 2 p) :
    g.settleOnce p = g.settle p := by
  have hring : ∀ (c : Int) (d : Nat), 0 < d → -2 ≤ c → Torus.wrapOnce c d = Torus.wrap c d := by
    intro c d hd hc
    rw [Torus.wrapOnce_eq_wrap_iff hd]
    by_cases h1 : d = 1
    · subst h1
      exact Or.inr (Int.one_dvd c)
    · left
      omega
  unfold settleOnce settle place
  rw [hring _ _ hg.width_pos hp.x_ge, hring _ _ hg.height_pos hp.y_ge, Int64.ofInt_eq_ofNat,
    Int64.ofInt_eq_ofNat]

/-- A move may be made before a place is brought onto the playfield or after it. -/
theorem Addressable.settle_advance (hg : g.Addressable) (hp : g.Nearby k p) (hk : k ≤ 2)
    (h : Heading) : g.settle ((g.settle p).advance h) = g.settle (p.advance h) := by
  obtain ⟨hx, hy⟩ := hg.toInt_advance hp hk h
  obtain ⟨hx', hy'⟩ := hg.toInt_advance (hg.nearby_settle p) (by omega) h
  apply Point.eq_of_toInt
  · rw [hg.toInt_place_x, hg.toInt_place_x, hx', hx, hg.toInt_place_x,
      Torus.wrap_wrap_add _ _ hg.width_pos]
  · rw [hg.toInt_place_y, hg.toInt_place_y, hy', hy, hg.toInt_place_y,
      Torus.wrap_wrap_add _ _ hg.height_pos]

/-! ## Playfields of one size -/

theorem settle_congr {g' : Playfield} (hw : g'.width = g.width) (hh : g'.height = g.height) :
    g'.settle = g.settle := by
  unfold settle place
  rw [hw, hh]

theorem Nearby.congr {g' : Playfield} (hp : g.Nearby k p) (hw : g'.width = g.width)
    (hh : g'.height = g.height) : g'.Nearby k p := by
  obtain ⟨h1, h2, h3, h4⟩ := hp
  exact ⟨h1, by omega, h3, by omega⟩

theorem Addressable.write (hg : g.Addressable) (x y : Int) (c : Char) :
    (g.write x y c).Addressable where
  toWellFormed := hg.toWellFormed.write x y c
  width_lt := by
    rw [width_write]
    exact hg.width_lt
  height_lt := by
    rw [height_write]
    exact hg.height_lt

theorem addressable_ofSource {source : String} (hw : (ofSource source).width < 2 ^ 62)
    (hh : (ofSource source).height < 2 ^ 62) : (ofSource source).Addressable :=
  ⟨wellFormed_ofSource source, hw, hh⟩

end Playfield

/-! ## The pointer of a machine -/

namespace Machine

variable {ρ : Type} [RandomSource ρ] {m : Machine ρ}

theorem addressable_perform (hg : m.field.Addressable) (i : Instruction) :
    (m.perform i).machine.field.Addressable :=
  perform_keeps (fun _ x y c h => h.write x y c) hg i

theorem addressable_step (hg : m.field.Addressable) : m.step.machine.field.Addressable :=
  step_keeps (fun _ x y c h => h.write x y c) hg

theorem addressable_after (hg : m.field.Addressable) (n : Nat) :
    (m.after n).field.Addressable :=
  afterBy_invariant (P := fun s => s.field.Addressable) hg (fun _ hs => addressable_step hs) n

theorem nearby_perform (hg : m.field.Addressable) (hp : m.field.Nearby 0 m.position)
    (i : Instruction) : m.field.Nearby 1 (m.perform i).machine.position := by
  by_cases hi : i = .bridge
  · subst hi
    exact hg.nearby_advance hp (by omega) m.heading
  · rw [perform_position m hi]
    exact hp.mono (by omega)

theorem nearby_execute (hg : m.field.Addressable) (hp : m.field.Nearby 0 m.position) (c : Char) :
    m.field.Nearby 2 (m.execute c).machine.position := by
  unfold execute
  split
  · exact (hg.nearby_advance hp (by omega) m.heading).mono (by omega)
  · split
    · rename_i i _
      have h1 := nearby_perform hg hp i
      unfold Effect.advance
      split
      · exact hg.nearby_advance h1 (by omega) _
      · exact h1.mono (by omega)
    · exact hp.mono (by omega)

/-- After a cycle the pointer lies at most two cells outside the playfield. -/
theorem nearby_step (hg : m.field.Addressable) (hp : m.field.Nearby 2 m.position) :
    m.step.machine.field.Nearby 2 m.step.machine.position := by
  apply Playfield.Nearby.congr (g := m.field)
  · have h0 : m.settle.field.Nearby 0 m.settle.position := hg.nearby_settle m.position
    rcases m.step_cases with ⟨_, h⟩ | ⟨_, _, h⟩ | ⟨_, _, _, h⟩ | ⟨_, _, s, _, h⟩
    · rw [h]
      exact hp
    · rw [h]
      exact h0.mono (by omega)
    · rw [h]
      exact nearby_execute (m := m.settle) hg h0 _
    · rw [h]
      exact nearby_execute (m := m.settle) hg h0 _
  · exact m.step_width
  · exact m.step_height

theorem nearby_after (hg : m.field.Addressable) (hp : m.field.Nearby 2 m.position) (n : Nat) :
    (m.after n).field.Nearby 2 (m.after n).position := by
  induction n with
  | zero => exact hp
  | succ n ih => exact nearby_step (addressable_after hg n) ih

end Machine

end Befunge
