-- How far the pointer strays. A cycle brings it onto the playfield and then moves it along one
-- heading, by two cells across a bridge and by one cell otherwise. So it leaves the playfield over
-- one edge at a time and by two cells at most, and however long the program runs, its coordinates
-- stay within the words.
import Befunge.Proofs.Ending
import Befunge.Proofs.Replay

namespace Befunge

/-! ## Straight moves -/

/-- A heading leads along a row or along a column. -/
theorem Heading.delta_eq_zero (h : Heading) : h.delta.1.toInt = 0 ∨ h.delta.2.toInt = 0 := by
  cases h <;> decide

namespace Point

/-- The second place lies `k` cells from the first along a heading, and no coordinate has wrapped
around on the way. -/
structure Displaced (p q : Point) (h : Heading) (k : Int) : Prop where
  x_eq : q.x.toInt = p.x.toInt + k * h.delta.1.toInt
  y_eq : q.y.toInt = p.y.toInt + k * h.delta.2.toInt

variable {p q : Point} {h : Heading} {k : Int}

theorem displaced_self (p : Point) (h : Heading) : p.Displaced p h 0 := by
  constructor
  · rw [Int.zero_mul, Int.add_zero]
  · rw [Int.zero_mul, Int.add_zero]

theorem Displaced.advance (hpq : p.Displaced q h k) (hroom : q.HasRoom [h]) :
    p.Displaced (q.advance h) h (k + 1) := by
  obtain ⟨⟨⟨hx0, hx1⟩, hy0, hy1⟩, _⟩ := hroom
  constructor
  · unfold Point.advance
    rw [toInt_add_of_range hx0 hx1, hpq.x_eq, Int.add_mul, Int.one_mul, Int.add_assoc]
  · unfold Point.advance
    rw [toInt_add_of_range hy0 hy1, hpq.y_eq, Int.add_mul, Int.one_mul, Int.add_assoc]

/-- Moves along one heading add up, if there is room for them. -/
theorem Displaced.travel (hpq : p.Displaced q h k) {n : Nat}
    (hroom : q.HasRoom (List.replicate n h)) :
    p.Displaced (q.travel (List.replicate n h)) h (k + n) := by
  induction n generalizing q k with
  | zero =>
    rw [Int.natCast_zero, Int.add_zero]
    exact hpq
  | succ n ih =>
    have hnext := ih (hpq.advance ⟨hroom.1, trivial⟩) hroom.2
    rw [Int.add_assoc, Int.add_comm 1] at hnext
    exact hnext

end Point

/-! ## Places just outside -/

namespace Playfield

/-- A place on the playfield, or beyond one of its edges by two cells at most. -/
structure OverOneEdge (g : Playfield) (p : Point) : Prop where
  nearby : g.Nearby 2 p
  inside : (0 ≤ p.x.toInt ∧ p.x.toInt < g.width) ∨ (0 ≤ p.y.toInt ∧ p.y.toInt < g.height)

variable {g g' : Playfield} {p q : Point}

theorem Nearby.overOneEdge (hp : g.Nearby 0 p) : g.OverOneEdge p where
  nearby := hp.mono (by omega)
  inside := by
    obtain ⟨h1, h2, h3, h4⟩ := hp
    omega

theorem OverOneEdge.congr (hp : g.OverOneEdge p) (hw : g'.width = g.width)
    (hh : g'.height = g.height) : g'.OverOneEdge p where
  nearby := hp.nearby.congr hw hh
  inside := by
    rw [hw, hh]
    exact hp.inside

/-- A straight move of one or two cells leads over one edge only, as the other coordinate stays. -/
theorem Nearby.overOneEdge_of_displaced (hp : g.Nearby 0 p) {h : Heading} {k : Nat}
    (hpq : p.Displaced q h k) (hk : k = 1 ∨ k = 2) : g.OverOneEdge q := by
  have haxis := h.delta_eq_zero
  obtain ⟨d1, d2, d3, d4⟩ := h.delta_range
  obtain ⟨h1, h2, h3, h4⟩ := hp
  obtain ⟨hx, hy⟩ := hpq
  rcases hk with rfl | rfl
  · exact ⟨⟨by omega, by omega, by omega, by omega⟩, by omega⟩
  · exact ⟨⟨by omega, by omega, by omega, by omega⟩, by omega⟩

end Playfield

namespace Machine

variable {ρ : Type} {m : Machine ρ} {c : Char}

/-! ## Where the pointer of a run may be -/

/-- The invariant of a run: the pointer is on the playfield or has left it over one edge, and once
the program has halted it is on the playfield. -/
structure Tethered (m : Machine ρ) : Prop where
  addressable : m.field.Addressable
  place : m.field.OverOneEdge m.position
  halted : m.status = .halted → m.field.Nearby 0 m.position

theorem tethered_load (m : Machine ρ) {source : String}
    (hw : (Playfield.ofSource source).width < 2 ^ 62)
    (hh : (Playfield.ofSource source).height < 2 ^ 62) : (m.load source).Tethered := by
  have hg : (m.load source).field.Addressable := Playfield.addressable_ofSource hw hh
  have hplace := hg.nearby_origin
  exact ⟨hg, hplace.overOneEdge, fun _ => hplace⟩

/-! ## One cycle -/

/-- The number of cells by which a character moves the pointer if it succeeds: two for a bridge
outside of string mode, and else one. -/
def stride (m : Machine ρ) (c : Char) : Nat := if c = '#' ∧ m.stringMode = false then 2 else 1

theorem stride_eq (m : Machine ρ) (c : Char) : m.stride c = 1 ∨ m.stride c = 2 := by
  unfold stride
  split
  · exact Or.inr rfl
  · exact Or.inl rfl

theorem means?_eq_bridge_iff : m.means? c = some .bridge ↔ c = '#' ∧ m.stringMode = false := by
  unfold means?
  constructor
  · intro h
    split at h
    · cases h
    · rename_i hmode
      obtain rfl : c = '#' := Instruction.eq_cell_of_ofChar? h
      refine ⟨rfl, ?_⟩
      rw [← Bool.not_eq_true]
      intro hon
      exact hmode ⟨hon, by decide⟩
  · rintro ⟨rfl, hmode⟩
    rw [if_neg (by simp [hmode])]
    rfl

variable [RandomSource ρ]

/-- The moves of a character that succeeds all go along the heading that it leaves. -/
theorem moves_of_stop_eq_none (h : (m.execute c).stop = none) :
    m.moves c = List.replicate (m.stride c) (m.execute c).machine.heading := by
  unfold moves stride
  simp only [h, means?_eq_bridge_iff]
  split
  · -- A bridge keeps the heading, so the move of its own goes the same way as the one after it.
    rename_i hbridge
    obtain ⟨rfl, hmode⟩ := hbridge
    rw [execute_of_instruction hmode (i := .bridge) rfl]
    rfl
  · rfl

/-- A cycle that leaves the machine running has moved the pointer from its place on the playfield
along the heading that it leaves. -/
theorem displaced_step (hg : m.field.Addressable) (hturn : m.step.turn = .running) :
    (m.field.settle m.position).Displaced m.step.machine.position m.step.machine.heading
      (m.stride m.settle.cell) := by
  obtain ⟨_, _, hstop, h⟩ := step_of_turn_running hturn
  have hroom := (cycleHasRoom_of_addressable hg).2.2
  have hmoves := moves_of_stop_eq_none hstop
  unfold HasRoom at hroom
  rw [hmoves] at hroom
  have hplace := (Point.displaced_self _ _).travel hroom
  rw [← hmoves, ← execute_position, Int.zero_add] at hplace
  rw [h]
  exact hplace

/-- A cycle that halts or stops the machine leaves the pointer on the playfield. -/
theorem Tethered.nearby_of_ne (hm : m.Tethered) (hturn : m.step.turn ≠ .running) :
    m.field.Nearby 0 m.step.machine.position := by
  have hplace := hm.addressable.nearby_settle m.position
  rcases m.step_cases with ⟨hs, h⟩ | ⟨_, _, h⟩ | ⟨_, _, _, h⟩ | ⟨_, _, s, hstop, h⟩
  · rw [h]
    exact hm.halted hs
  · rw [h]
    exact hplace
  · rw [h] at hturn
    exact absurd rfl hturn
  · -- The fetch has brought the pointer onto the playfield, and what fails does not move it.
    have hne : (m.settle.execute m.settle.cell).stop ≠ none := by simp [hstop]
    obtain ⟨n, hdrop⟩ := execute_of_stop hne
    rw [congrArg Progress.machine h, hdrop]
    exact hplace

theorem Tethered.step (hm : m.Tethered) : m.step.machine.Tethered := by
  have hnext := addressable_step hm.addressable
  by_cases hturn : m.step.turn = .running
  · have hplace := (hm.addressable.nearby_settle m.position).overOneEdge_of_displaced
      (displaced_step hm.addressable hturn) (m.stride_eq m.settle.cell)
    refine ⟨hnext, hplace.congr m.step_width m.step_height, ?_⟩
    intro hhalted
    rw [(executed_of_running hturn).status_eq] at hhalted
    cases hhalted
  · have hplace := (hm.nearby_of_ne hturn).congr m.step_width m.step_height
    exact ⟨hnext, hplace.overOneEdge, fun _ => hplace⟩

/-! ## The whole run -/

theorem Tethered.after (hm : m.Tethered) (n : Nat) : (m.after n).Tethered :=
  afterBy_invariant hm (fun _ hs => hs.step) n

/-- On a playfield whose sizes are far from the largest word, the pointer of a program is always on
the playfield, or beyond one of its edges by two cells at most. A cycle that halts or fails leaves
it on the playfield. Every other cycle leads it from its place on the playfield along the heading
that is then taken, by two cells across a bridge and by one cell otherwise. No coordinate wraps
around on the way, after however many cycles. -/
theorem the_pointer_strays_two_cells_at_most (m : Machine ρ) {source : String}
    (hw : (Playfield.ofSource source).width < 2 ^ 62)
    (hh : (Playfield.ofSource source).height < 2 ^ 62) (n : Nat) :
    let g := Playfield.ofSource source
    let s := (m.load source).after n
    g.OverOneEdge s.position ∧
      (s.step.turn ≠ .running → g.Nearby 0 s.step.machine.position) ∧
      (s.step.turn = .running →
        (g.settle s.position).Displaced s.step.machine.position s.step.machine.heading
          (s.stride s.settle.cell)) ∧
      s.CycleHasRoom := by
  intro g s
  have hs : s.Tethered := (tethered_load m hw hh).after n
  have hwidth : g.width = s.field.width := (after_width (m.load source) n).symm
  have hheight : g.height = s.field.height := (after_height (m.load source) n).symm
  refine ⟨?_, ?_, ?_, ?_⟩
  · exact hs.place.congr hwidth hheight
  · intro hturn
    exact (hs.nearby_of_ne hturn).congr hwidth hheight
  · intro hturn
    rw [Playfield.settle_congr hwidth hheight]
    exact displaced_step hs.addressable hturn
  · exact cycleHasRoom_of_addressable hs.addressable

/-- A bridge at the left edge leads two cells out to the left, again and again. -/
theorem a_bridge_at_the_left_edge_leads_two_cells_out :
    let g := Playfield.ofSource ">v\n#<"
    let s := ((Machine.fresh (⟨0, 1⟩ : Progression)).load ">v\n#<").after 4
    (s.position = ⟨-2, 1⟩ ∧ s.step.machine.heading = .left ∧ s.stride s.settle.cell = 2) ∧
      g.OverOneEdge s.position ∧
      s.step.turn = .running ∧
      (g.settle s.position).Displaced s.step.machine.position s.step.machine.heading
        (s.stride s.settle.cell) ∧
      s.CycleHasRoom := by
  have hw : (Playfield.ofSource ">v\n#<").width < 2 ^ 62 := by decide
  have hh : (Playfield.ofSource ">v\n#<").height < 2 ^ 62 := by decide
  obtain ⟨hplace, _, hmove, hroom⟩ := the_pointer_strays_two_cells_at_most
    (Machine.fresh (⟨0, 1⟩ : Progression)) hw hh 4
  exact ⟨by decide, hplace, by decide, hmove (by decide), hroom⟩

end Machine

end Befunge
