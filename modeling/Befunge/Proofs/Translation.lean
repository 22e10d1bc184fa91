-- Translation. The playfield is a torus, and no cell of it is special but to `p` and `g`, which
-- count from its first cell. So a program that executes neither runs the same wherever it is
-- laid out and wherever its pointer crosses an edge.
import Befunge.Proofs.Elsewhere
import Befunge.Random.Progression

namespace Befunge

/-! ## Coordinates modulo the size -/

namespace Playfield

variable {g g' : Playfield} {p q : Point} {dx dy : Int}

theorem place_congr {x y x' y' : Int} (hx : x ≡ x' [ZMOD g.width])
    (hy : y ≡ y' [ZMOD g.height]) : g.place x y = g.place x' y' := by
  unfold place
  rw [Torus.wrap_congr hx, Torus.wrap_congr hy]

theorem read?_congr {x y x' y' : Int} (hx : x ≡ x' [ZMOD g.width])
    (hy : y ≡ y' [ZMOD g.height]) : g.read? x y = g.read? x' y' := by
  unfold read? locate? Torus.wrap?
  rw [Torus.wrap_congr hx, Torus.wrap_congr hy]

theorem Offset.settle_eq (h : g.Offset dx dy p q) :
    g.settle q = g.place (p.x.toInt + dx) (p.y.toInt + dy) :=
  place_congr h.x_modEq h.y_modEq

theorem Addressable.place_x_modEq (hg : g.Addressable) (x y : Int) :
    (g.place x y).x.toInt ≡ x [ZMOD g.width] := by
  rw [hg.toInt_place_x, Torus.coe_wrap x hg.width_pos]
  exact Int.mod_modEq x g.width

theorem Addressable.place_y_modEq (hg : g.Addressable) (x y : Int) :
    (g.place x y).y.toInt ≡ y [ZMOD g.height] := by
  rw [hg.toInt_place_y, Torus.coe_wrap y hg.height_pos]
  exact Int.mod_modEq y g.height

theorem Addressable.offset_place (hg : g.Addressable) (p : Point) (dx dy : Int) :
    g.Offset dx dy p (g.place (p.x.toInt + dx) (p.y.toInt + dy)) where
  x_modEq := hg.place_x_modEq _ _
  y_modEq := hg.place_y_modEq _ _

theorem Addressable.place_settle (hg : g.Addressable) (p : Point) (dx dy : Int) :
    g.place ((g.settle p).x.toInt + dx) ((g.settle p).y.toInt + dy) =
      g.place (p.x.toInt + dx) (p.y.toInt + dy) :=
  place_congr ((hg.place_x_modEq _ _).add_right dx) ((hg.place_y_modEq _ _).add_right dy)

/-- Bringing both places onto the playfield does not change how they lie. -/
theorem Offset.settle (hg : g.Addressable) (h : g.Offset dx dy p q) :
    g.Offset dx dy (g.settle p) (g.settle q) := by
  rw [h.settle_eq, ← hg.place_settle]
  exact hg.offset_place (g.settle p) dx dy

/-! ## Playfields and machines moved -/

/-- The second playfield is the first one moved by `dx` columns and `dy` rows: every cell is
found that much further on. -/
structure ShiftedBy (dx dy : Int) (g g' : Playfield) : Prop where
  width_eq : g'.width = g.width
  height_eq : g'.height = g.height
  read?_eq : ∀ x y, g'.read? (x + dx) (y + dy) = g.read? x y

/-- A playfield with every cell moved by `dx` columns and `dy` rows. -/
def shift (g : Playfield) (dx dy : Int) : Playfield where
  cells := Array.ofFn fun i : Fin g.height =>
    Array.ofFn fun j : Fin g.width => g.read (j - dx) (i - dy)
  width := g.width

theorem shift_eq_tabulate (g : Playfield) (dx dy : Int) :
    g.shift dx dy = tabulate g.height g.width fun i j => g.read (j - dx) (i - dy) := rfl

theorem WellFormed.shiftedBy_shift (hg : g.WellFormed) (dx dy : Int) :
    g.ShiftedBy dx dy (g.shift dx dy) where
  width_eq := rfl
  height_eq := by rw [shift_eq_tabulate, height_tabulate]
  read?_eq := by
    intro x y
    -- The coordinates of a cell are wrapped before they are moved back.
    have hback : ∀ (c e : Int) {d : Nat}, 0 < d →
        (Torus.wrap (c + e) d : Int) - e ≡ c [ZMOD d] := by
      intro c e d hd
      have hsub := (Int.mod_modEq (c + e) d).sub_right e
      rwa [Int.add_sub_cancel, ← Torus.coe_wrap (c + e) hd] at hsub
    rw [shift_eq_tabulate, read?_tabulate hg.height_pos hg.width_pos, ← Playfield.read?_eq hg]
    exact read?_congr (hback x dx hg.width_pos) (hback y dy hg.height_pos)

/-- At places that lie as far apart as the playfields do, the same cell is read. -/
theorem ShiftedBy.read_eq (h : g.ShiftedBy dx dy g') (hpq : g.Offset dx dy p q) :
    g'.read q.x.toInt q.y.toInt = g.read p.x.toInt p.y.toInt := by
  obtain ⟨hx, hy⟩ := hpq.congr h.width_eq h.height_eq
  unfold read
  rw [read?_congr hx hy, h.read?_eq]

end Playfield

/-- The same reason to stop on a playfield that is moved: the place of an unknown instruction is
moved with it. -/
def Stop.shift (g : Playfield) (dx dy : Int) : Stop → Stop
  | .fault (.unknownInstruction c p) =>
    .fault (.unknownInstruction c (g.place (p.x.toInt + dx) (p.y.toInt + dy)))
  | s => s

/-- What a cycle comes to on a playfield that is moved. -/
def Turn.shift (g : Playfield) (dx dy : Int) : Turn → Turn
  | .stopped s => .stopped (s.shift g dx dy)
  | t => t

theorem Stop.at_at (s : Stop) (p q : Point) : (s.at p).at q = s.at q := by
  rcases s with (_ | _) | _ <;> rfl

theorem Stop.shift_at (g : Playfield) (dx dy : Int) (s : Stop) (p : Point) :
    (s.at p).shift g dx dy = s.at (g.place (p.x.toInt + dx) (p.y.toInt + dy)) := by
  rcases s with (_ | _) | _ <;> rfl

namespace Machine

variable {ρ : Type}

/-- The second machine is the first one moved by `dx` columns and `dy` rows: its playfield and
its pointer are, and all else is the same. -/
structure ShiftedBy (dx dy : Int) (m m' : Machine ρ) : Prop where
  same : m' = { m with field := m'.field, position := m'.position }
  field : m.field.ShiftedBy dx dy m'.field
  place : m.field.Offset dx dy m.position m'.position

variable {m m' : Machine ρ} {dx dy : Int}

theorem ShiftedBy.settle_position (h : m.ShiftedBy dx dy m') :
    m'.settle.position = m.field.settle m'.position :=
  congrFun (Playfield.settle_congr h.field.width_eq h.field.height_eq) m'.position

/-- Bringing both pointers onto their playfields keeps a machine moved. -/
theorem ShiftedBy.settle (h : m.ShiftedBy dx dy m') (hg : m.field.Addressable) :
    m.settle.ShiftedBy dx dy m'.settle where
  same := congrArg Machine.settle h.same
  field := h.field
  place := by
    rw [h.settle_position]
    exact h.place.settle hg

theorem ShiftedBy.status (h : m.ShiftedBy dx dy m') : m'.status = m.status := by
  rw [h.same]

theorem ShiftedBy.cell (h : m.ShiftedBy dx dy m') : m'.cell = m.cell := h.field.read_eq h.place

/-- A machine with its playfield and its pointer moved by `dx` columns and `dy` rows. -/
def shift (m : Machine ρ) (dx dy : Int) : Machine ρ :=
  { m with
    field := m.field.shift dx dy
    position := m.field.place (m.position.x.toInt + dx) (m.position.y.toInt + dy) }

/-- A machine can be moved anywhere. -/
theorem shiftedBy_shift (hg : m.field.Addressable) (dx dy : Int) :
    m.ShiftedBy dx dy (m.shift dx dy) where
  same := rfl
  field := hg.toWellFormed.shiftedBy_shift dx dy
  place := hg.offset_place m.position dx dy

variable [RandomSource ρ]

/-! ## The same cell elsewhere -/

/-- A character that neither puts nor gets does the same on every playfield and at every place,
and makes the same moves from there. -/
theorem execute_moved (m : Machine ρ) {c : Char} (hput : m.means? c ≠ some .put)
    (hget : m.means? c ≠ some .get) (g : Playfield) (p : Point) :
    ((m.elsewhere p m.steps).on g).execute c =
      ⟨((m.execute c).machine.elsewhere (p.travel (m.moves c)) m.steps).on g,
        (m.execute c).stop.map (·.at p)⟩ := by
  have hon := execute_on (m.elsewhere p m.steps) (g := g) (c := c) (fun h => absurd h hget)
  rw [execute_elsewhere] at hon
  have hputs := (m.elsewhere p m.steps).puts_of_ne (i := (m.elsewhere p m.steps).means? c) hput g
  rw [hon, hputs]

theorem execute_field_of_ne (m : Machine ρ) {c : Char} (hput : m.means? c ≠ some .put) :
    (m.execute c).machine.field = m.field := by
  rw [execute_puts, puts_of_ne m hput]

/-- Executing the same character on a machine that is moved leaves it moved, and fails for the
same reason, an unknown instruction being told of the place that is moved too. -/
theorem ShiftedBy.execute (h : m.ShiftedBy dx dy m')
    (hplace : m'.position = m.field.place (m.position.x.toInt + dx) (m.position.y.toInt + dy))
    {c : Char} (hput : m.means? c ≠ some .put) (hget : m.means? c ≠ some .get)
    (hp : m.position.HasRoom (m.moves c)) (hq : m'.position.HasRoom (m.moves c)) :
    (m.execute c).machine.ShiftedBy dx dy (m'.execute c).machine ∧
      (m'.execute c).stop = (m.execute c).stop.map (·.shift m.field dx dy) := by
  obtain ⟨hsame, hfield, hoffset⟩ := h
  -- The second machine is the first one at another place and on another playfield, and nothing
  -- but the two matters of it.
  have hm' : m' = (m.elsewhere m'.position m.steps).on m'.field := hsame
  generalize m'.position = q at hm' hplace hoffset hq
  generalize m'.field = g' at hm' hfield
  subst hm'
  have hkeep := m.execute_field_of_ne hput
  have htravel := hoffset.travel hp hq
  rw [← execute_position] at htravel
  rw [m.execute_moved hput hget]
  refine ⟨⟨?_, ?_, ?_⟩, ?_⟩
  · rw [← m.execute_steps c]
    rfl
  · rw [hkeep]
    exact hfield
  · rw [hkeep]
    exact htravel
  · rw [← m.execute_stop_at c, Option.map_map, Option.map_map]
    simp only [Function.comp_def, Stop.shift_at, hplace, Stop.at_at]

/-! ## The same cycle elsewhere -/

/-- A cycle of a machine that is moved, with the pointers brought onto the playfields before. -/
theorem ShiftedBy.visit (h : m.ShiftedBy dx dy m')
    (hplace : m'.position = m.field.place (m.position.x.toInt + dx) (m.position.y.toInt + dy))
    (hput : m.means? m.cell ≠ some .put) (hget : m.means? m.cell ≠ some .get)
    (hp : m.position.HasRoom (m.moves m.cell)) (hq : m'.position.HasRoom (m.moves m.cell)) :
    m'.visit.turn = m.visit.turn.shift m.field dx dy ∧
      m.visit.machine.ShiftedBy dx dy m'.visit.machine := by
  obtain ⟨hmachine, hstop⟩ := h.execute hplace hput hget hp hq
  unfold Machine.visit
  rw [h.cell]
  by_cases hc : m.cell = haltCell
  · rw [if_pos hc, if_pos hc]
    refine ⟨rfl, ?_, h.field, h.place⟩
    exact congrArg (fun s : Machine ρ => { s with status := .halted }) h.same
  · rw [if_neg hc, if_neg hc]
    simp only [hstop]
    rcases (m.execute m.cell).stop with _ | ((_ | _) | _)
    · exact ⟨rfl, congrArg count hmachine.same, hmachine.field, hmachine.place⟩
    · exact ⟨rfl, hmachine⟩
    · exact ⟨rfl, hmachine⟩
    · exact ⟨rfl, hmachine⟩

/-- A cycle that executes neither `p` nor `g` keeps a machine moved, and comes to the same. -/
theorem ShiftedBy.step (h : m.ShiftedBy dx dy m') (hg : m.field.Addressable)
    (hput : m.instruction? ≠ some .put) (hget : m.instruction? ≠ some .get) :
    m'.step.turn = m.step.turn.shift m.field dx dy ∧
      m.step.machine.ShiftedBy dx dy m'.step.machine := by
  cases hs : m.status with
  | halted =>
    rw [step_of_halted hs, step_of_halted (h.status.trans hs)]
    exact ⟨rfl, h⟩
  | running =>
    rw [instruction?_of_running hs] at hput hget
    rw [step_of_running hs, step_of_running (h.status.trans hs)]
    have hlength := m.settle.length_moves_le m.settle.cell
    apply (h.settle hg).visit _ hput hget
    · exact hg.hasRoom (hg.nearby_settle m.position) (by omega)
    · rw [h.settle_position]
      exact hg.hasRoom (hg.nearby_settle m'.position) (by omega)
    · rw [h.settle_position, h.place.settle_eq]
      exact (hg.place_settle m.position dx dy).symm

/-! ## The same run elsewhere -/

/-- Let a machine be another one moved by any number of columns and rows, on a playfield whose
sizes are far from the largest word. For as long as the first executes neither `p` nor `g`, the
second comes to the same in every cycle, an unknown instruction being found at the place that is
moved too, and it is still the first one moved after every cycle. -/
theorem the_torus_has_no_distinguished_cell (hg : m.field.Addressable)
    (h : m.ShiftedBy dx dy m') (n : Nat)
    (hno : ∀ k < n, (m.after k).instruction? ≠ some .put ∧ (m.after k).instruction? ≠ some .get) :
    (∀ k < n, (m'.after k).step.turn = (m.after k).step.turn.shift (m.after k).field dx dy) ∧
      ∀ k ≤ n, (m.after k).ShiftedBy dx dy (m'.after k) := by
  have hrun : ∀ k ≤ n, (m.after k).ShiftedBy dx dy (m'.after k) := by
    intro k
    induction k with
    | zero =>
      intro _
      exact h
    | succ k ih =>
      intro hk
      obtain ⟨hput, hget⟩ := hno k hk
      obtain ⟨_, hnext⟩ := (ih (by omega)).step (addressable_after hg k) hput hget
      exact hnext
  refine ⟨?_, hrun⟩
  intro k hk
  obtain ⟨hput, hget⟩ := hno k hk
  exact ((hrun k (by omega)).step (addressable_after hg k) hput hget).1

/-- A program that stays within its four cells. Moved by one column and one row it crosses three
edges, and its unknown instruction is in the upper row. -/
theorem a_program_moved_across_three_edges :
    let m := (Machine.fresh (⟨0, 1⟩ : Progression)).load ">v\nx<"
    let m' := m.shift 1 1
    (m'.field.rows = ["<x", "v>"] ∧
        (m.after 3).step.turn = .stopped (.fault (.unknownInstruction 'x' ⟨0, 1⟩)) ∧
        (m'.after 3).step.turn = .stopped (.fault (.unknownInstruction 'x' ⟨1, 0⟩))) ∧
      (∀ k < 4, (m'.after k).step.turn = (m.after k).step.turn.shift (m.after k).field 1 1) ∧
      ∀ k ≤ 4, (m.after k).ShiftedBy 1 1 (m'.after k) := by
  intro m m'
  have hg : m.field.Addressable := Playfield.addressable_ofSource (by decide) (by decide)
  have hno : ∀ k < 4, (m.after k).instruction? ≠ some .put ∧
      (m.after k).instruction? ≠ some .get := by
    decide
  refine ⟨by decide, ?_⟩
  exact the_torus_has_no_distinguished_cell hg (shiftedBy_shift hg 1 1) 4 hno

end Machine

end Befunge
