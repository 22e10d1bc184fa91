-- Runs that are followed from one known machine to the next. Two machines whose pointers are
-- brought onto the same cell go on alike, so a stretch of a run is described by the machine at
-- its end up to that. Stretches are joined, and the last one ends at the halting cell.
import Befunge.Proofs.StringMode

namespace Befunge

/-! ## Cells along a line -/

namespace Playfield

variable {g : Playfield}

/-- Bringing a place onto the playfield does not change the cell that it means. -/
theorem read_place (hg : g.Addressable) (x y : Int) :
    g.read (g.place x y).x.toInt (g.place x y).y.toInt = g.read x y := by
  have hx := Torus.wrap_wrap_add x 0 hg.width_pos
  have hy := Torus.wrap_wrap_add y 0 hg.height_pos
  rw [Int.add_zero, Int.add_zero] at hx hy
  unfold read read?
  rw [hg.toWellFormed.locate?_eq, hg.toWellFormed.locate?_eq, hg.toInt_place_x, hg.toInt_place_y,
    hx, hy]

/-- The cells ahead of a place on a line are on that line. -/
theorem ahead_ahead (hg : g.Addressable) (p : Point) (h : Heading) (i k : Int) :
    g.ahead (g.ahead p h i) h k = g.ahead p h (i + k) := by
  have hring : ∀ (c s : Int) {d : Nat}, 0 < d →
      Torus.wrap (Torus.wrap (c + i * s) d + k * s) d = Torus.wrap (c + (i + k) * s) d := by
    intro c s d hd
    rw [Torus.wrap_wrap_add _ _ hd, Int.add_mul, Int.add_assoc]
  unfold ahead
  rw [hg.toInt_place_x, hg.toInt_place_y]
  unfold place
  rw [hring _ _ hg.width_pos, hring _ _ hg.height_pos]

end Playfield

namespace Machine

variable {ρ : Type} {m : Machine ρ}

theorem cellAhead_eq (hg : m.field.Addressable) (i : Int) :
    m.cellAhead i =
      m.field.read (m.position.x.toInt + i * m.heading.delta.1.toInt)
        (m.position.y.toInt + i * m.heading.delta.2.toInt) :=
  Playfield.read_place hg _ _

/-- The cells ahead spell a text, the one under the pointer first. -/
def Spells (m : Machine ρ) (text : List Char) : Prop :=
  ∀ (i : Nat) (c : Char), text[i]? = some c → m.cellAhead i = c

/-- The machine `k` cells further along its line, with those cells counted and another stack. -/
def onward (m : Machine ρ) (k : Nat) (stack : Stack) : Machine ρ :=
  { m with position := m.placeAhead k, stack := stack, steps := m.steps + UInt64.ofNat k }

theorem Spells.cell {c : Char} {text : List Char} (h : m.Spells (c :: text)) :
    m.settle.cell = c := by
  rw [settle_cell]
  exact h 0 c rfl

theorem Spells.left {text text' : List Char} (h : m.Spells (text ++ text')) : m.Spells text := by
  intro i c hi
  have hlt := (List.getElem?_eq_some_iff.1 hi).1
  exact h i c (by rw [List.getElem?_append_left hlt, hi])

theorem onward_placeAhead (hg : m.field.Addressable) (k : Nat) (stack : Stack) (i : Int) :
    (m.onward k stack).placeAhead i = m.placeAhead (k + i) :=
  Playfield.ahead_ahead hg m.position m.heading k i

theorem Spells.right {text text' : List Char} (h : m.Spells (text ++ text'))
    (hg : m.field.Addressable) (stack : Stack) : (m.onward text.length stack).Spells text' := by
  intro i c hi
  have hcell := h (text.length + i) c (by
    rw [List.getElem?_append_right (by omega), Nat.add_sub_cancel_left, hi])
  rw [← hcell]
  unfold cellAhead
  rw [onward_placeAhead hg, Int.natCast_add]
  rfl

theorem settle_onward (hg : m.field.Addressable) (k : Nat) (stack : Stack) :
    (m.onward k stack).settle = m.onward k stack := by
  have hplace : (m.onward k stack).settle.position = m.placeAhead k := by
    rw [settle_position, onward_placeAhead hg, Int.add_zero]
  exact congrArg (fun p => { m.onward k stack with position := p }) hplace

theorem onward_onward (hg : m.field.Addressable) (k l : Nat) (stack stack' : Stack) :
    (m.onward k stack).onward l stack' = m.onward (k + l) stack' := by
  have hplace : (m.onward k stack).placeAhead l = m.placeAhead (k + l : Nat) := by
    rw [onward_placeAhead hg, Int.natCast_add]
  have hsteps : m.steps + UInt64.ofNat k + UInt64.ofNat l = m.steps + UInt64.ofNat (k + l) := by
    rw [UInt64.ofNat_add, UInt64.add_assoc]
  unfold onward
  simp only [onward] at hplace
  rw [hplace, ← hsteps]

/-! ## Stretches of a run -/

variable [RandomSource ρ] {m' m'' : Machine ρ}

/-- In `k` cycles, running all the while, the machine comes to where another one goes on: the two
are the same once their pointers are brought onto the playfield. -/
structure Reaches (m : Machine ρ) (k : Nat) (m' : Machine ρ) : Prop where
  running : (m.runFor k).turn = .running
  settle_eq : (m.runFor k).machine.settle = m'.settle

/-- Machines whose pointers are brought onto the same cell go on alike. -/
theorem runFor_of_settle_eq (h : m.settle = m'.settle) (n : Nat) :
    (m.runFor n).turn = (m'.runFor n).turn ∧
      (m.runFor n).machine.settle = (m'.runFor n).machine.settle := by
  cases n with
  | zero => exact ⟨rfl, h⟩
  | succ n =>
    have hstatus : m.settle.status = m'.settle.status := congrArg Machine.status h
    cases hs : m.status with
    | running =>
      have hs' : m'.status = .running := hstatus.symm.trans hs
      have hstep : m.step = m'.step := by
        rw [step_of_running hs, step_of_running hs', h]
      have hrun : m.runFor (n + 1) = m'.runFor (n + 1) := by
        unfold runFor
        rw [hstep]
      rw [hrun]
      exact ⟨rfl, rfl⟩
    | halted =>
      have hs' : m'.status = .halted := hstatus.symm.trans hs
      have hne : m.step.turn ≠ .running := by simp [step_of_halted hs]
      have hne' : m'.step.turn ≠ .running := by simp [step_of_halted hs']
      rw [runFor_succ_of_ne hne, runFor_succ_of_ne hne', step_of_halted hs, step_of_halted hs']
      exact ⟨rfl, h⟩

theorem reaches_of_settle_eq (h : m.settle = m'.settle) : m.Reaches 0 m' := ⟨rfl, h⟩

theorem Reaches.trans {k l : Nat} (h : m.Reaches k m') (h' : m'.Reaches l m'') :
    m.Reaches (k + l) m'' := by
  obtain ⟨hturn, hsettle⟩ := runFor_of_settle_eq h.settle_eq l
  constructor
  · rw [runFor_add_of_running h.running, hturn]
    exact h'.running
  · rw [runFor_add_of_running h.running, hsettle]
    exact h'.settle_eq

theorem reaches_of_step (h : m.step.toProgress = ⟨m', .running⟩) : m.Reaches 1 m' := by
  have hrun : m.runFor 1 = ⟨m', .running⟩ := by
    rw [runFor_succ_of_running (congrArg Progress.turn h)]
    exact congrArg (fun p : Progress ρ => (⟨p.machine, .running⟩ : Progress ρ)) h
  exact ⟨congrArg Progress.turn hrun, congrArg (fun p : Progress ρ => p.machine.settle) hrun⟩

/-- A run that reaches a machine whose pointer is on the halting cell ends there. -/
theorem Reaches.halts {k : Nat} (h : m.Reaches k m') (hs : m'.status = .running)
    (hc : m'.settle.cell = haltCell) {limit : Nat} (hlimit : k < limit) :
    m.runWithin limit = some ⟨{ m'.settle with status := .halted }, none⟩ := by
  obtain ⟨hrun, hsettle⟩ := h
  have hs' : (m.runFor k).machine.status = .running :=
    (congrArg Machine.status hsettle).trans hs
  have hhalt := step_of_halt hs' (by rw [hsettle, hc])
  have hne : (m.runFor k).machine.step.turn ≠ .running := by
    rw [congrArg Progress.turn hhalt]
    simp
  obtain ⟨n, rfl⟩ := Nat.exists_eq_add_of_lt hlimit
  rw [Nat.add_assoc]
  unfold runWithin
  rw [runFor_add_of_running hrun, runFor_succ_of_ne hne, hhalt, hsettle]
  rfl

/-! ## One instruction -/

theorem reaches_of_instruction {i : Instruction} (hs : m.status = .running)
    (hoff : m.stringMode = false) (hi : Instruction.ofChar? m.settle.cell = some i)
    (hp : m.settle.perform i = .done m') : m.Reaches 1 m'.advance.count :=
  reaches_of_step (step_of_instruction hs hoff hi hp)

/-- An instruction that works on the stack alone leads one cell further along the line. -/
theorem reaches_onward {c : Char} {i : Instruction} {f : Stack → Stack}
    (hg : m.field.Addressable) (hs : m.status = .running) (hoff : m.stringMode = false)
    (hc : m.Spells [c]) (hi : Instruction.ofChar? c = some i)
    (hp : ∀ s : Machine ρ, s.perform i = .done { s with stack := f s.stack }) :
    m.Reaches 1 (m.onward 1 (f m.stack)) := by
  rw [← hc.cell] at hi
  have hreach := reaches_of_instruction hs hoff hi (hp m.settle)
  refine ⟨hreach.running, hreach.settle_eq.trans ?_⟩
  have hplace : m.field.settle (m.settle.position.advance m.heading) = m.placeAhead 1 := by
    rw [settle_position, ← Playfield.ahead_zero m.field _ m.heading]
    exact Playfield.ahead_advance hg m.position m.heading 0 0
  rw [settle_onward hg]
  exact congrArg (fun p => { m with position := p, stack := f m.stack, steps := m.steps + 1 })
    hplace

end Machine

end Befunge
