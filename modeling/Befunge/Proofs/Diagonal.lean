-- The diagonal. What a program does along a row it does along a column too: with columns and rows
-- exchanged, and every arrow and every branch turned with them, a program goes the same way with
-- columns and rows exchanged. It can tell only where it takes characters or coordinates for
-- numbers, or where the heading is left to chance.
import Befunge.Proofs.Translation

namespace Befunge

/-! ## Columns and rows exchanged -/

/-- The heading that leads along a column as this one does along a row, and the other way round. -/
def Heading.mirror : Heading → Heading
  | .right => .down
  | .down => .right
  | .left => .up
  | .up => .left

/-- The place with its column and its row exchanged. -/
def Point.mirror (p : Point) : Point := ⟨p.y, p.x⟩

/-- The character that a mirror shows: arrows and branches are turned, and all others stay. -/
def mirrorCell : Char → Char
  | '>' => 'v'
  | 'v' => '>'
  | '<' => '^'
  | '^' => '<'
  | '_' => '|'
  | '|' => '_'
  | c => c

/-- The instruction that a mirror shows. -/
def Instruction.mirror : Instruction → Instruction
  | .turn h => .turn h.mirror
  | .branchAcross => .branchAlong
  | .branchAlong => .branchAcross
  | i => i

/-- The instructions that can tell a program from its mirror: they take characters or coordinates
for numbers, or leave the heading to chance. -/
def Instruction.telling : List Instruction := [.quote, .put, .get, .turnRandomly]

/-- The same fault in a mirror: the place of an unknown instruction has its column and its row
exchanged. -/
def Fault.mirror : Fault → Fault
  | .unknownInstruction c p => .unknownInstruction c p.mirror
  | f => f

/-- The same reason to stop in a mirror. -/
def Stop.mirror : Stop → Stop
  | .fault f => .fault f.mirror
  | s => s

/-- What the same cycle comes to in a mirror. -/
def Turn.mirror : Turn → Turn
  | .stopped s => .stopped s.mirror
  | t => t

theorem Point.mirror_advance (p : Point) (h : Heading) :
    (p.advance h).mirror = p.mirror.advance h.mirror := by
  cases h <;> rfl

/-- The mirror of a character stands for the mirror of its instruction. -/
theorem Instruction.ofChar?_mirrorCell (c : Char) :
    ofChar? (mirrorCell c) = (ofChar? c).map mirror := by
  unfold mirrorCell
  split
  · rfl
  · rfl
  · rfl
  · rfl
  · rfl
  · rfl
  · unfold ofChar?
    split <;> first | rfl | contradiction

/-- A mirror shows an unknown instruction as it is. -/
theorem mirrorCell_of_unknown {c : Char} (h : Instruction.ofChar? c = none) : mirrorCell c = c := by
  unfold mirrorCell
  split <;> first | rfl | cases h

theorem mirrorCell_eq_haltCell_iff {c : Char} : mirrorCell c = haltCell ↔ c = haltCell := by
  unfold mirrorCell
  split
  · decide
  · decide
  · decide
  · decide
  · decide
  · decide
  · rfl

/-! ## Playfields in a mirror -/

namespace Playfield

/-- The second playfield is the first one in a mirror: its cell in column `x` and row `y` is what a
mirror shows of the cell in column `y` and row `x`. -/
structure Mirrors (g g' : Playfield) : Prop where
  width_eq : g'.width = g.height
  height_eq : g'.height = g.width
  read?_eq : ∀ x y, g'.read? x y = (g.read? y x).map mirrorCell

/-- A playfield in a mirror. -/
def mirror (g : Playfield) : Playfield :=
  tabulate g.width g.height fun i j => mirrorCell (g.read i j)

variable {g g' : Playfield}

theorem WellFormed.mirrors_mirror (hg : g.WellFormed) : g.Mirrors g.mirror where
  width_eq := rfl
  height_eq := height_tabulate _ _ _
  read?_eq := by
    intro x y
    have hwrap : ∀ (c : Int) {d : Nat}, 0 < d → (Torus.wrap c d : Int) ≡ c [ZMOD d] := by
      intro c d hd
      rw [Torus.coe_wrap c hd]
      exact Int.mod_modEq c d
    have hread := read?_congr (hwrap y hg.width_pos) (hwrap x hg.height_pos)
    rw [read?_eq hg] at hread
    unfold mirror
    rw [read?_tabulate hg.width_pos hg.height_pos, ← hread]
    rfl

theorem Mirrors.read_eq (h : g.Mirrors g') (x y : Int) : g'.read x y = mirrorCell (g.read y x) := by
  unfold read
  rw [h.read?_eq]
  cases g.read? y x <;> rfl

theorem Mirrors.settle_eq (h : g.Mirrors g') (p : Point) :
    g'.settle p.mirror = (g.settle p).mirror := by
  unfold settle place
  rw [h.width_eq, h.height_eq]
  rfl

end Playfield

/-! ## Machines in a mirror -/

namespace Machine

variable {ρ ρ' : Type}

/-- The machine in a mirror, on a given playfield and with a given random source. -/
def mirrorOn (m : Machine ρ) (field : Playfield) (random : ρ') : Machine ρ' where
  field := field
  stack := m.stack
  position := m.position.mirror
  heading := m.heading.mirror
  stringMode := m.stringMode
  output := m.output
  status := m.status
  steps := m.steps
  random := random

/-- The second machine is the first one in a mirror. Both are outside of string mode, and their
random sources have nothing to do with each other. -/
structure Mirrors (m : Machine ρ) (m' : Machine ρ') : Prop where
  same : m' = m.mirrorOn m'.field m'.random
  field : m.field.Mirrors m'.field
  mode : m.stringMode = false

/-- A machine in a mirror, with the same random source. -/
def mirror (m : Machine ρ) : Machine ρ := m.mirrorOn m.field.mirror m.random

variable {m : Machine ρ} {m' : Machine ρ'}

theorem mirrors_mirror (hg : m.field.WellFormed) (hmode : m.stringMode = false) :
    m.Mirrors m.mirror where
  same := rfl
  field := hg.mirrors_mirror
  mode := hmode

theorem Mirrors.settle_eq (h : m.Mirrors m') :
    m'.settle = m.settle.mirrorOn m'.field m'.random := by
  have hplace : m'.position = m.position.mirror := by rw [h.same]; rfl
  have hsettle : m'.settle = { m' with position := m'.field.settle m'.position } := rfl
  rw [hsettle, hplace, h.field.settle_eq]
  conv_lhs => rw [h.same]
  rfl

theorem Mirrors.settle (h : m.Mirrors m') : m.settle.Mirrors m'.settle where
  same := h.settle_eq
  field := h.field
  mode := h.mode

theorem Mirrors.status_eq (h : m.Mirrors m') : m'.status = m.status := by
  rw [h.same]
  rfl

theorem Mirrors.cell_eq (h : m.Mirrors m') : m'.cell = mirrorCell m.cell := by
  have hplace : m'.position = m.position.mirror := by rw [h.same]; rfl
  unfold cell
  rw [hplace]
  exact h.field.read_eq _ _

theorem mirrorOn_advance (m : Machine ρ) (g : Playfield) (r : ρ') :
    m.advance.mirrorOn g r = (m.mirrorOn g r).advance :=
  congrArg (fun p => { m.mirrorOn g r with position := p }) (m.position.mirror_advance m.heading)

theorem advance_mirrorOn (e : Effect ρ) (g : Playfield) (r : ρ') :
    Effect.advance ⟨e.machine.mirrorOn g r, e.stop.map Stop.mirror⟩ =
      ⟨e.advance.machine.mirrorOn g r, e.advance.stop.map Stop.mirror⟩ := by
  obtain ⟨next, stop⟩ := e
  cases stop with
  | none => exact congrArg Effect.done (next.mirrorOn_advance g r).symm
  | some s => rfl

variable [RandomSource ρ] [RandomSource ρ']

/-! ## The same instruction in a mirror -/

theorem perform_mirrorOn (m : Machine ρ) {i : Instruction} (hi : i ∉ Instruction.telling)
    (g : Playfield) (r : ρ') :
    (m.mirrorOn g r).perform i.mirror =
      ⟨(m.perform i).machine.mirrorOn g r, (m.perform i).stop.map Stop.mirror⟩ := by
  have hpeek : ∀ n, (m.mirrorOn g r).peek n = m.peek n := fun _ => rfl
  cases i with
  | quote => exact absurd (by decide) hi
  | put => exact absurd (by decide) hi
  | get => exact absurd (by decide) hi
  | turnRandomly => exact absurd (by decide) hi
  | branchAcross =>
    simp only [Instruction.mirror, perform, hpeek]
    split <;> rfl
  | branchAlong =>
    simp only [Instruction.mirror, perform, hpeek]
    split <;> rfl
  | writeCharacter =>
    simp only [Instruction.mirror, perform, hpeek]
    cases Value.toChar? (m.peek 0) <;> rfl
  | bridge => exact congrArg Effect.done (m.mirrorOn_advance g r).symm
  | _ => rfl

/-- Outside of string mode, the mirror of a character does in a mirror what the character does. -/
theorem execute_mirrorOn (m : Machine ρ) (hmode : m.stringMode = false) {c : Char}
    (hc : ∀ i ∈ Instruction.telling, m.means? c ≠ some i) (g : Playfield) (r : ρ') :
    (m.mirrorOn g r).execute (mirrorCell c) =
      ⟨(m.execute c).machine.mirrorOn g r, (m.execute c).stop.map Stop.mirror⟩ := by
  have hmode' : (m.mirrorOn g r).stringMode = false := hmode
  have hmirror := Instruction.ofChar?_mirrorCell c
  cases hi : Instruction.ofChar? c with
  | none =>
    rw [hi] at hmirror
    rw [execute_of_unknown hmode hi, execute_of_unknown hmode' hmirror, mirrorCell_of_unknown hi]
    rfl
  | some i =>
    have hmeans : m.means? c = some i := by
      unfold means?
      rw [if_neg (by simp [hmode]), hi]
    have htelling : i ∉ Instruction.telling := fun hmem => hc i hmem hmeans
    rw [hi] at hmirror
    rw [execute_of_instruction hmode hi, execute_of_instruction hmode' hmirror,
      perform_mirrorOn m htelling, advance_mirrorOn]

/-! ## The same cycle in a mirror -/

theorem Mirrors.visit (h : m.Mirrors m')
    (hc : ∀ i ∈ Instruction.telling, m.means? m.cell ≠ some i) :
    m'.visit.turn = m.visit.turn.mirror ∧
      m'.visit.machine = m.visit.machine.mirrorOn m'.field m'.random := by
  have hexecute := m.execute_mirrorOn h.mode hc m'.field m'.random
  rw [← h.same] at hexecute
  unfold Machine.visit
  rw [h.cell_eq, hexecute]
  simp only [mirrorCell_eq_haltCell_iff]
  by_cases hhalt : m.cell = haltCell
  · rw [if_pos hhalt, if_pos hhalt]
    exact ⟨rfl, congrArg (fun s : Machine ρ' => { s with status := .halted }) h.same⟩
  · rw [if_neg hhalt, if_neg hhalt]
    rcases m.execute m.cell with ⟨next, _ | (_ | _)⟩
    · exact ⟨rfl, rfl⟩
    · exact ⟨rfl, rfl⟩
    · exact ⟨rfl, rfl⟩

/-- A cycle that cannot tell a program from its mirror keeps a machine in a mirror, and comes to
the same there. -/
theorem Mirrors.step (h : m.Mirrors m')
    (hno : ∀ i ∈ Instruction.telling, m.instruction? ≠ some i) :
    m'.step.turn = m.step.turn.mirror ∧ m.step.machine.Mirrors m'.step.machine := by
  cases hs : m.status with
  | halted =>
    rw [step_of_halted hs, step_of_halted (h.status_eq.trans hs)]
    exact ⟨rfl, h⟩
  | running =>
    have hquote : m.settle.cell ≠ quoteCell := by
      intro hcell
      apply hno .quote (by decide)
      rw [instruction?_of_running hs, hcell]
      unfold means?
      rw [if_neg (fun hnot => hnot.2 rfl)]
      rfl
    have hfield : m.step.machine.field = m.field := by
      rw [step_puts, puts_of_ne m (hno .put (by decide))]
    have hmode : m.step.machine.stringMode = false := (step_stringMode hquote).trans h.mode
    rw [instruction?_of_running hs] at hno
    obtain ⟨hturn, hmachine⟩ := h.settle.visit hno
    rw [← step_of_running hs] at hturn hmachine
    rw [← step_of_running (h.status_eq.trans hs)] at hturn hmachine
    refine ⟨hturn, ?_, ?_, hmode⟩
    · rw [hmachine]
      rfl
    · rw [hmachine, hfield]
      exact h.field

/-! ## The same run in a mirror -/

/-- Let a machine be another one in a mirror, with any random source of its own. For as long as the
first executes nothing that can tell it from its mirror, the second comes to the same in every
cycle, an unknown instruction being found at the place with column and row exchanged, and it is
still the first one in a mirror after every cycle. -/
theorem columns_and_rows_are_alike (h : m.Mirrors m') (n : Nat)
    (hno : ∀ k < n, ∀ i ∈ [Instruction.quote, .put, .get, .turnRandomly],
      (m.after k).instruction? ≠ some i) :
    (∀ k < n, (m'.after k).step.turn = (m.after k).step.turn.mirror) ∧
      ∀ k ≤ n, (m.after k).Mirrors (m'.after k) := by
  have hrun : ∀ k ≤ n, (m.after k).Mirrors (m'.after k) := by
    intro k
    induction k with
    | zero =>
      intro _
      exact h
    | succ k ih =>
      intro hk
      obtain ⟨_, hnext⟩ := (ih (by omega)).step (hno k hk)
      exact hnext
  refine ⟨?_, hrun⟩
  intro k hk
  exact ((hrun k (by omega)).step (hno k hk)).1

/-- A program that crosses an edge to the left, jumps, turns, branches and comes around to an unknown
instruction. In a mirror it does so upward, along the columns. -/
theorem a_program_goes_upward_in_a_mirror :
    let m := (Machine.fresh (⟨0, 1⟩ : Progression)).load "<v1#\nx_ ."
    let m' := m.mirror
    (m'.field.rows = ["^x", ">|", "1 ", "#."] ∧ (m'.after 6).output = "0" ∧
        (m.after 6).step.turn = .stopped (.fault (.unknownInstruction 'x' ⟨0, 1⟩)) ∧
        (m'.after 6).step.turn = .stopped (.fault (.unknownInstruction 'x' ⟨1, 0⟩))) ∧
      (∀ k < 7, (m'.after k).step.turn = (m.after k).step.turn.mirror) ∧
      ∀ k ≤ 7, (m.after k).Mirrors (m'.after k) := by
  intro m m'
  have hno : ∀ k < 7, ∀ i ∈ [Instruction.quote, .put, .get, .turnRandomly],
      (m.after k).instruction? ≠ some i := by
    decide
  have hmirror : m.Mirrors m' := mirrors_mirror (Playfield.wellFormed_ofSource _) rfl
  exact ⟨by decide, columns_and_rows_are_alike hmirror 7 hno⟩

end Machine

end Befunge
