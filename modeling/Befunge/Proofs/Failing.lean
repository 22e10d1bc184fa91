-- When a cell fails. A cycle fails at a cell that stands for no instruction, and at one that needs
-- the code of a character and finds another number: always there, and nowhere else. By then it has
-- brought the pointer onto the playfield and popped numbers, and it has done nothing else.
import Befunge.Proofs.Ending

namespace Befunge

/-! ## Numbers that are no code -/

theorem Stack.peek_of_le {s : Stack} {n : Nat} (h : s.values.length ≤ n) : s.peek n = 0 := by
  unfold values at h
  rw [List.length_reverse] at h
  unfold peek
  rw [List.getD_eq_getElem?_getD, List.getElem?_eq_none h]
  rfl

namespace Machine

variable {ρ : Type} {m : Machine ρ} {c : Char} {f : Fault} {n : Nat}

/-- A number that is the code of no character is on the stack: below it there are only zeros. -/
theorem lt_length_of_not_code (h : ¬IsCharacterCode (m.peek n).toInt) :
    n < m.stack.values.length := by
  by_contra hn
  have hzero : m.peek n = 0 := Stack.peek_of_le (Nat.le_of_not_lt hn)
  rw [hzero] at h
  exact h (by decide)

/-- What a cell that fails has popped was on the stack. -/
theorem Fails.le_length (h : m.Fails c f n) : n ≤ m.stack.values.length := by
  cases h with
  | unknown _ => exact Nat.zero_le _
  | output _ h => exact lt_length_of_not_code h
  | put _ h => exact lt_length_of_not_code h

variable [RandomSource ρ]

/-! ## One character -/

/-- Outside of string mode, a character fails in each of the ways in which one can. -/
theorem execute_of_fails (hmode : m.stringMode = false) (h : m.Fails c f n) :
    m.execute c = .fail (m.drop n) f := by
  cases h with
  | unknown h => exact execute_of_unknown hmode h
  | output hc h =>
    subst hc
    have hcode := Value.toChar?_eq_none_iff.2 h
    rw [execute_of_instruction hmode (i := .writeCharacter) rfl]
    simp only [perform, hcode]
    rfl
  | put hc h =>
    subst hc
    have hcode := Value.toChar?_eq_none_iff.2 h
    rw [execute_of_instruction hmode (i := .put) rfl]
    simp only [perform, hcode]
    rfl

/-! ## One cycle -/

/-- The next cycle fails with a fault when it has popped `n` numbers: the machine runs, it is outside
of string mode, and the cell under the pointer is not the halting one and fails. -/
structure FailsNext (m : Machine ρ) (f : Fault) (n : Nat) : Prop where
  running : m.status = .running
  mode : m.stringMode = false
  cell_ne : m.settle.cell ≠ haltCell
  fails : m.settle.Fails m.settle.cell f n

theorem FailsNext.step (h : m.FailsNext f n) :
    m.step.toProgress = ⟨m.settle.drop n, .stopped (.fault f)⟩ := by
  have hexecute := execute_of_fails (m := m.settle) h.mode h.fails
  rw [step_of_running h.running]
  unfold visit
  rw [if_neg h.cell_ne, hexecute]
  rfl

theorem failsNext_of_step (h : m.step.turn = .stopped (.fault f)) : ∃ n, m.FailsNext f n := by
  obtain ⟨hrun, hc, hstop, _⟩ := step_of_turn_stopped h
  obtain ⟨hmode, n, hfails, _⟩ := fails_of_execute hstop
  exact ⟨n, hrun, hmode, hc, hfails⟩

/-- A cycle fails in these cases and in no other: the machine runs outside of string mode, and the
cell under the pointer, brought onto the playfield, is an unknown instruction, or one that needs a
character and finds a number that is the code of none. A machine whose cycle fails is as it was, but
for the pointer, which is now on the playfield, and for the numbers that the cell has popped. They
were all on the stack. -/
theorem a_cycle_fails_there_and_nowhere_else (hg : m.field.Addressable) :
    (m.settle.position.x.toInt = m.position.x.toInt % m.field.width ∧
      m.settle.position.y.toInt = m.position.y.toInt % m.field.height) ∧
    ∀ f,
      (m.step.turn = .stopped (.fault f) ↔
        m.status = .running ∧ m.stringMode = false ∧ m.settle.cell ≠ '@' ∧
          ∃ n, m.settle.Fails m.settle.cell f n) ∧
      (m.step.turn = .stopped (.fault f) →
        ∃ n ≤ m.stack.values.length, m.settle.Fails m.settle.cell f n ∧
          m.step.machine =
            { m with position := m.settle.position, stack := m.stack.drop n }) := by
  refine ⟨⟨?_, ?_⟩, ?_⟩
  · rw [← Torus.coe_wrap _ hg.width_pos]
    exact hg.toInt_place_x _ _
  · rw [← Torus.coe_wrap _ hg.height_pos]
    exact hg.toInt_place_y _ _
  · intro f
    refine ⟨⟨?_, ?_⟩, ?_⟩
    · intro h
      obtain ⟨n, hnext⟩ := failsNext_of_step h
      exact ⟨hnext.running, hnext.mode, hnext.cell_ne, n, hnext.fails⟩
    · rintro ⟨hrun, hmode, hc, n, hfails⟩
      have hnext : m.FailsNext f n := ⟨hrun, hmode, hc, hfails⟩
      exact congrArg Progress.turn hnext.step
    · intro h
      obtain ⟨n, hnext⟩ := failsNext_of_step h
      exact ⟨n, hnext.fails.le_length, hnext.fails, congrArg Progress.machine hnext.step⟩

/-- A surrogate under two coordinates cannot be put into a cell. All three numbers are gone then, and
the pointer has come around from the other side. -/
theorem a_surrogate_is_not_put :
    let m := { (Machine.fresh (⟨0, 1⟩ : Progression)).load "5p" with
      position := ⟨-1, 4⟩, stack := .ofValues [9, 0xd800, 1, 2] }
    let f := Fault.invalidValue 0xd800 "grid cell is not a character code"
    (m.settle.cell = 'p' ∧ m.step.machine.position = ⟨1, 0⟩ ∧ m.step.machine.stack.values = [9]) ∧
      m.step.turn = .stopped (.fault f) ∧
      ∃ n ≤ m.stack.values.length, m.settle.Fails m.settle.cell f n ∧
        m.step.machine = { m with position := m.settle.position, stack := m.stack.drop n } := by
  intro m f
  have hg : m.field.Addressable := Playfield.addressable_ofSource (by decide) (by decide)
  obtain ⟨_, hfails⟩ := a_cycle_fails_there_and_nowhere_else (m := m) hg
  have hturn : m.step.turn = .stopped (.fault f) := (hfails f).1.2
    ⟨rfl, rfl, by decide, 3, .put (by decide) (by decide)⟩
  exact ⟨by decide, hturn, (hfails f).2 hturn⟩

end Machine

end Befunge
