-- What may change between two loads. The output is only ever written at its end, a cell is counted
-- in the cycle that executes it and nowhere else, and a program is halted by a cycle that finds the
-- halting cell and by nothing else. A halted machine can still execute characters that are handed
-- to it, but its cycles do nothing any more.
import Befunge.Proofs.Stepping
import Befunge.Random.Progression
import Mathlib.Algebra.Group.Nat.Defs

namespace Befunge

namespace Machine

variable {ρ : Type} [RandomSource ρ]

/-! ## The cycles of some moves -/

/-- The machines on which the cycles of a run begin: at most `n` cycles, up to the first that does
not leave the machine running. -/
def cycleStarts (m : Machine ρ) : Nat → List (Machine ρ)
  | 0 => []
  | n + 1 =>
    m :: match m.step.turn with
      | .running => m.step.machine.cycleStarts n
      | _ => []

/-- The machines on which the cycles of a move begin. -/
def cycleStartsBy (m : Machine ρ) : Move → List (Machine ρ)
  | .step => [m]
  | .run limit => m.cycleStarts limit
  | .execute _ | .push _ | .pop => []

/-- The machines on which the cycles of some moves in a row begin. -/
def cycleStartsIn (m : Machine ρ) : List Move → List (Machine ρ)
  | [] => []
  | a :: moves => m.cycleStartsBy a ++ (m.answer a.call).2.cycleStartsIn moves

/-- How many of some cycles return that the machine is running. -/
def counted (cycles : List (Machine ρ)) : Nat := cycles.countP fun s => s.step.turn = .running

/-- The next cycle finds the halting cell under the pointer, which is brought onto the playfield. -/
def FindsHalt (m : Machine ρ) : Prop := m.status = .running ∧ m.settle.cell = '@'

instance (m : Machine ρ) : Decidable m.FindsHalt := inferInstanceAs (Decidable (_ ∧ _))

/-! ## Two moments -/

/-- What a machine `m` has become when some cycles have been made: more has been written, the cells
that they executed have been counted, and the program is halted if one of them found the halting
cell. -/
structure Becomes (cycles : List (Machine ρ)) (m t : Machine ρ) : Prop where
  output : ∃ more, t.output = m.output ++ more
  steps : t.steps = m.steps + UInt64.ofNat (counted cycles)
  halted_iff : t.status = .halted ↔ m.status = .halted ∨ ∃ s ∈ cycles, s.FindsHalt

variable {m t u : Machine ρ} {cycles cycles' : List (Machine ρ)}

/-- Between two cycles nothing is counted and nothing halts. -/
theorem becomes_of_eq (houtput : ∃ more, t.output = m.output ++ more) (hsteps : t.steps = m.steps)
    (hstatus : t.status = m.status) : Becomes [] m t where
  output := houtput
  steps := by simp [hsteps, counted]
  halted_iff := by simp [hstatus]

theorem becomes_refl (m : Machine ρ) : Becomes [] m m :=
  becomes_of_eq ⟨"", String.append_empty.symm⟩ rfl rfl

theorem Becomes.trans (h : Becomes cycles m t) (h' : Becomes cycles' t u) :
    Becomes (cycles ++ cycles') m u where
  output := by
    obtain ⟨more, hmore⟩ := h.output
    obtain ⟨more', hmore'⟩ := h'.output
    exact ⟨more ++ more', by rw [hmore', hmore, String.append_assoc]⟩
  steps := by
    unfold counted
    rw [h'.steps, h.steps, List.countP_append, UInt64.ofNat_add, UInt64.add_assoc]
    rfl
  halted_iff := by
    rw [h'.halted_iff, h.halted_iff, or_assoc]
    simp only [List.mem_append, or_and_right, exists_or]

/-! ## One character -/

/-- An instruction writes only at the end of the output. -/
theorem perform_output (m : Machine ρ) (i : Instruction) :
    ∃ more, (m.perform i).machine.output = m.output ++ more := by
  rcases m.perform_cases i with ⟨_, _, _, h⟩ | ⟨_, h⟩ | ⟨_, h⟩ | ⟨_, more, h⟩ | ⟨_, _, _, _, h⟩
  · exact ⟨"", by rw [h, String.append_empty]⟩
  · exact ⟨"", by rw [h, String.append_empty]⟩
  · exact ⟨"", by rw [h, String.append_empty]⟩
  · exact ⟨more, by rw [h]⟩
  · exact ⟨"", by rw [h, String.append_empty]⟩

theorem execute_output (m : Machine ρ) (c : Char) :
    ∃ more, (m.execute c).machine.output = m.output ++ more :=
  execute_keeps (P := fun s => ∃ more, s.output = m.output ++ more) (fun _ _ h => h)
    (fun _ h => h) ⟨"", String.append_empty.symm⟩ m.perform_output c

theorem becomes_execute (m : Machine ρ) (c : Char) : Becomes [] m (m.execute c).machine :=
  becomes_of_eq (m.execute_output c) (m.execute_steps c) (m.execute_status c)

/-! ## One cycle and many -/

theorem counted_singleton (m : Machine ρ) :
    counted [m] = if m.step.turn = .running then 1 else 0 := by
  simp [counted, List.countP_singleton]

theorem becomes_step (m : Machine ρ) : Becomes [m] m m.step.machine := by
  have hexecute := becomes_execute m.settle m.settle.cell
  rcases m.step_cases with ⟨hs, h⟩ | ⟨hs, hc, h⟩ | ⟨hs, hc, _, h⟩ | ⟨hs, hc, s, _, h⟩
  · constructor
    · exact ⟨"", by rw [h, String.append_empty]⟩
    · simp [counted_singleton, h]
    · simp [h, hs]
  · constructor
    · exact ⟨"", by rw [h, String.append_empty]; rfl⟩
    · simp [counted_singleton, h]
      rfl
    · simp [h, FindsHalt, hs, hc, haltCell]
  · have hnot : ¬m.FindsHalt := fun hfinds => hc hfinds.2
    have hstatus : (m.settle.execute m.settle.cell).machine.count.status = .running :=
      (m.settle.execute_status _).trans hs
    constructor
    · rw [h]
      exact hexecute.output
    · rw [counted_singleton, h, if_pos rfl]
      exact congrArg (· + 1) (m.settle.execute_steps _)
    · rw [h]
      simp [hstatus, hs, hnot]
  · have hnot : ¬m.FindsHalt := fun hfinds => hc hfinds.2
    have hmachine := congrArg Progress.machine h
    have hturn := congrArg Progress.turn h
    have hstatus : m.step.machine.status = .running := by
      rw [hmachine]
      exact (m.settle.execute_status _).trans hs
    -- A cell that fails may have popped numbers, but it is not counted.
    constructor
    · rw [hmachine]
      exact hexecute.output
    · rw [counted_singleton, hturn, hmachine, if_neg (by simp), m.settle.execute_steps]
      exact (UInt64.add_zero _).symm
    · simp [hstatus, hs, hnot]

theorem becomes_runFor (m : Machine ρ) (n : Nat) :
    Becomes (m.cycleStarts n) m (m.runFor n).machine := by
  induction n generalizing m with
  | zero => exact becomes_refl m
  | succ n ih =>
    have hfirst := m.becomes_step
    simp only [runFor, cycleStarts]
    cases m.step.turn with
    | running => exact hfirst.trans (ih _)
    | halted => exact hfirst
    | stopped s => exact hfirst

/-! ## One move and many -/

theorem becomes_answer (m : Machine ρ) (a : Move) :
    Becomes (m.cycleStartsBy a) m (m.answer a.call).2 := by
  cases a with
  | execute c =>
    simp only [Move.call, answer_execute]
    exact becomes_execute m c
  | step => exact becomes_step m
  | push v => exact becomes_of_eq ⟨"", String.append_empty.symm⟩ rfl rfl
  | pop => exact becomes_of_eq ⟨"", String.append_empty.symm⟩ rfl rfl
  | run limit =>
    simp only [Move.call, answer, ended_machine]
    exact becomes_runFor m limit

theorem becomes_plays (m : Machine ρ) (moves : List Move) :
    Becomes (m.cycleStartsIn moves) m (m.plays moves).2 := by
  induction moves generalizing m with
  | nil => exact becomes_refl m
  | cons a moves ih => exact (becomes_answer m a).trans (ih _)

/-! ## After the end -/

/-- A run of a halted machine returns its output and leaves it as it is. -/
theorem answer_run_of_halted (h : t.status = .halted) {limit : Nat} (hlimit : 0 < limit) :
    t.answer (.run limit) = (.result (.ok t.output), t) := by
  obtain ⟨n, rfl⟩ := Nat.exists_eq_add_of_lt hlimit
  have hstep := step_of_halted h
  have hrun : t.runFor (0 + n + 1) = ⟨t, .halted⟩ := by
    rw [runFor_succ_of_ne (by simp [hstep]), hstep]
  simp only [answer, hrun]
  rfl

/-- What may change between two loads, from any machine and over any moves, those that fail
included. What had been written is the beginning of what is written later. The counter grows by the
number of cycles that returned that the machine is running, as long as it has room, and executing
characters directly adds nothing. A halted program never runs again, and it is a cycle that finds
the halting cell which halts it. From then on every cycle tells that it is halted, every run returns
what is written by then, and neither changes anything, whatever moves were made in between. -/
theorem what_may_change_between_loads (m : Machine ρ) (moves : List Move) :
    let t := (m.plays moves).2
    let cycles := m.cycleStartsIn moves
    (∃ more, t.output = m.output ++ more) ∧
      (m.steps.toNat + counted cycles < 2 ^ 64 →
        t.steps.toNat = m.steps.toNat + counted cycles) ∧
      (t.status = .halted ↔ m.status = .halted ∨ ∃ s ∈ cycles, s.FindsHalt) ∧
      (m.status = .halted → t.step = ⟨⟨t, .halted⟩, []⟩ ∧
        ∀ limit, 0 < limit → t.answer (.run limit) = (.result (.ok t.output), t)) := by
  intro t cycles
  have hbecomes : Becomes cycles m t := becomes_plays m moves
  refine ⟨hbecomes.output, ?_, hbecomes.halted_iff, ?_⟩
  · intro hroom
    have hcounted : counted cycles < UInt64.size := by unfold UInt64.size; omega
    rw [hbecomes.steps, UInt64.toNat_add, UInt64.toNat_ofNat_of_lt' hcounted,
      Nat.mod_eq_of_lt hroom]
  · intro hm
    have ht : t.status = .halted := hbecomes.halted_iff.2 (Or.inl hm)
    exact ⟨step_of_halted ht, fun _ => answer_run_of_halted ht⟩

/-- A program halts after two cells. Characters that are executed after that write a digit and move
the pointer away from the halting cell, but they count nothing, and no cycle goes on from there. -/
theorem a_halted_program_is_not_woken :
    let m := ((Machine.fresh (⟨0, 1⟩ : Progression)).load "1.@").plays [.run 9]
    let moves := [Move.execute '5', .execute '.', .step]
    let t := (m.2.plays moves).2
    m.2.status = .halted ∧ m.2.output = "1" ∧ m.2.steps = 2 ∧ m.2.position = ⟨2, 0⟩ ∧
      t.output = "15" ∧ t.position = ⟨4, 0⟩ ∧ t.steps.toNat = 2 ∧
      t.step = ⟨⟨t, .halted⟩, []⟩ ∧ t.answer (.run 1) = (.result (.ok t.output), t) := by
  intro m moves t
  have hm : m.2.status = .halted := by decide
  have hcounted : counted (m.2.cycleStartsIn moves) = 0 := by decide
  obtain ⟨_, hsteps, _, hhalted⟩ := what_may_change_between_loads m.2 moves
  obtain ⟨hstep, hrun⟩ := hhalted hm
  rw [hcounted] at hsteps
  have hshown : m.2.output = "1" ∧ m.2.steps = 2 ∧ m.2.position = ⟨2, 0⟩ ∧
      t.output = "15" ∧ t.position = ⟨4, 0⟩ := by decide
  obtain ⟨h1, h2, h3, h4, h5⟩ := hshown
  exact ⟨hm, h1, h2, h3, h4, h5, hsteps (by decide), hstep, hrun 1 (by decide)⟩

end Machine

end Befunge
