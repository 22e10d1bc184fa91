-- Trying again. A machine that failed at a cell still runs, and its next cycle tries the same cell
-- with what is left on the stack. An unknown instruction stays unknown. A cell that needs a
-- character comes to one in the end: below the numbers of a stack there are zeros, and zero is the
-- code of a character.
import Befunge.Proofs.Failing
import Befunge.Proofs.Steering

namespace Befunge

/-! ## The pure model -/

/-- The character with the first code among some numbers, and the one with the code zero if there is
none. -/
def Value.firstChar (values : List Value) : Char :=
  Char.ofNat ((values.find? fun v => IsCharacterCode v.toInt).getD 0).toInt.toNat

/-- The third of some numbers, the sixth, the ninth, and so on. -/
def Value.everyThird : List Value → List Value
  | _ :: _ :: v :: rest => v :: everyThird rest
  | _ => []

namespace Value

theorem firstChar_cons_of_code {v : Value} (h : IsCharacterCode v.toInt) (values : List Value) :
    firstChar (v :: values) = Char.ofNat v.toInt.toNat := by
  unfold firstChar
  rw [List.find?_cons_of_pos (by simpa using h)]
  rfl

theorem firstChar_cons_of_not_code {v : Value} (h : ¬IsCharacterCode v.toInt)
    (values : List Value) : firstChar (v :: values) = firstChar values := by
  unfold firstChar
  rw [List.find?_cons_of_neg (by simpa using h)]

/-- Going through some numbers, and on to zeros after them, one comes to the first code of a
character after as many others as there are before it. -/
theorem exists_firstChar (values : List Value) :
    ∃ n ≤ values.length, (∀ i < n, ¬IsCharacterCode (values.getD i 0).toInt) ∧
      toChar? (values.getD n 0) = some (firstChar values) := by
  induction values with
  | nil => exact ⟨0, Nat.le_refl 0, fun i hi => absurd hi (Nat.not_lt_zero i), by decide⟩
  | cons v values ih =>
    by_cases hv : IsCharacterCode v.toInt
    · refine ⟨0, Nat.zero_le _, fun i hi => absurd hi (Nat.not_lt_zero i), ?_⟩
      rw [firstChar_cons_of_code hv]
      exact toChar?_of_isCharacterCode hv
    · obtain ⟨n, hn, hbefore, hfirst⟩ := ih
      refine ⟨n + 1, Nat.succ_le_succ hn, ?_, ?_⟩
      · intro i hi
        cases i with
        | zero => exact hv
        | succ i => exact hbefore i (by omega)
      · rw [firstChar_cons_of_not_code hv]
        exact hfirst

theorem length_everyThird : ∀ values : List Value, (everyThird values).length = values.length / 3
  | [] => rfl
  | [_] => by simp [everyThird]
  | [_, _] => by simp [everyThird]
  | _ :: _ :: _ :: rest => by
    have hrest := length_everyThird rest
    simp only [everyThird, List.length_cons, hrest]
    omega

theorem getD_everyThird : ∀ (values : List Value) (i : Nat),
    (everyThird values).getD i 0 = values.getD (3 * i + 2) 0
  | [], _ => rfl
  | [_], _ => rfl
  | [_, _], _ => rfl
  | _ :: _ :: _ :: _, 0 => rfl
  | _ :: _ :: _ :: rest, i + 1 => getD_everyThird rest i

end Value

namespace Machine

variable {ρ : Type} {m : Machine ρ}

theorem drop_drop (m : Machine ρ) (n k : Nat) : (m.drop n).drop k = m.drop (n + k) := by
  unfold drop Stack.drop
  rw [List.drop_drop]

theorem peek_drop (m : Machine ρ) (n k : Nat) : (m.drop n).peek k = m.peek (n + k) := by
  unfold peek drop Stack.peek Stack.drop
  simp only [List.getD_eq_getElem?_getD, List.getElem?_drop]

/-- Popping numbers does not move a pointer that was brought onto the playfield. -/
theorem settle_settle_drop (hg : m.field.Addressable) (n : Nat) :
    (m.settle.drop n).settle = m.settle.drop n :=
  settle_eq_self (m := m.settle.drop n) hg (hg.nearby_settle m.position)

variable [RandomSource ρ]

/-! ## Failing again and again -/

/-- The first `n` cycles all fail, cycle `i` with the fault `fault i`. Each pops `k` numbers more,
and the first of them brings the pointer onto the playfield; all else stays as it is. -/
def FailsTimes (m : Machine ρ) (n k : Nat) (fault : Nat → Fault) : Prop :=
  ∀ i < n, (m.after i).step.turn = .stopped (.fault (fault i)) ∧
    m.after (i + 1) = { m with position := m.settle.position, stack := m.stack.drop (k * (i + 1)) }

/-- As long as the cell fails with what is left on the stack, every cycle fails, and the machine that
is left tries the same cell. -/
theorem failsTimes_of_fails (hg : m.field.Addressable) (hrun : m.status = .running)
    (hmode : m.stringMode = false) (hc : m.settle.cell ≠ haltCell) {n k : Nat} {fault : Nat → Fault}
    (hfails : ∀ i < n, (m.settle.drop (k * i)).Fails m.settle.cell (fault i) k) :
    m.FailsTimes n k fault ∧ (m.after n).status = .running ∧ (m.after n).stringMode = false ∧
      (m.after n).settle = m.settle.drop (k * n) := by
  -- The playfield and the pointer do not change from one failure to the next, so the cell that is
  -- tried next is the one that `hfails` is about.
  induction n with
  | zero => exact ⟨fun i hi => absurd hi (Nat.not_lt_zero i), hrun, hmode, rfl⟩
  | succ n ih =>
    obtain ⟨hbefore, hrun', hmode', hsettle⟩ := ih (fun i hi => hfails i (by omega))
    have hcell : (m.after n).settle.cell = m.settle.cell := by
      rw [hsettle]
      rfl
    have hnext : (m.after n).FailsNext (fault n) k := by
      refine ⟨hrun', hmode', ?_, ?_⟩
      · rw [hcell]
        exact hc
      · rw [hcell, hsettle]
        exact hfails n (Nat.lt_succ_self n)
    have hafter : m.after (n + 1) = m.settle.drop (k * (n + 1)) := by
      have hmachine := congrArg Progress.machine hnext.step
      rw [hsettle, drop_drop] at hmachine
      exact hmachine
    refine ⟨?_, ?_, ?_, ?_⟩
    · intro i hi
      rcases Nat.lt_succ_iff_lt_or_eq.1 hi with hi | rfl
      · exact hbefore i hi
      · exact ⟨congrArg Progress.turn hnext.step, hafter⟩
    · rw [hafter]
      exact hrun
    · rw [hafter]
      exact hmode
    · rw [hafter, settle_settle_drop hg]

/-- When the instruction of the cell succeeds with the numbers that are left below those of the
failures, the cycle after them performs it. -/
theorem failsTimes_then_performs (hg : m.field.Addressable) (hrun : m.status = .running)
    (hmode : m.stringMode = false) {i : Instruction} (hi : Instruction.ofChar? m.settle.cell = some i)
    {n k : Nat} {fault : Nat → Fault}
    (hfails : ∀ j < n, (m.settle.drop (k * j)).Fails m.settle.cell (fault j) k) {m' : Machine ρ}
    (hlast : (m.settle.drop (k * n)).perform i = .done m') :
    m.FailsTimes n k fault ∧ (m.after n).step.toProgress = ⟨m'.advance.count, .running⟩ := by
  have hc := Instruction.ne_haltCell_of_ofChar? hi
  obtain ⟨hbefore, hrun', hmode', hsettle⟩ := failsTimes_of_fails hg hrun hmode hc hfails
  have hi' : Instruction.ofChar? (m.after n).settle.cell = some i := by
    rw [hsettle]
    exact hi
  have hlast' : (m.after n).settle.perform i = .done m' := by
    rw [hsettle]
    exact hlast
  exact ⟨hbefore, step_of_instruction hrun' hmode' hi' hlast'⟩

/-- An unknown instruction fails in every cycle. -/
theorem failsTimes_of_unknown (hg : m.field.Addressable) {p : Point} {d : Nat} {c : Char}
    (h : m.FailsNext (.unknownInstruction c p) d) (n : Nat) :
    m.FailsTimes n 0 fun _ => .unknownInstruction c p := by
  obtain ⟨hrun, hmode, hc, hfails⟩ := h
  refine (failsTimes_of_fails hg hrun hmode hc ?_).1
  intro j _
  rw [Nat.zero_mul]
  cases hfails with
  | unknown hunknown => exact .unknown hunknown

/-- A cell that writes a character fails for every number above the first code of one, and then
writes the character with that code. -/
theorem writes_first_character (hg : m.field.Addressable) (hrun : m.status = .running)
    (hmode : m.stringMode = false) (hcell : m.settle.cell = ',') :
    ∃ n ≤ m.stack.values.length,
      (m.FailsTimes n 1 fun i => .invalidValue (m.peek i) Fault.outputContext) ∧
        (m.after n).step.turn = .running ∧
        (m.after (n + 1)).output = m.output.push (Value.firstChar m.stack.items) := by
  obtain ⟨n, hn, hbefore, hfirst⟩ := Value.exists_firstChar m.stack.items
  have hpeek : ∀ j, (m.settle.drop (1 * j)).peek 0 = m.peek j := by
    intro j
    rw [peek_drop, Nat.one_mul]
    rfl
  have hfails : ∀ j < n, (m.settle.drop (1 * j)).Fails m.settle.cell
      (.invalidValue (m.peek j) Fault.outputContext) 1 := by
    intro j hj
    rw [← hpeek j]
    refine .output hcell ?_
    rw [hpeek j]
    exact hbefore j hj
  have hi : Instruction.ofChar? m.settle.cell = some .writeCharacter := by
    rw [hcell]
    rfl
  have hcode : Value.toChar? ((m.settle.drop (1 * n)).peek 0) =
      some (Value.firstChar m.stack.items) := by
    rw [hpeek n]
    exact hfirst
  obtain ⟨htimes, hstep⟩ :=
    failsTimes_then_performs hg hrun hmode hi hfails (perform_writeCharacter hcode)
  refine ⟨n, ?_, htimes, congrArg Progress.turn hstep, ?_⟩
  · unfold Stack.values
    rw [List.length_reverse]
    exact hn
  · exact congrArg (fun p : Progress ρ => p.machine.output) hstep

/-- A cell that puts a character fails as long as the number under two coordinates is no code, and
pops all three. With the first that is a code, it puts the character, under the coordinates above
that number. -/
theorem puts_first_character (hg : m.field.Addressable) (hrun : m.status = .running)
    (hmode : m.stringMode = false) (hcell : m.settle.cell = 'p') :
    ∃ n ≤ m.stack.values.length / 3,
      (m.FailsTimes n 3 fun i => .invalidValue (m.peek (3 * i + 2)) Fault.cellContext) ∧
        (m.after n).step.turn = .running ∧
        (m.after (n + 1)).field =
          m.field.write (m.peek (3 * n + 1)).toInt (m.peek (3 * n)).toInt
            (Value.firstChar (Value.everyThird m.stack.items)) := by
  obtain ⟨n, hn, hbefore, hfirst⟩ := Value.exists_firstChar (Value.everyThird m.stack.items)
  have hpeek : ∀ j k, (m.settle.drop (3 * j)).peek k = m.peek (3 * j + k) := by
    intro j k
    rw [peek_drop]
    rfl
  have hfails : ∀ j < n, (m.settle.drop (3 * j)).Fails m.settle.cell
      (.invalidValue (m.peek (3 * j + 2)) Fault.cellContext) 3 := by
    intro j hj
    rw [← hpeek j 2]
    refine .put hcell ?_
    rw [hpeek j 2]
    have hno := hbefore j hj
    rw [Value.getD_everyThird] at hno
    exact hno
  have hi : Instruction.ofChar? m.settle.cell = some .put := by
    rw [hcell]
    rfl
  have hcode : Value.toChar? ((m.settle.drop (3 * n)).peek 2) =
      some (Value.firstChar (Value.everyThird m.stack.items)) := by
    rw [hpeek n 2]
    rw [Value.getD_everyThird] at hfirst
    exact hfirst
  obtain ⟨htimes, hstep⟩ := failsTimes_then_performs hg hrun hmode hi hfails (perform_put hcode)
  refine ⟨n, ?_, htimes, congrArg Progress.turn hstep, ?_⟩
  · unfold Stack.values
    rw [List.length_reverse, ← Value.length_everyThird]
    exact hn
  · have hfield := congrArg (fun p : Progress ρ => p.machine.field) hstep
    rw [hpeek n 1, hpeek n 0] at hfield
    exact hfield

/-- Trying a failed cell again. An unknown instruction fails in every cycle, always with the same
fault, and after the first of them nothing changes any more. A cell that writes a character fails at
most as often as there are numbers on the stack, popping one each time, and then writes the character
with the first code among them, from the top. A cell that puts a character fails at most a third
as often, popping three each time, and then puts the first character whose code is the third number
from the top, or the sixth, or the ninth, and so on. If there is none, the character is the one with
the code zero. -/
theorem trying_a_failed_cell_again (hg : m.field.Addressable) {f : Fault}
    (h : m.step.turn = .stopped (.fault f)) :
    (∀ c p, f = .unknownInstruction c p →
      ∀ i, (m.after i).step.turn = .stopped (.fault f) ∧
        m.after (i + 1) = { m with position := m.settle.position }) ∧
    (∀ v text, f = .invalidValue v text → m.settle.cell = ',' →
      ∃ n ≤ m.stack.values.length,
        (m.FailsTimes n 1 fun i => .invalidValue (m.peek i) Fault.outputContext) ∧
          (m.after n).step.turn = .running ∧
          (m.after (n + 1)).output = m.output.push (Value.firstChar m.stack.items)) ∧
    (∀ v text, f = .invalidValue v text → m.settle.cell = 'p' →
      ∃ n ≤ m.stack.values.length / 3,
        (m.FailsTimes n 3 fun i => .invalidValue (m.peek (3 * i + 2)) Fault.cellContext) ∧
          (m.after n).step.turn = .running ∧
          (m.after (n + 1)).field =
            m.field.write (m.peek (3 * n + 1)).toInt (m.peek (3 * n)).toInt
              (Value.firstChar (Value.everyThird m.stack.items))) := by
  obtain ⟨d, hnext⟩ := failsNext_of_step h
  refine ⟨?_, ?_, ?_⟩
  · rintro c p rfl i
    obtain ⟨hturn, hafter⟩ := failsTimes_of_unknown hg hnext (i + 1) i (Nat.lt_succ_self i)
    rw [Nat.zero_mul] at hafter
    exact ⟨hturn, hafter⟩
  · intro _ _ _ hcell
    exact writes_first_character hg hnext.running hnext.mode hcell
  · intro _ _ _ hcell
    exact puts_first_character hg hnext.running hnext.mode hcell

/-- A surrogate, and then a negative number under coordinates that are off the playfield: the third
try puts the letter. -/
theorem the_third_try_puts_the_letter :
    let m := { (Machine.fresh (⟨0, 1⟩ : Progression)).load "p." with
      position := ⟨-2, 3⟩, stack := .ofValues [65, 0, 0, -1, 1, 1, 0xd800, 7, 8] }
    (m.step.turn = .stopped (.fault (.invalidValue 0xd800 Fault.cellContext)) ∧
        (m.after 3).field.rows = ["A."]) ∧
      ∃ n ≤ m.stack.values.length / 3,
        (m.FailsTimes n 3 fun i => .invalidValue (m.peek (3 * i + 2)) Fault.cellContext) ∧
          (m.after n).step.turn = .running ∧
          (m.after (n + 1)).field =
            m.field.write (m.peek (3 * n + 1)).toInt (m.peek (3 * n)).toInt
              (Value.firstChar (Value.everyThird m.stack.items)) := by
  intro m
  have hg : m.field.Addressable := Playfield.addressable_ofSource (by decide) (by decide)
  have hturn : m.step.turn = .stopped (.fault (.invalidValue 0xd800 Fault.cellContext)) := by
    decide
  refine ⟨⟨hturn, by decide⟩, ?_⟩
  exact (trying_a_failed_cell_again hg hturn).2.2 _ _ rfl (by decide)

end Machine

end Befunge
