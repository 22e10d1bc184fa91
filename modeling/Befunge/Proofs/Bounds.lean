-- How large a machine gets. A cell that is executed and counted adds one number to the stack, or
-- two to an empty one, and at most the longest decimal text of a word to the output. A cell that
-- fails adds nothing and is not counted. So the count of cells bounds the stack and the output.
import Befunge.Proofs.Stepping
import Befunge.Random.Progression
import Mathlib.Algebra.Group.Int.Defs
import Mathlib.Algebra.Group.Nat.Defs

namespace Befunge

/-! ## Bytes of a text -/

theorem utf8ByteSize_ofList_of_one {cs : List Char} (h : ∀ c ∈ cs, c.utf8Size = 1) :
    (String.ofList cs).utf8ByteSize = cs.length := by
  induction cs with
  | nil => rfl
  | cons c cs ih =>
    have hrest := ih (fun d hd => h d (List.mem_cons_of_mem c hd))
    rw [String.ofList_cons, String.utf8ByteSize_append, String.utf8ByteSize_singleton, hrest,
      h c List.mem_cons_self, List.length_cons, Nat.add_comm]

namespace Decimal

theorem utf8Size_of_mem_ofNat {n : Nat} {c : Char} (h : c ∈ ofNat n) : c.utf8Size = 1 := by
  have hdigit := isDigit_of_mem_ofNat h
  simp only [Char.isDigit, Bool.and_eq_true, decide_eq_true_eq] at hdigit
  exact Char.utf8Size_eq_one_iff.2 (UInt32.le_trans hdigit.2 (by decide))

theorem utf8Size_of_mem_ofInt {v : Int} {c : Char} (h : c ∈ ofInt v) : c.utf8Size = 1 := by
  cases v with
  | ofNat n => exact utf8Size_of_mem_ofNat h
  | negSucc n =>
    rcases List.mem_cons.1 h with rfl | h
    · decide
    · exact utf8Size_of_mem_ofNat h

/-- The longest decimal text of a word is that of the least one: a minus sign and nineteen
digits. -/
theorem length_ofInt_le {v : Int} (h0 : -2 ^ 63 ≤ v) (h1 : v < 2 ^ 63) : (ofInt v).length ≤ 20 := by
  have hdigits : ∀ n < 10 ^ 19, (ofNat n).length ≤ 19 := fun n hn =>
    (Nat.length_toDigits_le_iff (by decide) (by decide)).2 hn
  cases v with
  | ofNat n =>
    rw [Int.ofNat_eq_natCast] at h1
    have := hdigits n (by omega)
    exact Nat.le_succ_of_le this
  | negSucc n =>
    have := hdigits (n + 1) (by omega)
    exact Nat.succ_le_succ this

theorem utf8ByteSize_text_le (v : Value) : (text v.toInt).utf8ByteSize ≤ 20 := by
  unfold text
  rw [utf8ByteSize_ofList_of_one fun _ => utf8Size_of_mem_ofInt]
  exact length_ofInt_le v.le_toInt v.toInt_lt

example : (text Int64.minValue.toInt).utf8ByteSize = 20 := by decide

end Decimal

/-! ## Numbers of a stack -/

namespace Stack

@[simp]
theorem length_push (s : Stack) (v : Value) :
    (s.push v).values.length = s.values.length + 1 := by
  rw [values_push, List.length_append, List.length_singleton]

@[simp]
theorem length_drop (s : Stack) (n : Nat) : (s.drop n).values.length = s.values.length - n := by
  unfold values drop
  rw [List.length_reverse, List.length_reverse, List.length_drop]

end Stack

namespace Machine

variable {ρ : Type} {m : Machine ρ} {n : Nat}

/-! ## What the counter bounds -/

/-- At most `n` cells have been counted, and their number bounds the stack and the output. -/
structure Bounded (n : Nat) (m : Machine ρ) : Prop where
  steps_le : m.steps.toNat ≤ n
  length_le : m.stack.values.length ≤ m.steps.toNat + 1
  bytes_le : m.output.utf8ByteSize ≤ 20 * m.steps.toNat

theorem bounded_load (m : Machine ρ) (source : String) : (m.load source).Bounded 0 where
  steps_le := Nat.le_refl 0
  length_le := Nat.zero_le 1
  bytes_le := Nat.le_refl 0

theorem Bounded.mono {k : Nat} (h : m.Bounded n) (hk : n ≤ k) : m.Bounded k :=
  { h with steps_le := Nat.le_trans h.steps_le hk }

theorem Bounded.drop (h : m.Bounded n) (k : Nat) : (m.drop k).Bounded n where
  steps_le := h.steps_le
  length_le := by
    have hdrop : (m.drop k).stack.values.length = m.stack.values.length - k :=
      m.stack.length_drop k
    have hlength := h.length_le
    rw [hdrop]
    exact Nat.le_trans (Nat.sub_le _ _) hlength
  bytes_le := h.bytes_le

/-- A counter that has room for one more cell goes on by one. -/
theorem Bounded.toNat_steps_add_one (h : m.Bounded n) (hn : n + 1 < 2 ^ 64) :
    (m.steps + 1).toNat = m.steps.toNat + 1 := by
  have hsteps := h.steps_le
  have hroom : m.steps.toNat + 1 < 2 ^ 64 := by omega
  rw [UInt64.toNat_add]
  exact Nat.mod_eq_of_lt hroom

/-- Counting a cell keeps the bounds if it added no more than a cell can. -/
theorem Bounded.count {t : Machine ρ} (h : m.Bounded n) (hn : n + 1 < 2 ^ 64)
    (hsteps : t.steps = m.steps)
    (hlength : t.stack.values.length ≤ max (m.stack.values.length + 1) 2)
    (hbytes : t.output.utf8ByteSize ≤ m.output.utf8ByteSize + 20) : t.count.Bounded (n + 1) := by
  have hcount : t.count.steps.toNat = m.steps.toNat + 1 := by
    rw [← h.toNat_steps_add_one hn, ← hsteps]
    rfl
  obtain ⟨h1, h2, h3⟩ := h
  constructor
  · omega
  · show t.stack.values.length ≤ t.count.steps.toNat + 1
    omega
  · show t.output.utf8ByteSize ≤ 20 * t.count.steps.toNat
    omega

variable [RandomSource ρ]

/-! ## One instruction -/

/-- An instruction adds one number to the stack, or leaves two numbers where there were fewer. -/
theorem perform_length_le (m : Machine ρ) (i : Instruction) :
    (m.perform i).machine.stack.values.length ≤ max (m.stack.values.length + 1) 2 := by
  have hpush : ∀ (s : Machine ρ) v, (s.push v).stack.values.length = s.stack.values.length + 1 :=
    fun s v => s.stack.length_push v
  have hdrop : ∀ (s : Machine ρ) n, (s.drop n).stack.values.length = s.stack.values.length - n :=
    fun s n => s.stack.length_drop n
  cases i with
  | turnRandomly =>
    unfold perform
    cases RandomSource.sample m.random with
    | none => exact Nat.le_trans (Nat.le_succ _) (Nat.le_max_left _ _)
    | some choice => exact Nat.le_trans (Nat.le_succ _) (Nat.le_max_left _ _)
  | writeCharacter =>
    unfold perform
    cases Value.toChar? (m.peek 0) with
    | none =>
      simp only [Effect.fail, hdrop]
      omega
    | some c =>
      simp only [Effect.done, hdrop]
      omega
  | put =>
    unfold perform
    cases Value.toChar? (m.peek 2) with
    | none =>
      simp only [Effect.fail, hdrop]
      omega
    | some c =>
      simp only [Effect.done, hdrop]
      omega
  | bridge => exact Nat.le_trans (Nat.le_succ _) (Nat.le_max_left _ _)
  | _ =>
    simp only [perform, Effect.done, hpush, hdrop]
    omega

/-- An instruction writes at most the text of a number. -/
theorem perform_bytes_le (m : Machine ρ) (i : Instruction) :
    (m.perform i).machine.output.utf8ByteSize ≤ m.output.utf8ByteSize + 20 := by
  cases i with
  | writeNumber =>
    have htext := Decimal.utf8ByteSize_text_le (m.peek 0)
    simp only [perform, Effect.done, String.utf8ByteSize_append]
    omega
  | writeCharacter =>
    unfold perform
    cases Value.toChar? (m.peek 0) with
    | none => exact Nat.le_add_right _ _
    | some c =>
      have hc := c.utf8Size_le_four
      simp only [Effect.done, String.utf8ByteSize_push]
      omega
  | turnRandomly =>
    unfold perform
    cases RandomSource.sample m.random with
    | none => exact Nat.le_add_right _ _
    | some choice => exact Nat.le_add_right _ _
  | put =>
    unfold perform
    cases Value.toChar? (m.peek 2) with
    | none => exact Nat.le_add_right _ _
    | some c => exact Nat.le_add_right _ _
  | _ => exact Nat.le_add_right _ _

/-! ## One character -/

theorem execute_length_le (m : Machine ρ) (c : Char) :
    (m.execute c).machine.stack.values.length ≤ max (m.stack.values.length + 1) 2 := by
  unfold execute
  split
  · have hpush := m.stack.length_push (Value.ofChar c)
    simp only [Effect.done, advance, push]
    omega
  · cases Instruction.ofChar? c with
    | none => simp only [Effect.fail]; omega
    | some i =>
      have hperform := m.perform_length_le i
      simp only [Effect.advance]
      split
      · exact hperform
      · exact hperform

theorem execute_bytes_le (m : Machine ρ) (c : Char) :
    (m.execute c).machine.output.utf8ByteSize ≤ m.output.utf8ByteSize + 20 :=
  execute_keeps (P := fun s => s.output.utf8ByteSize ≤ m.output.utf8ByteSize + 20)
    (fun _ _ h => h) (fun _ h => h) (Nat.le_add_right _ _) m.perform_bytes_le c

/-! ## One cycle and many -/

theorem Bounded.step (h : m.Bounded n) (hn : n + 1 < 2 ^ 64) :
    m.step.machine.Bounded (n + 1) := by
  have hsettle : m.settle.Bounded n := ⟨h.steps_le, h.length_le, h.bytes_le⟩
  rcases m.step_cases with ⟨_, hs⟩ | ⟨_, _, hs⟩ | ⟨_, _, _, hs⟩ | ⟨_, _, s, hstop, hs⟩
  · rw [hs]
    exact h.mono (Nat.le_succ n)
  · rw [hs]
    exact ⟨Nat.le_succ_of_le h.steps_le, h.length_le, h.bytes_le⟩
  · rw [hs]
    exact hsettle.count hn (execute_steps _ _) (execute_length_le _ _) (execute_bytes_le _ _)
  · have hne : (m.settle.execute m.settle.cell).stop ≠ none := by simp [hstop]
    obtain ⟨k, hk⟩ := execute_of_stop hne
    rw [congrArg Progress.machine hs, hk]
    exact (hsettle.drop k).mono (Nat.le_succ n)

theorem Bounded.after (h : m.Bounded 0) (hn : n < 2 ^ 64) : (m.after n).Bounded n := by
  induction n with
  | zero => exact h
  | succ n ih => exact (ih (by omega)).step hn

/-- A loaded program that has made fewer cycles than the counter has room for has at most one number
more on its stack than it has counted cells, and has written at most twenty bytes for each of
them. -/
theorem counted_cells_bound_the_machine (m : Machine ρ) (source : String) (hn : n < 2 ^ 64) :
    let s := (m.load source).after n
    s.stack.values.length ≤ s.steps.toNat + 1 ∧ s.output.utf8ByteSize ≤ 20 * s.steps.toNat := by
  intro s
  have hs : s.Bounded n := (bounded_load m source).after hn
  exact ⟨hs.length_le, hs.bytes_le⟩

/-- Doubling the top of an empty stack leaves two numbers after one cell. The cycles that fail at the
next one are not counted, and add nothing. -/
theorem two_zeros_after_one_cell :
    let s := ((Machine.fresh (⟨0, 1⟩ : Progression)).load ":x").after 5
    (s.steps = 1 ∧ s.stack.values = [0, 0] ∧
        s.step.turn = .stopped (.fault (.unknownInstruction 'x' ⟨1, 0⟩))) ∧
      s.stack.values.length ≤ s.steps.toNat + 1 ∧ s.output.utf8ByteSize ≤ 20 * s.steps.toNat :=
  ⟨by decide, counted_cells_bound_the_machine _ ":x" (by decide)⟩

end Machine

end Befunge
