-- Division of words. The quotient is rounded toward zero and the remainder has the sign of the
-- dividend. One quotient is too large for a word, the least word divided by minus one; it wraps
-- around. The laws of division hold for every other pair of words without any wrapping around, and
-- no other quotient and remainder obey them.
import Befunge.Proofs.Stepping
import Befunge.Random.Progression

namespace Befunge

namespace Value

variable {b a q r : Value}

/-! ## Laws -/

/-- The quotient of `b` by `a` is too large for a word. -/
def Overflows (b a : Value) : Prop := b = Int64.minValue ∧ a = -1

instance (b a : Value) : Decidable (Overflows b a) := inferInstanceAs (Decidable (_ ∧ _))

/-- The laws for a quotient `q` and a remainder `r` of `b` by `a`. -/
structure Divided (b a q r : Value) : Prop where
  /-- Division by zero gives zero twice. -/
  by_zero : a = 0 → q = 0 ∧ r = 0
  /-- The dividend is the quotient times the divisor, and the remainder, in words. -/
  wraps : a ≠ 0 → q * a + r = b
  /-- It is that in integers too if the quotient is not too large. -/
  exact : a ≠ 0 → ¬Overflows b a → q.toInt * a.toInt + r.toInt = b.toInt
  /-- The remainder is smaller than the divisor. -/
  smaller : a ≠ 0 → r.toInt.natAbs < a.toInt.natAbs
  /-- The remainder has the sign of the dividend. -/
  sign : r = 0 ∨ r.toInt.sign = b.toInt.sign
  /-- The quotient that is too large is the least word. -/
  overflow : Overflows b a → q = Int64.minValue ∧ r = 0

/-! ## Quotients and remainders as integers -/

theorem toInt_quotient (ha : a ≠ 0) (hb : ¬Overflows b a) :
    (quotient b a).toInt = b.toInt.tdiv a.toInt := by
  unfold quotient
  rw [if_neg ha]
  by_cases hmin : b = Int64.minValue
  · apply Int64.toInt_div_of_ne_right
    intro hone
    exact hb ⟨hmin, hone⟩
  · exact Int64.toInt_div_of_ne_left b a hmin

theorem toInt_remainder (ha : a ≠ 0) : (remainder b a).toInt = b.toInt.tmod a.toInt := by
  unfold remainder
  rw [if_neg ha]
  exact Int64.toInt_mod b a

theorem quotient_of_overflows (h : Overflows b a) : quotient b a = Int64.minValue := by
  obtain ⟨rfl, rfl⟩ := h
  decide

theorem remainder_of_overflows (h : Overflows b a) : remainder b a = 0 := by
  obtain ⟨rfl, rfl⟩ := h
  decide

/-! ## The laws hold -/

/-- What holds in integers holds in words. -/
theorem mul_add_eq_of_toInt (h : q.toInt * a.toInt + r.toInt = b.toInt) : q * a + r = b := by
  rw [← Int64.toInt_inj, Int64.toInt_add, Int64.toInt_mul, Int.bmod_add_bmod, h]
  exact Int64.toInt_bmod b

theorem sign_tmod_eq (n d : Int) : n.tmod d = 0 ∨ (n.tmod d).sign = n.sign := by
  rw [Int.sign_tmod]
  by_cases h : d ∣ n
  · exact Or.inl (Int.tmod_eq_zero_of_dvd h)
  · rw [if_neg h]
    exact Or.inr rfl

/-- The quotient and the remainder obey the laws. -/
theorem divided_quotient_remainder (b a : Value) :
    Divided b a (quotient b a) (remainder b a) := by
  have hexact : a ≠ 0 → ¬Overflows b a →
      (quotient b a).toInt * a.toInt + (remainder b a).toInt = b.toInt := by
    intro ha hb
    rw [toInt_quotient ha hb, toInt_remainder ha]
    exact Int.tdiv_mul_add_tmod b.toInt a.toInt
  refine ⟨?_, ?_, hexact, ?_, ?_, ?_⟩
  · rintro rfl
    exact ⟨rfl, rfl⟩
  · intro ha
    by_cases hb : Overflows b a
    · rw [quotient_of_overflows hb, remainder_of_overflows hb, hb.1, hb.2]
      decide
    · exact mul_add_eq_of_toInt (hexact ha hb)
  · intro ha
    have hpos : 0 < a.toInt.natAbs := Int.natAbs_pos.2 fun h => ha (toInt_eq_zero_iff.1 h)
    rw [toInt_remainder ha, Int.natAbs_tmod]
    exact Nat.mod_lt _ hpos
  · by_cases ha : a = 0
    · exact Or.inl (if_pos ha)
    · rw [← toInt_eq_zero_iff, toInt_remainder ha]
      exact sign_tmod_eq b.toInt a.toInt
  · intro hb
    exact ⟨quotient_of_overflows hb, remainder_of_overflows hb⟩

/-! ## Nothing else obeys them -/

/-- An integer has one quotient and one remainder whose sign is its own. -/
theorem eq_tdiv_and_eq_tmod {n d k s : Int} (hd : d ≠ 0) (hsum : k * d + s = n)
    (hsmall : s.natAbs < d.natAbs) (hsign : s = 0 ∨ s.sign = n.sign) :
    n.tdiv d = k ∧ n.tmod d = s := by
  have hsum' : s + d * k = n := by rw [Int.mul_comm, Int.add_comm]; exact hsum
  rcases Int.le_total 0 n with hn | hn
  · have hs : 0 ≤ s := by
      rcases hsign with rfl | hsign
      · exact Int.le_refl 0
      · rw [← Int.sign_nonneg_iff, hsign]
        exact Int.sign_nonneg_iff.2 hn
    exact (Int.tdiv_tmod_unique hn hd).2 ⟨hsum', hs, by omega⟩
  · have hs : s ≤ 0 := by
      rcases hsign with rfl | hsign
      · exact Int.le_refl 0
      · rw [← Int.sign_nonpos_iff, hsign]
        exact Int.sign_nonpos_iff.2 hn
    exact (Int.tdiv_tmod_unique' hn hd).2 ⟨hsum', by omega, hs⟩

/-- What obeys the laws is the quotient and the remainder. -/
theorem Divided.eq (h : Divided b a q r) : q = quotient b a ∧ r = remainder b a := by
  by_cases ha : a = 0
  · subst ha
    exact h.by_zero rfl
  by_cases hb : Overflows b a
  · rw [quotient_of_overflows hb, remainder_of_overflows hb]
    exact h.overflow hb
  have hsign : r.toInt = 0 ∨ r.toInt.sign = b.toInt.sign := by
    rw [toInt_eq_zero_iff]
    exact h.sign
  have hdivisor : a.toInt ≠ 0 := fun h0 => ha (toInt_eq_zero_iff.1 h0)
  obtain ⟨hq, hr⟩ := eq_tdiv_and_eq_tmod hdivisor (h.exact ha hb) (h.smaller ha) hsign
  rw [← Int64.toInt_inj, ← Int64.toInt_inj, toInt_quotient ha hb, toInt_remainder ha]
  exact ⟨hq.symm, hr.symm⟩

theorem divided_iff : Divided b a q r ↔ q = quotient b a ∧ r = remainder b a := by
  constructor
  · exact Divided.eq
  · rintro ⟨rfl, rfl⟩
    exact divided_quotient_remainder b a

end Value

/-! ## The two instructions -/

namespace Stack

/-- The two upper numbers of a stack are the last of its numbers from bottom to top, and zero where
there are not so many. -/
theorem peek_eq_getLastD (s : Stack) :
    s.peek 0 = s.values.getLastD 0 ∧ s.peek 1 = s.values.dropLast.getLastD 0 := by
  obtain ⟨items⟩ := s
  rcases items with _ | ⟨a, _ | ⟨b, rest⟩⟩ <;> simp [peek, values]

theorem drop_two (s : Stack) : s.drop 2 = ofValues s.values.dropLast.dropLast := by
  obtain ⟨items⟩ := s
  rcases items with _ | ⟨a, _ | ⟨b, rest⟩⟩ <;> simp [drop, values, ofValues]

end Stack

namespace Machine

variable {ρ : Type} [RandomSource ρ]

/-- The machine with other numbers on its stack, the bottom one first. -/
def withValues (m : Machine ρ) (values : List Value) : Machine ρ :=
  { m with stack := Stack.ofValues values }

/-- An operator takes the last two numbers of the stack and leaves its result in their place. -/
theorem execute_operator {m : Machine ρ} (hmode : m.stringMode = false) {c : Char} {op : Operator}
    (hc : Instruction.ofChar? c = some (.operate op)) :
    m.execute c = .done (m.withValues (m.stack.values.dropLast.dropLast ++
      [op.apply (m.stack.values.dropLast.getLastD 0) (m.stack.values.getLastD 0)])).advance := by
  obtain ⟨ha, hb⟩ := m.stack.peek_eq_getLastD
  rw [execute_of_instruction hmode hc]
  unfold withValues
  rw [← Stack.push_ofValues, ← Stack.drop_two, ← ha, ← hb]
  rfl

/-- The laws of division have one solution for every dividend and divisor, which are the quotient
and the remainder, and the quotient is rounded toward zero unless it is too large. Outside of string
mode, `/` and `%` take the last two numbers of the stack, zero for one that is missing, and leave
the quotient and the remainder of the deeper one by the upper one in their place. -/
theorem the_laws_of_division_determine_it :
    (∀ b a q r : Value,
      Value.Divided b a q r ↔ q = Value.quotient b a ∧ r = Value.remainder b a) ∧
    (∀ b a : Value, a ≠ 0 → ¬Value.Overflows b a →
      (Value.quotient b a).toInt = b.toInt.tdiv a.toInt) ∧
    ∀ m : Machine ρ, m.stringMode = false →
      let a := m.stack.values.getLastD 0
      let b := m.stack.values.dropLast.getLastD 0
      let rest := m.stack.values.dropLast.dropLast
      m.execute '/' = .done (m.withValues (rest ++ [Value.quotient b a])).advance ∧
        m.execute '%' = .done (m.withValues (rest ++ [Value.remainder b a])).advance := by
  refine ⟨?_, ?_, ?_⟩
  · intro b a q r
    exact Value.divided_iff
  · intro b a ha hb
    exact Value.toInt_quotient ha hb
  · intro m hmode a b rest
    have hdivide : Instruction.ofChar? '/' = some (.operate .divide) := rfl
    have hmodulo : Instruction.ofChar? '%' = some (.operate .modulo) := rfl
    exact ⟨execute_operator hmode hdivide, execute_operator hmode hmodulo⟩

/-- Minus seven by two is minus three, and minus one remains. A number that stands alone divides
zero. The least word by minus one is the least word. -/
theorem a_quotient_is_rounded_toward_zero :
    let m := ((Machine.fresh (⟨0, 1⟩ : Progression)).push (-7)).push 2
    let alone := (Machine.fresh (⟨0, 1⟩ : Progression)).push 2
    (m.stringMode = false ∧ alone.stringMode = false ∧ ¬Value.Overflows (-7) 2) ∧
      (Value.quotient (-7) 2).toInt = Int.tdiv (-7) 2 ∧
      m.execute '/' = .done (m.withValues [-3]).advance ∧
      m.execute '%' = .done (m.withValues [-1]).advance ∧
      alone.execute '/' = .done (alone.withValues [0]).advance ∧
      Value.Divided Int64.minValue (-1) Int64.minValue 0 := by
  intro m alone
  obtain ⟨hlaws, hround, hexecute⟩ := the_laws_of_division_determine_it (ρ := Progression)
  have hb : ¬Value.Overflows (-7) 2 := by decide
  have hthree : Value.quotient (-7) 2 = -3 := by decide
  have hone : Value.remainder (-7) 2 = -1 := by decide
  have hnone : Value.quotient 0 2 = 0 := by decide
  refine ⟨⟨rfl, rfl, hb⟩, hround (-7) 2 (by decide) hb, ?_, ?_, ?_, ?_⟩
  · rw [← hthree]
    exact (hexecute m rfl).1
  · rw [← hone]
    exact (hexecute m rfl).2
  · rw [← hnone]
    exact (hexecute alone rfl).1
  · exact (hlaws _ _ _ _).2 (by decide)

end Machine

end Befunge
