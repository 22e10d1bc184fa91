-- The calls that work on a loaded program, what one instruction leaves as it was,
-- and the machine after any number of cycles.
import Befunge.Session

namespace Befunge

/-! ## Moves -/

/-- A call that changes a machine and does not load a program. A run comes with a limit; a run
that ends does so within every limit that is large enough. -/
inductive Move where
  | execute (cell : Char)
  | step
  | push (value : Value)
  | pop
  | run (limit : Nat)
  deriving DecidableEq

def Move.call : Move → Call
  | execute c => .execute c
  | step => .step
  | push v => .push v
  | pop => .pop
  | run limit => .run limit

/-! ## The size of a playfield -/

theorem Playfield.width_write (g : Playfield) (x y : Int) (c : Char) :
    (g.write x y c).width = g.width := by
  unfold write
  split
  · rfl
  · rfl

theorem Playfield.height_write (g : Playfield) (x y : Int) (c : Char) :
    (g.write x y c).height = g.height := by
  unfold write
  split
  · exact height_set g _ _ c
  · rfl

/-! ## Characters of instructions -/

/-- The halting cell stands for no instruction: the cycle halts, and it executes nothing. -/
theorem Instruction.ne_haltCell_of_ofChar? {c : Char} {i : Instruction} (h : ofChar? c = some i) :
    c ≠ haltCell := by
  rintro rfl
  cases h

/-- The character that stands for an instruction. -/
def Instruction.cell : Instruction → Char
  | digit n => Nat.digitChar n
  | operate .add => '+'
  | operate .subtract => '-'
  | operate .multiply => '*'
  | operate .divide => '/'
  | operate .modulo => '%'
  | operate .greater => '\x60'
  | not => '!'
  | turn .right => '>'
  | turn .left => '<'
  | turn .up => '^'
  | turn .down => 'v'
  | turnRandomly => '?'
  | branchAcross => '_'
  | branchAlong => '|'
  | quote => quoteCell
  | duplicate => ':'
  | swap => '\\'
  | discard => '$'
  | writeNumber => '.'
  | writeCharacter => ','
  | bridge => '#'
  | put => 'p'
  | get => 'g'
  | blank => ' '

/-- No other character stands for an instruction than its own. -/
theorem Instruction.eq_cell_of_ofChar? {c : Char} {i : Instruction} (h : ofChar? c = some i) :
    c = i.cell := by
  unfold ofChar? at h
  split at h <;> cases h <;> rfl

namespace Machine

variable {ρ : Type}

/-! ## Ends of runs and of instructions -/

theorem ended_machine (p : Progress ρ) : (ended p).2 = p.machine := by
  unfold ended Progress.ending?
  split
  · rename_i e he
    split at he <;> cases he <;> rfl
  · rfl

theorem turn_of_ending? {p : Progress ρ} {e : Ending ρ} (h : p.ending? = some e) :
    p.turn =
      match e.fault with
      | none => .halted
      | some f => .stopped (.fault f) := by
  unfold Progress.ending? at h
  split at h
  · rename_i hturn
    cases h
    exact hturn
  · rename_i f hturn
    cases h
    exact hturn
  · cases h
  · cases h

theorem advance_stringMode (e : Effect ρ) :
    e.advance.machine.stringMode = e.machine.stringMode := by
  unfold Effect.advance
  split
  · rfl
  · rfl

/-! ## Cycle after cycle -/

/-- The machine after `n` cycles of a kind, whatever each of them came to. -/
def afterBy (cycle : Machine ρ → Cycle ρ) (m : Machine ρ) : Nat → Machine ρ
  | 0 => m
  | n + 1 => (cycle (afterBy cycle m n)).machine

theorem afterBy_zero (cycle : Machine ρ → Cycle ρ) (m : Machine ρ) : afterBy cycle m 0 = m := rfl

theorem afterBy_succ (cycle : Machine ρ → Cycle ρ) (m : Machine ρ) (n : Nat) :
    afterBy cycle m (n + 1) = (cycle (afterBy cycle m n)).machine := rfl

/-- What every cycle keeps holds after any number of them. -/
theorem afterBy_invariant {P : Machine ρ → Prop} {cycle : Machine ρ → Cycle ρ} {m : Machine ρ}
    (h0 : P m) (hstep : ∀ s, P s → P (cycle s).machine) (n : Nat) : P (afterBy cycle m n) := by
  induction n with
  | zero => exact h0
  | succ n ih => exact hstep _ ih

variable [RandomSource ρ]

/-- The machine after `n` cycles, whatever each of them came to. -/
abbrev after (m : Machine ρ) (n : Nat) : Machine ρ := afterBy step m n

theorem after_zero (m : Machine ρ) : m.after 0 = m := rfl

theorem after_succ (m : Machine ρ) (n : Nat) : m.after (n + 1) = (m.after n).step.machine := rfl

theorem after_succ_left (m : Machine ρ) (n : Nat) : m.after (n + 1) = m.step.machine.after n := by
  induction n with
  | zero => rfl
  | succ n ih => rw [after_succ, ih, after_succ]

/-- A machine at some moment of a session that starts with a machine without a program. -/
def Reachable (m : Machine ρ) : Prop :=
  ∃ (r : ρ) (calls : List Call), ((fresh r).answers calls).2 = m

/-! ## Move after move -/

theorem answer_execute (m : Machine ρ) (c : Char) :
    (m.answer (.execute c)).2 = (m.execute c).machine := by
  simp only [answer]
  split
  · rfl
  · rfl

/-- The replies to some moves in a row, and the machine that is left. -/
def plays (m : Machine ρ) (moves : List Move) : List Reply × Machine ρ :=
  m.answers (moves.map Move.call)

theorem plays_cons (m : Machine ρ) (a : Move) (moves : List Move) :
    m.plays (a :: moves) =
      ((m.answer a.call).1 :: ((m.answer a.call).2.plays moves).1,
        ((m.answer a.call).2.plays moves).2) := rfl

theorem plays_append (m : Machine ρ) (moves moves' : List Move) :
    m.plays (moves ++ moves') =
      ((m.plays moves).1 ++ ((m.plays moves).2.plays moves').1,
        ((m.plays moves).2.plays moves').2) := by
  induction moves generalizing m with
  | nil => rfl
  | cons a moves ih => rw [List.cons_append, plays_cons, plays_cons, ih, List.cons_append]

/-- The reply to a move is the one that the machine left by the moves before it gives. -/
theorem plays_getElem? (m : Machine ρ) (moves : List Move) (k : Nat) :
    (m.plays moves).1[k]? =
      moves[k]?.map fun a => ((m.plays (moves.take k)).2.answer a.call).1 := by
  induction moves generalizing m k with
  | nil => rfl
  | cons a moves ih =>
    rw [plays_cons]
    cases k with
    | zero => rfl
    | succ k =>
      rw [List.getElem?_cons_succ, List.getElem?_cons_succ, List.take_succ_cons, plays_cons]
      exact ih _ k

/-- What every move of a list keeps holds after all of them. -/
theorem plays_invariant {P : Machine ρ → Prop} {m : Machine ρ} {moves : List Move} (h0 : P m)
    (hmove : ∀ a ∈ moves, ∀ s, P s → P (s.answer a.call).2) : P (m.plays moves).2 := by
  induction moves generalizing m with
  | nil => exact h0
  | cons a moves ih =>
    rw [plays_cons]
    apply ih
    · exact hmove a List.mem_cons_self m h0
    · intro b hb
      exact hmove b (List.mem_cons_of_mem a hb)

theorem runFor_invariant {P : Machine ρ → Prop} {m : Machine ρ} (h0 : P m)
    (hstep : ∀ s, P s → P s.step.machine) (n : Nat) : P (m.runFor n).machine := by
  induction n generalizing m with
  | zero => exact h0
  | succ n ih =>
    by_cases hturn : m.step.turn = .running
    · rw [runFor_succ_of_running hturn]
      exact ih (hstep m h0)
    · rw [runFor_succ_of_ne hturn]
      exact hstep m h0

/-! ## One instruction -/

/-- What an instruction can do, whether it succeeds or fails: change the stack and choose a heading,
perhaps by chance, begin or end string mode, move the pointer, write something, or overwrite a
cell. -/
theorem perform_cases (m : Machine ρ) (i : Instruction) :
    (∃ stack heading random,
        (m.perform i).machine =
          { m with stack := stack, heading := heading, random := random }) ∨
      (i = .quote ∧ (m.perform i).machine = { m with stringMode := !m.stringMode }) ∨
      (i = .bridge ∧
        (m.perform i).machine = { m with position := m.position.advance m.heading }) ∨
      (∃ stack more,
        (m.perform i).machine = { m with stack := stack, output := m.output ++ more }) ∨
      (∃ stack x y c,
        (m.perform i).machine = { m with stack := stack, field := m.field.write x y c }) := by
  cases i with
  | quote => exact Or.inr (Or.inl ⟨rfl, rfl⟩)
  | bridge => exact Or.inr (Or.inr (Or.inl ⟨rfl, rfl⟩))
  | writeNumber => exact Or.inr (Or.inr (Or.inr (Or.inl ⟨_, _, rfl⟩)))
  | writeCharacter =>
    unfold perform
    cases Value.toChar? (m.peek 0) with
    | none => exact Or.inl ⟨_, _, _, rfl⟩
    | some c =>
      have hpush : m.output.push c = m.output ++ String.singleton c := String.push_eq_append c
      refine Or.inr (Or.inr (Or.inr (Or.inl ⟨(m.drop 1).stack, String.singleton c, ?_⟩)))
      rw [← hpush]
      rfl
  | put =>
    unfold perform
    cases Value.toChar? (m.peek 2) with
    | none => exact Or.inl ⟨_, _, _, rfl⟩
    | some c => exact Or.inr (Or.inr (Or.inr (Or.inr ⟨_, _, _, _, rfl⟩)))
  | turnRandomly =>
    unfold perform
    cases RandomSource.sample m.random with
    | none => exact Or.inl ⟨_, _, _, rfl⟩
    | some choice => exact Or.inl ⟨_, _, _, rfl⟩
  | _ => exact Or.inl ⟨_, _, _, rfl⟩

/-- An instruction overwrites at most one cell. -/
theorem perform_field (m : Machine ρ) (i : Instruction) :
    (m.perform i).machine.field = m.field ∨
      ∃ x y c, (m.perform i).machine.field = m.field.write x y c := by
  rcases m.perform_cases i with ⟨_, _, _, h⟩ | ⟨_, h⟩ | ⟨_, h⟩ | ⟨_, _, h⟩ | ⟨_, x, y, c, h⟩
  · exact Or.inl (by rw [h])
  · exact Or.inl (by rw [h])
  · exact Or.inl (by rw [h])
  · exact Or.inl (by rw [h])
  · exact Or.inr ⟨x, y, c, by rw [h]⟩

/-- What overwriting a cell keeps of a playfield is kept by an instruction. -/
theorem perform_keeps {P : Playfield → Prop} (hwrite : ∀ g x y c, P g → P (g.write x y c))
    {m : Machine ρ} (h : P m.field) (i : Instruction) : P (m.perform i).machine.field := by
  rcases m.perform_field i with hf | ⟨x, y, c, hf⟩
  · rw [hf]
    exact h
  · rw [hf]
    exact hwrite m.field x y c h

@[simp]
theorem perform_width (m : Machine ρ) (i : Instruction) :
    (m.perform i).machine.field.width = m.field.width :=
  perform_keeps (P := fun g => g.width = m.field.width)
    (fun g x y c h => (g.width_write x y c).trans h) rfl i

@[simp]
theorem perform_height (m : Machine ρ) (i : Instruction) :
    (m.perform i).machine.field.height = m.field.height :=
  perform_keeps (P := fun g => g.height = m.field.height)
    (fun g x y c h => (g.height_write x y c).trans h) rfl i

/-- Only the bridge moves the pointer by itself. -/
theorem perform_position (m : Machine ρ) {i : Instruction} (h : i ≠ .bridge) :
    (m.perform i).machine.position = m.position := by
  rcases m.perform_cases i with ⟨_, _, _, he⟩ | ⟨_, he⟩ | ⟨hi, _⟩ | ⟨_, _, he⟩ | ⟨_, _, _, _, he⟩
  · rw [he]
  · rw [he]
  · exact absurd hi h
  · rw [he]
  · rw [he]

/-- Only the quote begins or ends string mode. -/
theorem perform_stringMode (m : Machine ρ) {i : Instruction} (h : i ≠ .quote) :
    (m.perform i).machine.stringMode = m.stringMode := by
  rcases m.perform_cases i with ⟨_, _, _, he⟩ | ⟨hi, _⟩ | ⟨_, he⟩ | ⟨_, _, he⟩ | ⟨_, _, _, _, he⟩
  · rw [he]
  · exact absurd hi h
  · rw [he]
  · rw [he]
  · rw [he]

/-- Only the cycle halts a program, and no instruction does. -/
theorem perform_status (m : Machine ρ) (i : Instruction) :
    (m.perform i).machine.status = m.status := by
  rcases m.perform_cases i with ⟨_, _, _, h⟩ | ⟨_, h⟩ | ⟨_, h⟩ | ⟨_, _, h⟩ | ⟨_, _, _, _, h⟩
  all_goals rw [h]

/-- Outside of string mode, a character does what its instruction does, and moves on. -/
theorem execute_of_instruction {m : Machine ρ} {c : Char} {i : Instruction}
    (hmode : m.stringMode = false) (hi : Instruction.ofChar? c = some i) :
    m.execute c = (m.perform i).advance := by
  unfold execute
  rw [if_neg (by simp [hmode]), hi]

/-- Outside of string mode, a character that stands for no instruction fails. -/
theorem execute_of_unknown {m : Machine ρ} {c : Char} (hmode : m.stringMode = false)
    (hi : Instruction.ofChar? c = none) :
    m.execute c = .fail m (.unknownInstruction c m.position) := by
  unfold execute
  rw [if_neg (by simp [hmode]), hi]

/-- What pushing and advancing keep and every instruction brings about holds after a character has
been executed. -/
theorem execute_keeps {P : Machine ρ → Prop} (hpush : ∀ s v, P s → P (s.push v))
    (hadvance : ∀ s, P s → P s.advance) {m : Machine ρ} (h : P m)
    (hperform : ∀ i, P (m.perform i).machine) (c : Char) : P (m.execute c).machine := by
  unfold execute
  split
  · exact hadvance _ (hpush _ _ h)
  · split
    · rename_i i _
      unfold Effect.advance
      split
      · exact hadvance _ (hperform i)
      · exact hperform i
    · exact h

theorem execute_status (m : Machine ρ) (c : Char) : (m.execute c).machine.status = m.status :=
  execute_keeps (P := fun s => s.status = m.status) (fun _ _ h => h) (fun _ h => h) rfl
    m.perform_status c

/-- Only the cycle counts cells, and no instruction does. -/
theorem perform_steps (m : Machine ρ) (i : Instruction) :
    (m.perform i).machine.steps = m.steps := by
  rcases m.perform_cases i with ⟨_, _, _, h⟩ | ⟨_, h⟩ | ⟨_, h⟩ | ⟨_, _, h⟩ | ⟨_, _, _, _, h⟩
  all_goals rw [h]

theorem execute_steps (m : Machine ρ) (c : Char) : (m.execute c).machine.steps = m.steps :=
  execute_keeps (P := fun s => s.steps = m.steps) (fun _ _ h => h) (fun _ h => h) rfl
    m.perform_steps c

theorem execute_field (m : Machine ρ) (c : Char) :
    (m.execute c).machine.field = m.field ∨
      ∃ x y d, (m.execute c).machine.field = m.field.write x y d :=
  execute_keeps (P := fun s => s.field = m.field ∨ ∃ x y d, s.field = m.field.write x y d)
    (fun _ _ h => h) (fun _ h => h) (Or.inl rfl) m.perform_field c

theorem perform_writeCharacter {m : Machine ρ} {c : Char}
    (h : Value.toChar? (m.peek 0) = some c) :
    m.perform .writeCharacter = .done { m.drop 1 with output := m.output.push c } := by
  unfold perform
  rw [h]

theorem perform_put {m : Machine ρ} {c : Char} (h : Value.toChar? (m.peek 2) = some c) :
    m.perform .put =
      .done { m.drop 3 with field := m.field.write (m.peek 1).toInt (m.peek 0).toInt c } := by
  unfold perform
  rw [h]

/-- An instruction that stops the machine has popped numbers and done nothing else by then. -/
theorem perform_of_stop {m : Machine ρ} {i : Instruction} (h : (m.perform i).stop ≠ none) :
    ∃ n, (m.perform i).machine = m.drop n := by
  cases i with
  | turnRandomly =>
    unfold perform at h ⊢
    cases hsample : RandomSource.sample m.random with
    | none => exact ⟨0, rfl⟩
    | some choice =>
      simp only [hsample] at h
      exact absurd rfl h
  | writeCharacter =>
    unfold perform at h ⊢
    cases hcode : Value.toChar? (m.peek 0) with
    | none => exact ⟨1, rfl⟩
    | some d =>
      simp only [hcode] at h
      exact absurd rfl h
  | put =>
    unfold perform at h ⊢
    cases hcode : Value.toChar? (m.peek 2) with
    | none => exact ⟨3, rfl⟩
    | some d =>
      simp only [hcode] at h
      exact absurd rfl h
  | _ => exact absurd rfl h

/-- A character that stops the machine has popped numbers and done nothing else by then: the pointer
is still where it was. -/
theorem execute_of_stop {m : Machine ρ} {c : Char} (h : (m.execute c).stop ≠ none) :
    ∃ n, (m.execute c).machine = m.drop n := by
  unfold execute at h ⊢
  split
  · rename_i hmode
    rw [if_pos hmode] at h
    exact absurd rfl h
  · rename_i hmode
    rw [if_neg hmode] at h
    cases hi : Instruction.ofChar? c with
    | none => exact ⟨0, rfl⟩
    | some i =>
      simp only [hi] at h ⊢
      unfold Effect.advance at h ⊢
      split
      · rename_i hnone
        rw [hnone] at h
        exact absurd rfl h
      · rename_i s hstop
        exact perform_of_stop (by simp [hstop])

/-! ## One cycle -/

/-- A cycle outside of string mode performs the instruction under the pointer and moves on. -/
theorem step_of_instruction {m m' : Machine ρ} {i : Instruction} (hs : m.status = .running)
    (hoff : m.stringMode = false) (hi : Instruction.ofChar? m.settle.cell = some i)
    (hp : m.settle.perform i = .done m') : m.step.toProgress = ⟨m'.advance.count, .running⟩ := by
  have he : m.settle.execute m.settle.cell = .done m'.advance := by
    rw [execute_of_instruction (m := m.settle) hoff hi, hp]
    rfl
  rw [step_of_running hs]
  unfold visit
  rw [if_neg (Instruction.ne_haltCell_of_ofChar? hi), he]
  rfl

/-- What a cycle can do: nothing to a halted machine, halt it, execute a cell and count it, or
fail at a cell. -/
theorem step_cases (m : Machine ρ) :
    (m.status = .halted ∧ m.step = ⟨⟨m, .halted⟩, []⟩) ∨
      (m.status = .running ∧ m.settle.cell = haltCell ∧
        m.step = ⟨⟨{ m.settle with status := .halted }, .halted⟩, []⟩) ∨
      (m.status = .running ∧ m.settle.cell ≠ haltCell ∧
        (m.settle.execute m.settle.cell).stop = none ∧
        m.step = ⟨⟨(m.settle.execute m.settle.cell).machine.count, .running⟩,
          [.step m.settle.position m.settle.cell m.heading]⟩) ∨
      (m.status = .running ∧ m.settle.cell ≠ haltCell ∧
        ∃ s, (m.settle.execute m.settle.cell).stop = some s ∧
          m.step.toProgress = ⟨(m.settle.execute m.settle.cell).machine, .stopped s⟩) := by
  cases hs : m.status with
  | halted => exact Or.inl ⟨rfl, step_of_halted hs⟩
  | running =>
    right
    rw [step_of_running hs]
    unfold visit
    by_cases hc : m.settle.cell = haltCell
    · left
      exact ⟨rfl, hc, by rw [if_pos hc]⟩
    · right
      rw [if_neg hc]
      cases he : (m.settle.execute m.settle.cell).stop with
      | none =>
        left
        refine ⟨rfl, hc, rfl, ?_⟩
        simp only [he]
        rfl
      | some s =>
        right
        refine ⟨rfl, hc, s, rfl, ?_⟩
        cases s <;> simp only [he]

/-- A cycle that leaves the machine running has executed the cell that it fetched, and counted
it. -/
theorem step_of_turn_running {m : Machine ρ} (h : m.step.turn = .running) :
    m.status = .running ∧ m.settle.cell ≠ haltCell ∧
      (m.settle.execute m.settle.cell).stop = none ∧
      m.step = ⟨⟨(m.settle.execute m.settle.cell).machine.count, .running⟩,
        [.step m.settle.position m.settle.cell m.heading]⟩ := by
  rcases m.step_cases with ⟨_, hs⟩ | ⟨_, _, hs⟩ | hexecuted | ⟨_, _, s, _, hs⟩
  · rw [hs] at h
    cases h
  · rw [hs] at h
    cases h
  · exact hexecuted
  · rw [congrArg Progress.turn hs] at h
    cases h

/-- A cycle that stops the machine has executed the cell that it fetched, and stopped there. -/
theorem step_of_turn_stopped {m : Machine ρ} {stop : Stop} (h : m.step.turn = .stopped stop) :
    m.status = .running ∧ m.settle.cell ≠ haltCell ∧
      (m.settle.execute m.settle.cell).stop = some stop ∧
      m.step.machine = (m.settle.execute m.settle.cell).machine := by
  rcases m.step_cases with ⟨_, hs⟩ | ⟨_, _, hs⟩ | ⟨_, _, _, hs⟩ | ⟨hrun, hc, s, hstop, hs⟩
  · rw [hs] at h
    cases h
  · rw [hs] at h
    cases h
  · rw [hs] at h
    cases h
  · rw [congrArg Progress.turn hs] at h
    cases h
    exact ⟨hrun, hc, hstop, congrArg Progress.machine hs⟩

/-- Only a quote begins or ends string mode. -/
theorem step_stringMode {m : Machine ρ} (hc : m.settle.cell ≠ quoteCell) :
    m.step.machine.stringMode = m.stringMode := by
  have he : (m.settle.execute m.settle.cell).machine.stringMode = m.stringMode := by
    unfold execute
    split
    · rfl
    · split
      · rename_i i hi
        have hne : i ≠ .quote := by
          rintro rfl
          exact hc (Instruction.eq_cell_of_ofChar? hi)
        rw [advance_stringMode, perform_stringMode _ hne]
        rfl
      · rfl
  rcases m.step_cases with ⟨_, h⟩ | ⟨_, _, h⟩ | ⟨_, _, _, h⟩ | ⟨_, _, s, _, h⟩
  · rw [h]
  · rw [h]
    rfl
  · rw [h]
    exact he
  · rw [h]
    exact he

/-- A cycle overwrites at most one cell. -/
theorem step_field (m : Machine ρ) :
    m.step.machine.field = m.field ∨ ∃ x y c, m.step.machine.field = m.field.write x y c := by
  rcases m.step_cases with ⟨_, h⟩ | ⟨_, _, h⟩ | ⟨_, _, _, h⟩ | ⟨_, _, s, _, h⟩
  · exact Or.inl (by rw [h])
  · exact Or.inl (by rw [h]; rfl)
  · rw [h]
    exact m.settle.execute_field _
  · rw [h]
    exact m.settle.execute_field _

/-- What overwriting a cell keeps of a playfield is kept by a cycle. -/
theorem step_keeps {P : Playfield → Prop} (hwrite : ∀ g x y c, P g → P (g.write x y c))
    {m : Machine ρ} (h : P m.field) : P m.step.machine.field := by
  rcases m.step_field with hf | ⟨x, y, c, hf⟩
  · rw [hf]
    exact h
  · rw [hf]
    exact hwrite m.field x y c h

theorem step_width (m : Machine ρ) : m.step.machine.field.width = m.field.width :=
  step_keeps (P := fun g => g.width = m.field.width)
    (fun g x y c h => (g.width_write x y c).trans h) rfl

theorem step_height (m : Machine ρ) : m.step.machine.field.height = m.field.height :=
  step_keeps (P := fun g => g.height = m.field.height)
    (fun g x y c h => (g.height_write x y c).trans h) rfl

theorem after_width (m : Machine ρ) (n : Nat) : (m.after n).field.width = m.field.width :=
  afterBy_invariant (P := fun s => s.field.width = m.field.width) rfl
    (fun s hs => (step_width s).trans hs) n

theorem after_height (m : Machine ρ) (n : Nat) : (m.after n).field.height = m.field.height :=
  afterBy_invariant (P := fun s => s.field.height = m.field.height) rfl
    (fun s hs => (step_height s).trans hs) n

theorem wellFormed_after {m : Machine ρ} (hg : m.field.WellFormed) (n : Nat) :
    (m.after n).field.WellFormed :=
  afterBy_invariant (P := fun s => s.field.WellFormed) hg
    (fun _ hs => step_keeps (fun _ x y c h => h.write x y c) hs) n

end Machine

end Befunge
