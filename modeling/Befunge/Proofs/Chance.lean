-- Chance. A session takes from its random source one heading for each `?` that it executes
-- outside of string mode, in the order of the source, and nothing else. So two sources that give
-- the same headings for as many choices as a session makes are the same to it.
import Befunge.Proofs.Locality
import Befunge.Random.Progression

namespace Befunge

/-! ## Choices in a row -/

namespace RandomSource

variable {ρ ρ' : Type} [RandomSource ρ] [RandomSource ρ']

/-- The headings of `n` choices in a row and the source after them. There are none if the source
stalls before. -/
def choose : Nat → ρ → Option (List Heading × ρ)
  | 0, r => some ([], r)
  | n + 1, r =>
    match sample r with
    | none => none
    | some (h, next) => (choose n next).map fun p => (h :: p.1, p.2)

/-- The first `n` choices of two sources give the same headings, up to where both stall. -/
def AgreeFor (n : Nat) (r : ρ) (r' : ρ') : Prop :=
  ∀ k ≤ n, (choose k r).map Prod.fst = (choose k r').map Prod.fst

instance (n : Nat) (r : ρ) (r' : ρ') : Decidable (AgreeFor n r r') :=
  inferInstanceAs (Decidable (∀ k ≤ n, _))

variable {r r₁ r₂ : ρ} {r' : ρ'} {hs hs' : List Heading}

/-- Choosing once more is choosing once and going on from there. -/
theorem choose_succ_eq_some_iff {n : Nat} :
    choose (n + 1) r = some (hs, r₂) ↔
      ∃ g gs r₁, sample r = some (g, r₁) ∧ choose n r₁ = some (gs, r₂) ∧ hs = g :: gs := by
  rw [choose]
  cases hsample : sample r with
  | none => simp
  | some p =>
    obtain ⟨g, r₁⟩ := p
    simp only [Option.map_eq_some_iff, Prod.mk.injEq]
    constructor
    · rintro ⟨⟨gs, _⟩, hrest, rfl, rfl⟩
      exact ⟨g, gs, r₁, rfl, hrest, rfl⟩
    · rintro ⟨_, gs, _, hfirst, hrest, rfl⟩
      cases hfirst
      exact ⟨(gs, r₂), hrest, rfl, rfl⟩

theorem choose_append (h : choose hs.length r = some (hs, r₁))
    (h' : choose hs'.length r₁ = some (hs', r₂)) :
    choose (hs ++ hs').length r = some (hs ++ hs', r₂) := by
  induction hs generalizing r with
  | nil =>
    cases h
    exact h'
  | cons g hs ih =>
    obtain ⟨_, _, next, hsample, hrest, heq⟩ := choose_succ_eq_some_iff.1 h
    cases heq
    exact choose_succ_eq_some_iff.2 ⟨g, hs ++ hs', next, hsample, ih hrest, rfl⟩

theorem AgreeFor.mono {n k : Nat} (h : AgreeFor n r r') (hk : k ≤ n) : AgreeFor k r r' :=
  fun l hl => h l (Nat.le_trans hl hk)

/-- Sources that agree for one choice more both stall or choose the same heading, and go on to
agree for the rest. -/
theorem AgreeFor.sample {n : Nat} (h : AgreeFor (n + 1) r r') :
    sample r = none ∧ sample r' = none ∨
      ∃ g s s', RandomSource.sample r = some (g, s) ∧ RandomSource.sample r' = some (g, s') ∧
        AgreeFor n s s' := by
  have hfirst := h 1 (by omega)
  unfold choose at hfirst
  rcases hr : RandomSource.sample r with _ | ⟨g, s⟩ <;>
    rcases hr' : RandomSource.sample r' with _ | ⟨g', s'⟩ <;> simp [hr, hr', choose] at hfirst
  · exact Or.inl ⟨rfl, rfl⟩
  · subst hfirst
    refine Or.inr ⟨g, s, s', rfl, rfl, ?_⟩
    intro k hk
    have hnext := h (k + 1) (by omega)
    unfold choose at hnext
    simp only [hr, hr', Option.map_map] at hnext
    -- The first heading is the same, so the rest is.
    have hinj : Function.Injective (Option.map (List.cons g)) :=
      Option.map_injective fun _ _ h => (List.cons.inj h).2
    apply hinj
    rw [Option.map_map, Option.map_map]
    exact hnext

end RandomSource

/-! ## The characters that a session executes -/

/-- A character that is handed to a machine to be executed. -/
structure Execution (ρ : Type) where
  machine : Machine ρ
  cell : Char

/-- The character asks for a choice: it is a `?`, and string mode does not capture it. -/
def Execution.asks {ρ : Type} (x : Execution ρ) : Bool :=
  x.machine.means? x.cell = some .turnRandomly

/-- The heading that a `?` sets, unless the source stalls. -/
def Execution.chosen? {ρ : Type} [RandomSource ρ] (x : Execution ρ) : Option Heading :=
  if x.asks ∧ (x.machine.execute x.cell).stop = none then
    some (x.machine.execute x.cell).machine.heading
  else none

namespace Machine

variable {ρ ρ' : Type}

/-- The cell that a cycle executes: none if it halts. -/
def fetched (m : Machine ρ) : List (Execution ρ) :=
  if m.status = .running ∧ m.settle.cell ≠ haltCell then [⟨m.settle, m.settle.cell⟩] else []

/-- The machine with another random source. -/
def drawing (m : Machine ρ) (r : ρ') : Machine ρ' where
  field := m.field
  stack := m.stack
  position := m.position
  heading := m.heading
  stringMode := m.stringMode
  output := m.output
  status := m.status
  steps := m.steps
  random := r

theorem advance_drawing (e : Effect ρ) (r : ρ') :
    Effect.advance ⟨e.machine.drawing r, e.stop⟩ =
      ⟨e.advance.machine.drawing r, e.advance.stop⟩ := by
  obtain ⟨next, stop⟩ := e
  cases stop <;> rfl

variable [RandomSource ρ] [RandomSource ρ']

/-- The characters of a text that are executed, up to the first that fails. -/
def executionsAll (m : Machine ρ) : List Char → List (Execution ρ)
  | [] => []
  | c :: rest =>
    ⟨m, c⟩ ::
      match (m.execute c).stop with
      | none => (m.execute c).machine.executionsAll rest
      | some _ => []

/-- The cells that at most `n` cycles execute, up to the first that does not leave the machine
running. -/
def executionsRun (m : Machine ρ) : Nat → List (Execution ρ)
  | 0 => []
  | n + 1 =>
    m.fetched ++
      match m.step.turn with
      | .running => m.step.machine.executionsRun n
      | _ => []

/-- The characters that a call executes. -/
def executionsOf (m : Machine ρ) : Call → List (Execution ρ)
  | .execute c => [⟨m, c⟩]
  | .executeAll text => m.executionsAll text.toList
  | .step => m.fetched
  | .steps n => m.executionsRun n
  | .run limit => m.executionsRun limit
  | .interpret limit source => (m.load source).executionsRun limit
  | .load _ | .push _ | .pop | .read _ _ | .size | .isEmpty | .snapshot => []

/-- The characters that some calls in a row execute. -/
def executions (m : Machine ρ) : List Call → List (Execution ρ)
  | [] => []
  | call :: rest => m.executionsOf call ++ (m.answer call).2.executions rest

/-! ## One character on another source -/

/-- Only `?` looks at the source. -/
theorem perform_drawing (m : Machine ρ) {i : Instruction} (hi : i ≠ .turnRandomly) (r : ρ') :
    (m.drawing r).perform i = ⟨(m.perform i).machine.drawing r, (m.perform i).stop⟩ := by
  cases i with
  | turnRandomly => exact absurd rfl hi
  | writeCharacter =>
    have hpeek : (m.drawing r).peek 0 = m.peek 0 := rfl
    unfold perform
    simp only [hpeek]
    cases Value.toChar? (m.peek 0) <;> rfl
  | put =>
    have hpeek : (m.drawing r).peek 2 = m.peek 2 := rfl
    unfold perform
    simp only [hpeek]
    cases Value.toChar? (m.peek 2) <;> rfl
  | _ => rfl

/-- A character that asks for no choice does the same on every source. -/
theorem execute_drawing (m : Machine ρ) {c : Char} (hc : m.means? c ≠ some .turnRandomly)
    (r : ρ') : (m.drawing r).execute c = ⟨(m.execute c).machine.drawing r, (m.execute c).stop⟩ := by
  have hmode : (m.drawing r).stringMode = m.stringMode := rfl
  unfold means? at hc
  unfold execute
  rw [hmode]
  split
  · rfl
  · rename_i hnot
    rw [if_neg hnot] at hc
    cases hi : Instruction.ofChar? c with
    | none => rfl
    | some i =>
      have hne : i ≠ .turnRandomly := fun h => hc (h ▸ hi)
      simp only
      rw [perform_drawing m hne, advance_drawing]

/-- A character that asks for no choice leaves the source as it was. -/
theorem execute_random (m : Machine ρ) {c : Char} (hc : m.means? c ≠ some .turnRandomly) :
    (m.execute c).machine.random = m.random :=
  congrArg (fun e : Effect ρ => e.machine.random) (execute_drawing m hc m.random)

/-- A character that asks for a choice takes one from the source and sets it, or stalls. -/
theorem execute_of_asks {m : Machine ρ} {c : Char} (hc : m.means? c = some .turnRandomly) :
    m.execute c =
      match RandomSource.sample m.random with
      | some (h, next) => .done { m with heading := h, random := next }.advance
      | none => ⟨m, some .stalled⟩ := by
  unfold means? at hc
  unfold execute
  split at hc
  · cases hc
  · rename_i hnot
    rw [if_neg hnot, hc]
    unfold perform
    cases RandomSource.sample m.random <;> rfl

/-! ## What is taken from the source -/

/-- Some executed characters take from the source `r` one choice for each heading that they set,
these headings being the choices, and leave the source `r'`. -/
def Draws (xs : List (Execution ρ)) (r r' : ρ) : Prop :=
  RandomSource.choose (xs.filterMap Execution.chosen?).length r =
    some (xs.filterMap Execution.chosen?, r')

theorem draws_nil (r : ρ) : Draws [] r r := rfl

theorem Draws.append {xs ys : List (Execution ρ)} {r r₁ r₂ : ρ} (h : Draws xs r r₁)
    (h' : Draws ys r₁ r₂) : Draws (xs ++ ys) r r₂ := by
  unfold Draws at h h' ⊢
  rw [List.filterMap_append]
  exact RandomSource.choose_append h h'

theorem draws_execute (m : Machine ρ) (c : Char) :
    Draws [⟨m, c⟩] m.random (m.execute c).machine.random := by
  by_cases hc : m.means? c = some .turnRandomly
  · have hexecute := execute_of_asks hc
    have hasks : Execution.asks ⟨m, c⟩ = true := decide_eq_true hc
    unfold Draws Execution.chosen?
    cases hsample : RandomSource.sample m.random with
    | none =>
      rw [hsample] at hexecute
      simp [hasks, hexecute, RandomSource.choose]
    | some p =>
      rw [hsample] at hexecute
      simp [hasks, hexecute, RandomSource.choose, hsample, Effect.done, advance]
  · have hasks : Execution.asks ⟨m, c⟩ = false := decide_eq_false hc
    rw [execute_random m hc]
    unfold Draws Execution.chosen?
    simp [hasks, RandomSource.choose]

theorem draws_step (m : Machine ρ) : Draws m.fetched m.random m.step.machine.random := by
  have hexecute := draws_execute m.settle m.settle.cell
  unfold fetched
  rcases m.step_cases with ⟨hs, h⟩ | ⟨_, hc, h⟩ | ⟨hs, hc, _, h⟩ | ⟨hs, hc, s, _, h⟩
  · rw [if_neg (by simp [hs]), h]
    exact draws_nil _
  · rw [if_neg (by simp [hc]), h]
    exact draws_nil _
  · rw [if_pos ⟨hs, hc⟩, h]
    exact hexecute
  · rw [if_pos ⟨hs, hc⟩, congrArg Progress.machine h]
    exact hexecute

theorem draws_executeAll (m : Machine ρ) (count : Nat) (text : List Char) :
    Draws (m.executionsAll text) m.random (m.executeAll count text).2.machine.random := by
  induction text generalizing m count with
  | nil => exact draws_nil _
  | cons c rest ih =>
    have hfirst := draws_execute m c
    simp only [executeAll, executionsAll]
    cases (m.execute c).stop with
    | none => exact hfirst.append (ih _ _)
    | some s => exact hfirst

theorem draws_runFor (m : Machine ρ) (n : Nat) :
    Draws (m.executionsRun n) m.random (m.runFor n).machine.random := by
  induction n generalizing m with
  | zero => exact draws_nil _
  | succ n ih =>
    have hfirst := draws_step m
    simp only [runFor, executionsRun]
    cases m.step.turn with
    | running => exact hfirst.append (ih _)
    | halted => exact hfirst.append (draws_nil _)
    | stopped s => exact hfirst.append (draws_nil _)

theorem draws_answer (m : Machine ρ) (call : Call) :
    Draws (m.executionsOf call) m.random (m.answer call).2.random := by
  cases call with
  | execute c =>
    rw [answer_execute]
    exact draws_execute m c
  | executeAll text => exact draws_executeAll m 0 text.toList
  | step => exact draws_step m
  | steps n => exact draws_runFor m n
  | run limit =>
    simp only [answer, ended_machine]
    exact draws_runFor m limit
  | interpret limit source =>
    simp only [answer, ended_machine]
    exact draws_runFor (m.load source) limit
  | _ => exact draws_nil _

theorem draws_answers (m : Machine ρ) (calls : List Call) :
    Draws (m.executions calls) m.random (m.answers calls).2.random := by
  induction calls generalizing m with
  | nil => exact draws_nil _
  | cons call rest ih => exact (draws_answer m call).append (ih _)

/-! ## Two sources -/

/-- Two machines that differ at most in their sources, which agree for `n` choices. -/
structure Twins (n : Nat) (m : Machine ρ) (m' : Machine ρ') : Prop where
  same : m' = m.drawing m'.random
  agree : RandomSource.AgreeFor n m.random m'.random

variable {m : Machine ρ} {m' : Machine ρ'} {n : Nat}

/-- Twins execute a character alike, and are twins for as many choices as are left. -/
theorem Twins.execute {c : Char} (h : Twins ([⟨m, c⟩].countP Execution.asks + n) m m') :
    (m'.execute c).stop = (m.execute c).stop ∧
      Twins n (m.execute c).machine (m'.execute c).machine := by
  obtain ⟨hsame, hagree⟩ := h
  generalize m'.random = r at hsame hagree
  subst hsame
  by_cases hc : m.means? c = some .turnRandomly
  · have hasks : Execution.asks ⟨m, c⟩ = true := decide_eq_true hc
    rw [List.countP_singleton, if_pos hasks, Nat.add_comm] at hagree
    rw [execute_of_asks hc, execute_of_asks (m := m.drawing r) hc]
    have hrandom : (m.drawing r).random = r := rfl
    rcases hagree.sample with ⟨hs, hs'⟩ | ⟨g, s, s', hs, hs', hnext⟩
    · rw [hrandom, hs, hs']
      exact ⟨rfl, rfl, hagree.mono (Nat.le_succ n)⟩
    · rw [hrandom, hs, hs']
      exact ⟨rfl, rfl, hnext⟩
  · rw [execute_drawing m hc]
    refine ⟨rfl, rfl, ?_⟩
    rw [execute_random m hc]
    exact hagree.mono (Nat.le_add_left n _)

theorem Twins.step (h : Twins (m.fetched.countP Execution.asks + n) m m') :
    m'.step.turn = m.step.turn ∧ Twins n m.step.machine m'.step.machine := by
  obtain ⟨hsame, hagree⟩ := h
  generalize m'.random = r at hsame hagree
  subst hsame
  unfold fetched at hagree
  have hall := hagree.mono (Nat.le_add_left n _)
  cases hs : m.status with
  | halted =>
    rw [step_of_halted hs, step_of_halted (m := m.drawing r) hs]
    exact ⟨rfl, rfl, hall⟩
  | running =>
    have hsettle : (m.drawing r).settle = m.settle.drawing r := rfl
    have hcell : (m.settle.drawing r).cell = m.settle.cell := rfl
    rw [step_of_running hs, step_of_running (m := m.drawing r) hs, hsettle]
    unfold visit
    rw [hcell]
    by_cases hc : m.settle.cell = haltCell
    · rw [if_pos hc, if_pos hc]
      exact ⟨rfl, rfl, hall⟩
    · rw [if_pos ⟨hs, hc⟩] at hagree
      rw [if_neg hc, if_neg hc]
      have htwins : Twins ([⟨m.settle, m.settle.cell⟩].countP Execution.asks + n) m.settle
          (m.settle.drawing r) := ⟨rfl, hagree⟩
      obtain ⟨hstop, hsame, hnext⟩ := htwins.execute
      simp only [hstop]
      rcases (m.settle.execute m.settle.cell).stop with _ | (_ | _)
      · exact ⟨rfl, congrArg count hsame, hnext⟩
      · exact ⟨rfl, hsame, hnext⟩
      · exact ⟨rfl, hsame, hnext⟩

theorem Twins.executeAll {text : List Char} (count : Nat)
    (h : Twins ((m.executionsAll text).countP Execution.asks + n) m m') :
    (m'.executeAll count text).1 = (m.executeAll count text).1 ∧
      (m'.executeAll count text).2.stop = (m.executeAll count text).2.stop ∧
      Twins n (m.executeAll count text).2.machine (m'.executeAll count text).2.machine := by
  induction text generalizing m m' count with
  | nil => exact ⟨rfl, rfl, h.same, h.agree.mono (Nat.le_add_left n _)⟩
  | cons c rest ih =>
    rw [executionsAll, List.countP_cons, Nat.add_comm (List.countP _ _), ← List.countP_singleton,
      Nat.add_assoc] at h
    obtain ⟨hstop, hnext⟩ := h.execute
    simp only [Machine.executeAll, hstop]
    cases hs : (m.execute c).stop with
    | none =>
      simp only [hs] at hnext
      exact ih (count + 1) hnext
    | some s =>
      refine ⟨rfl, hstop, hnext.same, hnext.agree.mono (Nat.le_add_left n _)⟩

theorem Twins.runFor {k : Nat} (h : Twins ((m.executionsRun k).countP Execution.asks + n) m m') :
    (m'.runFor k).turn = (m.runFor k).turn ∧
      Twins n (m.runFor k).machine (m'.runFor k).machine := by
  induction k generalizing m m' with
  | zero => exact ⟨rfl, h.same, h.agree.mono (Nat.le_add_left n _)⟩
  | succ k ih =>
    rw [executionsRun, List.countP_append, Nat.add_assoc] at h
    obtain ⟨hturn, hnext⟩ := h.step
    simp only [Machine.runFor, hturn]
    cases hs : m.step.turn with
    | running =>
      simp only [hs] at hnext
      exact ih hnext
    | halted => exact ⟨hturn, hnext.same, hnext.agree.mono (Nat.le_add_left n _)⟩
    | stopped s => exact ⟨hturn, hnext.same, hnext.agree.mono (Nat.le_add_left n _)⟩

theorem Twins.ended {p : Progress ρ} {p' : Progress ρ'} (hturn : p'.turn = p.turn)
    (h : Twins n p.machine p'.machine) :
    (ended p').1 = (ended p).1 ∧ Twins n (ended p).2 (ended p').2 := by
  have houtput : p'.machine.output = p.machine.output := by
    rw [h.same]
    rfl
  rw [ended_machine, ended_machine]
  refine ⟨?_, h⟩
  unfold Machine.ended Progress.ending?
  rw [hturn]
  rcases p.turn with _ | _ | (f | _)
  · rfl
  · exact congrArg (fun text => Reply.result (.ok text)) houtput
  · rfl
  · rfl

/-- Twins give the same reply to a call. -/
theorem Twins.answer {call : Call}
    (h : Twins ((m.executionsOf call).countP Execution.asks + n) m m') :
    (m'.answer call).1 = (m.answer call).1 ∧ Twins n (m.answer call).2 (m'.answer call).2 := by
  cases call with
  | execute c =>
    obtain ⟨hstop, hnext⟩ := h.execute
    rw [answer_execute, answer_execute]
    simp only [Machine.answer, hstop]
    refine ⟨?_, hnext⟩
    cases (m.execute c).stop <;> rfl
  | executeAll text =>
    obtain ⟨hcount, hstop, hnext⟩ := h.executeAll 0
    simp only [Machine.answer, hcount, hstop]
    exact ⟨trivial, hnext⟩
  | step =>
    obtain ⟨hturn, hnext⟩ := h.step
    exact ⟨congrArg Reply.turn hturn, hnext⟩
  | steps k =>
    obtain ⟨hturn, hnext⟩ := h.runFor
    exact ⟨congrArg Reply.turn hturn, hnext⟩
  | run limit =>
    obtain ⟨hturn, hnext⟩ := h.runFor
    exact hnext.ended hturn
  | interpret limit source =>
    have hload : Twins _ (m.load source) (m'.load source) := ⟨rfl, h.agree⟩
    obtain ⟨hturn, hnext⟩ := hload.runFor
    exact hnext.ended hturn
  | load source => exact ⟨rfl, rfl, h.agree.mono (Nat.le_add_left n _)⟩
  | _ =>
    obtain ⟨hsame, hagree⟩ := h
    generalize m'.random = r at hsame hagree
    subst hsame
    exact ⟨rfl, rfl, hagree.mono (Nat.le_add_left n _)⟩

theorem Twins.answers {calls : List Call}
    (h : Twins ((m.executions calls).countP Execution.asks + n) m m') :
    (m'.answers calls).1 = (m.answers calls).1 ∧
      Twins n (m.answers calls).2 (m'.answers calls).2 := by
  induction calls generalizing m m' with
  | nil => exact ⟨rfl, h.same, h.agree.mono (Nat.le_add_left n _)⟩
  | cons call rest ih =>
    rw [executions, List.countP_append, Nat.add_assoc] at h
    obtain ⟨hreply, hnext⟩ := h.answer
    obtain ⟨hreplies, hlast⟩ := ih hnext
    simp only [Machine.answers, hreply, hreplies]
    exact ⟨trivial, hlast⟩

/-! ## Chance in a session -/

theorem executions_append (m : Machine ρ) (calls calls' : List Call) :
    m.executions (calls ++ calls') =
      m.executions calls ++ (m.answers calls).2.executions calls' := by
  induction calls generalizing m with
  | nil => rfl
  | cons call rest ih =>
    rw [List.cons_append, executions, executions, ih, List.append_assoc]
    rfl

/-- In every session the headings that are set by `?` outside of string mode are the first choices
of the source, in their order, and nothing else is taken from the source. So with every source that
gives the same headings for as many choices as the session makes, all replies are the same, and
after every call so is the machine but for its source. -/
theorem chance_enters_only_through_the_choices (m : Machine ρ) (calls : List Call) :
    let headings := (m.executions calls).filterMap Execution.chosen?
    RandomSource.choose headings.length m.random = some (headings, (m.answers calls).2.random) ∧
      ∀ {ρ' : Type} [RandomSource ρ'] (r : ρ') (n : Nat), RandomSource.AgreeFor n m.random r →
        (m.executions calls).countP Execution.asks ≤ n →
        ((m.drawing r).answers calls).1 = (m.answers calls).1 ∧
          ∀ k, ∃ r', ((m.drawing r).answers (calls.take k)).2 =
            (m.answers (calls.take k)).2.drawing r' := by
  refine ⟨draws_answers m calls, ?_⟩
  intro ρ' _ r n hagree hcount
  have hreplies : ∀ calls, (m.executions calls).countP Execution.asks ≤ n →
      ((m.drawing r).answers calls).1 = (m.answers calls).1 ∧
        Twins 0 (m.answers calls).2 ((m.drawing r).answers calls).2 := by
    intro calls hcount
    exact Twins.answers ⟨rfl, hagree.mono hcount⟩
  refine ⟨(hreplies calls hcount).1, ?_⟩
  intro k
  have hsplit := executions_append m (calls.take k) (calls.drop k)
  rw [List.take_append_drop] at hsplit
  rw [hsplit, List.countP_append] at hcount
  exact ⟨_, (hreplies (calls.take k) (by omega)).2.same⟩

/-- Two sources that both choose up first, and down or up after that. A session that captures one
`?` and executes another cannot tell them apart, before and after it loads a program. -/
theorem a_captured_question_takes_no_choice :
    let m := Machine.fresh (⟨0, 0⟩ : Progression)
    let r : Progression := ⟨0, 0x4000000000000000⟩
    let calls := [Call.executeAll "\"?\"", .execute '?', .interpret 9 "<@", .pop]
    (m.executions calls).countP Execution.asks = 1 ∧
      (m.executions calls).filterMap Execution.chosen? = [.up] ∧
      RandomSource.AgreeFor 1 m.random r ∧ ¬RandomSource.AgreeFor 2 m.random r ∧
      ((m.drawing r).answers calls).1 = (m.answers calls).1 ∧
        ∀ k, ∃ r', ((m.drawing r).answers (calls.take k)).2 =
          (m.answers (calls.take k)).2.drawing r' := by
  intro m r calls
  have hagree : RandomSource.AgreeFor 1 m.random r := by decide
  have hcount : (m.executions calls).countP Execution.asks = 1 := by decide
  obtain ⟨_, hsame⟩ := chance_enters_only_through_the_choices m calls
  exact ⟨hcount, by decide, hagree, by decide +kernel, hsame r 1 hagree (Nat.le_of_eq hcount)⟩

end Machine

end Befunge
