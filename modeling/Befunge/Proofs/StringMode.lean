-- String mode ends. The line that the pointer travels along comes back to the quote that
-- began the mode, and nothing is executed before a quote or the halting cell is met: the
-- cells before it are only pushed.
import Befunge.Proofs.Pointer
import Befunge.Random.Progression
import Mathlib.Data.Nat.Find

namespace Befunge

/-! ## The line of travel -/

theorem Torus.wrap_add_turn (c i s : Int) {d : Nat} (hd : 0 < d) :
    wrap (c + (i + d) * s) d = wrap (c + i * s) d := by
  rw [wrap_eq_iff hd, Int.add_mul, ← Int.add_assoc, Int.add_mul_emod_self_left]

namespace Playfield

/-- The place `i` cells further along a heading. -/
def ahead (g : Playfield) (p : Point) (h : Heading) (i : Int) : Point :=
  g.place (p.x.toInt + i * h.delta.1.toInt) (p.y.toInt + i * h.delta.2.toInt)

/-- The number of cells on the line along a heading. -/
def lap (g : Playfield) : Heading → Nat
  | .right | .left => g.width
  | .up | .down => g.height

variable {g : Playfield}

theorem lap_pos (hg : g.WellFormed) (h : Heading) : 0 < g.lap h := by
  cases h
  · exact hg.height_pos
  · exact hg.height_pos
  · exact hg.width_pos
  · exact hg.width_pos

theorem ahead_zero (g : Playfield) (p : Point) (h : Heading) : g.ahead p h 0 = g.settle p := by
  unfold ahead settle
  rw [Int.zero_mul, Int.zero_mul, Int.add_zero, Int.add_zero]

/-- The line along a heading is closed. -/
theorem ahead_add_lap (hg : g.WellFormed) (p : Point) (h : Heading) (i : Int) :
    g.ahead p h (i + g.lap h) = g.ahead p h i := by
  have hstill : ∀ c k : Int, c + k * (0 : Int64).toInt = c := by
    intro c k
    rw [Int64.toInt_zero, Int.mul_zero, Int.add_zero]
  unfold ahead place
  cases h <;>
    simp only [lap, Heading.delta, Torus.wrap_add_turn _ _ _ hg.width_pos,
      Torus.wrap_add_turn _ _ _ hg.height_pos, hstill]

/-- One move from a place on a line goes to the next place on it, and the line is the same. -/
theorem ahead_advance (hg : g.Addressable) (p : Point) (h : Heading) (i k : Int) :
    g.ahead ((g.ahead p h i).advance h) h k = g.ahead p h (i + 1 + k) := by
  obtain ⟨hx, hy⟩ := hg.toInt_advance (hg.nearby_place _ _) (by omega) h
  have hring : ∀ (c s : Int) {d : Nat}, 0 < d →
      Torus.wrap (Torus.wrap (c + i * s) d + s + k * s) d = Torus.wrap (c + (i + 1 + k) * s) d := by
    intro c s d hd
    rw [Int.add_assoc, Torus.wrap_wrap_add _ _ hd, Int.add_mul, Int.add_mul, Int.one_mul]
    simp only [Int.add_assoc]
  unfold ahead
  rw [hx, hy, hg.toInt_place_x, hg.toInt_place_y]
  unfold place
  rw [hring _ _ hg.width_pos, hring _ _ hg.height_pos]

end Playfield

namespace Machine

variable {ρ : Type}

/-- The place `i` cells ahead of the pointer. -/
def placeAhead (m : Machine ρ) (i : Int) : Point := m.field.ahead m.position m.heading i

/-- The cell `i` cells ahead of the pointer. -/
def cellAhead (m : Machine ρ) (i : Int) : Char :=
  m.field.read (m.placeAhead i).x.toInt (m.placeAhead i).y.toInt

/-- The number of cells on the line that the pointer travels along. -/
def lap (m : Machine ρ) : Nat := m.field.lap m.heading

variable {m : Machine ρ}

theorem settle_position (m : Machine ρ) : m.settle.position = m.placeAhead 0 :=
  (Playfield.ahead_zero m.field m.position m.heading).symm

theorem settle_cell (m : Machine ρ) : m.settle.cell = m.cellAhead 0 := by
  unfold cell cellAhead
  rw [settle_position]
  rfl

theorem cellAhead_lap (hg : m.field.WellFormed) : m.cellAhead m.lap = m.cellAhead 0 := by
  have hplace : m.placeAhead m.lap = m.placeAhead 0 := by
    have h := Playfield.ahead_add_lap hg m.position m.heading 0
    rw [Int.zero_add] at h
    exact h
  unfold cellAhead
  rw [hplace]

/-- A machine on the same line as another, one move past the place `i` cells ahead of that one. -/
structure Past (m : Machine ρ) (i : Int) (s : Machine ρ) : Prop where
  field_eq : s.field = m.field
  heading_eq : s.heading = m.heading
  position_eq : s.position = (m.placeAhead i).advance m.heading

theorem Past.placeAhead {s : Machine ρ} {i : Int} (hs : m.Past i s) (hg : m.field.Addressable)
    (k : Int) : s.placeAhead k = m.placeAhead (i + 1 + k) := by
  unfold Machine.placeAhead
  rw [hs.field_eq, hs.heading_eq, hs.position_eq]
  exact Playfield.ahead_advance hg m.position m.heading i k

theorem Past.cellAhead {s : Machine ρ} {i : Int} (hs : m.Past i s) (hg : m.field.Addressable)
    (k : Int) : s.cellAhead k = m.cellAhead (i + 1 + k) := by
  unfold Machine.cellAhead
  rw [hs.placeAhead hg, hs.field_eq]

theorem Past.quote_ahead {s : Machine ρ} (hs : m.Past 0 s) (hg : m.field.Addressable) {i : Nat}
    (hi : i < m.lap) (hq : m.cellAhead (i + 1 : Nat) = quoteCell) :
    ∃ k : Nat, k < s.lap ∧ s.cellAhead k = quoteCell := by
  refine ⟨i, ?_, ?_⟩
  · unfold lap
    rw [hs.field_eq, hs.heading_eq]
    exact hi
  · rw [hs.cellAhead hg, ← hq]
    congr 1
    omega

theorem exists_least_end (m : Machine ρ) {first k : Nat} (hk : first ≤ k)
    (hq : m.cellAhead k = quoteCell) :
    ∃ j : Nat, first ≤ j ∧ j ≤ k ∧ (m.cellAhead j = quoteCell ∨ m.cellAhead j = haltCell) ∧
      ∀ i : Nat, first ≤ i → i < j → m.cellAhead i ≠ quoteCell ∧ m.cellAhead i ≠ haltCell := by
  have hex : ∃ j : Nat, first ≤ j ∧ (m.cellAhead j = quoteCell ∨ m.cellAhead j = haltCell) :=
    ⟨k, hk, Or.inl hq⟩
  obtain ⟨h1, h2⟩ := Nat.find_spec hex
  refine ⟨Nat.find hex, h1, Nat.find_min' hex ⟨hk, Or.inl hq⟩, h2, ?_⟩
  intro i hi hlt
  have hnot := Nat.find_min hex hlt
  exact ⟨fun h => hnot ⟨hi, Or.inl h⟩, fun h => hnot ⟨hi, Or.inr h⟩⟩

/-! ## Cells that are pushed -/

/-- The codes of the cells ahead from `first` up to `n`, which is left out. -/
def codesAhead (m : Machine ρ) (first n : Nat) : List Value :=
  (List.range' first (n - first)).map fun i : Nat => Value.ofChar (m.cellAhead i)

/-- The machine in string mode with its pointer past the cells before `n`, of which it has pushed
those from `first` on. -/
def reading (m : Machine ρ) (first n : Nat) : Machine ρ :=
  { m with
    position := (m.placeAhead (n - 1)).advance m.heading
    stringMode := true
    stack := .ofValues (m.stack.values ++ m.codesAhead first n)
    steps := m.steps + UInt64.ofNat n }

theorem codesAhead_self (m : Machine ρ) (n : Nat) : m.codesAhead n n = [] := by
  unfold codesAhead
  rw [Nat.sub_self]
  rfl

theorem codesAhead_succ (m : Machine ρ) {first n : Nat} (h : first ≤ n) :
    m.codesAhead first (n + 1) = m.codesAhead first n ++ [Value.ofChar (m.cellAhead n)] := by
  unfold codesAhead
  have hn : n + 1 - first = n - first + 1 := by omega
  have hlast : first + (n - first) = n := by omega
  rw [hn, List.range'_1_concat, hlast, List.map_append]
  rfl

theorem steps_succ (m : Machine ρ) (n : Nat) :
    m.steps + UInt64.ofNat n + 1 = m.steps + UInt64.ofNat (n + 1) := by
  rw [UInt64.ofNat_add, UInt64.add_assoc]
  rfl

theorem settle_reading (hg : m.field.Addressable) (first n : Nat) :
    (m.reading first n).settle = { m.reading first n with position := m.placeAhead n } := by
  have hplace : (m.reading first n).settle.position = m.placeAhead n := by
    have hpast : m.Past (n - 1) (m.reading first n) := ⟨rfl, rfl, rfl⟩
    rw [settle_position, hpast.placeAhead hg]
    congr 1
    omega
  exact congrArg (fun p => { m.reading first n with position := p }) hplace

theorem reading_cell (hg : m.field.Addressable) (first n : Nat) :
    (m.reading first n).settle.cell = m.cellAhead n := by
  rw [settle_reading hg]
  rfl

/-! ## One cell -/

variable [RandomSource ρ]

theorem step_of_halt (hs : m.status = .running) (hc : m.settle.cell = haltCell) :
    m.step.toProgress = ⟨{ m.settle with status := .halted }, .halted⟩ := by
  rw [step_of_running hs]
  unfold visit
  rw [if_pos hc]

theorem step_of_quote (hs : m.status = .running) (hc : m.settle.cell = quoteCell) :
    m.step.toProgress =
      ⟨({ m.settle with stringMode := !m.stringMode } : Machine ρ).advance.count, .running⟩ := by
  have he : m.settle.execute quoteCell =
      .done ({ m.settle with stringMode := !m.stringMode } : Machine ρ).advance := by
    unfold execute
    rw [if_neg (fun h => h.2 rfl)]
    rfl
  rw [step_of_running hs]
  unfold visit
  rw [hc, if_neg (by decide), he]
  rfl

theorem step_of_capture (hs : m.status = .running) (hon : m.stringMode = true)
    (hq : m.settle.cell ≠ quoteCell) (hh : m.settle.cell ≠ haltCell) :
    m.step.toProgress = ⟨(m.settle.push (Value.ofChar m.settle.cell)).advance.count, .running⟩ := by
  have he : m.settle.execute m.settle.cell =
      .done (m.settle.push (Value.ofChar m.settle.cell)).advance := by
    unfold execute
    rw [if_pos ⟨hon, hq⟩]
  rw [step_of_running hs]
  unfold visit
  rw [if_neg hh, he]
  rfl

/-! ## Cell after cell -/

/-- A cell that is neither a quote nor the halting cell is pushed. -/
theorem step_reading (hg : m.field.Addressable) (hs : m.status = .running) {first n : Nat}
    (hn : first ≤ n) (hq : m.cellAhead n ≠ quoteCell) (hh : m.cellAhead n ≠ haltCell) :
    (m.reading first n).step.toProgress = ⟨m.reading first (n + 1), .running⟩ := by
  have hcell := reading_cell hg first n
  rw [← hcell] at hq hh
  rw [step_of_capture (m := m.reading first n) hs rfl hq hh, hcell, settle_reading hg]
  have hplace : ((n + 1 : Nat) : Int) - 1 = n := by omega
  have hstack : (Stack.ofValues (m.stack.values ++ m.codesAhead first n)).push
      (Value.ofChar (m.cellAhead n)) =
        .ofValues (m.stack.values ++ m.codesAhead first (n + 1)) := by
    rw [codesAhead_succ m hn, ← List.append_assoc, Stack.push_ofValues]
  unfold reading
  rw [hplace, ← hstack, ← steps_succ]
  rfl

/-- The cells ahead from `first` on are pushed up to the first quote or halting cell, which is the
one `j` cells ahead. It ends the mode or the program. -/
structure Closes (m : Machine ρ) (first j : Nat) : Prop where
  ends : m.cellAhead j = quoteCell ∨ m.cellAhead j = haltCell
  least : ∀ i : Nat, first ≤ i → i < j → m.cellAhead i ≠ quoteCell ∧ m.cellAhead i ≠ haltCell
  reads : ∀ i, first ≤ i → i < j →
    (m.after i).step.toProgress = ⟨m.reading first (i + 1), .running⟩
  quote : m.cellAhead j = quoteCell → (m.after j).step.toProgress =
    ⟨{ m.reading first j with
        position := (m.placeAhead j).advance m.heading
        stringMode := false
        steps := m.steps + UInt64.ofNat (j + 1) }, .running⟩
  halt : m.cellAhead j = haltCell → (m.after j).step.toProgress =
    ⟨{ m.reading first j with position := m.placeAhead j, status := .halted }, .halted⟩

/-- A machine that goes on like one that reads closes at the first cell that can end the mode. -/
theorem closes_of_least (hg : m.field.Addressable) (hs : m.status = .running) {first j : Nat}
    (hfirst : (m.after first).step.toProgress = (m.reading first first).step.toProgress)
    (hj : first ≤ j) (hends : m.cellAhead j = quoteCell ∨ m.cellAhead j = haltCell)
    (hleast : ∀ i : Nat, first ≤ i → i < j →
      m.cellAhead i ≠ quoteCell ∧ m.cellAhead i ≠ haltCell) : m.Closes first j := by
  have hread : ∀ n, first ≤ n → n ≤ j →
      (m.after n).step.toProgress = (m.reading first n).step.toProgress := by
    intro n hn
    induction n, hn using Nat.le_induction with
    | base =>
      intro _
      exact hfirst
    | succ n hn ih =>
      intro hle
      obtain ⟨hq, hh⟩ := hleast n hn (by omega)
      have hprogress := (ih (by omega)).trans (step_reading hg hs hn hq hh)
      rw [after_succ, hprogress]
  refine ⟨hends, hleast, ?_, ?_, ?_⟩
  · intro i hi hij
    obtain ⟨hq, hh⟩ := hleast i hi hij
    rw [hread i hi (by omega), step_reading hg hs hi hq hh]
  · intro hq
    rw [hread j hj (by omega)]
    rw [step_of_quote (m := m.reading first j) hs (by rw [reading_cell hg, hq])]
    rw [settle_reading hg, ← steps_succ]
    rfl
  · intro hh
    rw [hread j hj (by omega)]
    rw [step_of_halt (m := m.reading first j) hs (by rw [reading_cell hg, hh])]
    rw [settle_reading hg]

/-! ## The quote that is always ahead -/

/-- A machine that runs in string mode has a quote on its line. -/
def Enclosed (m : Machine ρ) : Prop :=
  m.status = .running → m.stringMode = true → ∃ i : Nat, i < m.lap ∧ m.cellAhead i = quoteCell

theorem enclosed_step (hg : m.field.Addressable) (hm : m.Enclosed) : m.step.machine.Enclosed := by
  intro hrun hon
  cases hs : m.status with
  | halted =>
    rw [step_of_halted hs] at hrun
    exact absurd (hrun.symm.trans hs) (by decide)
  | running =>
    by_cases hq : m.settle.cell = quoteCell
    · have hpast : m.Past 0 m.step.machine := by
        rw [congrArg Progress.machine (step_of_quote hs hq)]
        exact ⟨rfl, rfl, congrArg (·.advance m.heading) m.settle_position⟩
      -- The quote that begins the mode is the last cell of the line.
      have hpos := Playfield.lap_pos hg.toWellFormed m.heading
      have hlast : m.lap - 1 + 1 = m.lap := Nat.sub_add_cancel hpos
      apply hpast.quote_ahead hg (i := m.lap - 1) (by omega)
      rw [hlast, cellAhead_lap hg.toWellFormed, ← settle_cell]
      exact hq
    · by_cases hh : m.settle.cell = haltCell
      · rw [congrArg Progress.machine (step_of_halt hs hh)] at hrun
        cases hrun
      · rw [step_stringMode hq] at hon
        have hpast : m.Past 0 m.step.machine := by
          rw [congrArg Progress.machine (step_of_capture hs hon hq hh)]
          exact ⟨rfl, rfl, congrArg (·.advance m.heading) m.settle_position⟩
        obtain ⟨i, hi, hqi⟩ := hm hs hon
        cases i with
        | zero =>
          rw [settle_cell] at hq
          exact absurd hqi hq
        | succ i => exact hpast.quote_ahead hg (by omega) hqi

/-- Every move but executing a character keeps a quote on the line. -/
theorem enclosed_answer {a : Move} (ha : ∀ c, a ≠ .execute c) (hg : m.field.Addressable)
    (hm : m.Enclosed) :
    (m.answer a.call).2.field.Addressable ∧ (m.answer a.call).2.Enclosed := by
  cases a with
  | execute c => exact absurd rfl (ha c)
  | step => exact ⟨addressable_step hg, enclosed_step hg hm⟩
  | push v => exact ⟨hg, hm⟩
  | pop => exact ⟨hg, hm⟩
  | run limit =>
    have hrun := runFor_invariant (P := fun s => s.field.Addressable ∧ s.Enclosed) (m := m) ⟨hg, hm⟩
      (fun _ hs => ⟨addressable_step hs.1, enclosed_step hs.1 hs.2⟩) limit
    simp only [Move.call, answer, ended_machine]
    exact hrun

/-! ## String mode closes -/

theorem closes_of_opening (hg : m.field.Addressable) (hs : m.status = .running)
    (hoff : m.stringMode = false) (hq : m.settle.cell = quoteCell) :
    m.cellAhead m.lap = quoteCell ∧ m.step.toProgress = ⟨m.reading 1 1, .running⟩ ∧
      ∃ j, 1 ≤ j ∧ j ≤ m.lap ∧ m.Closes 1 j := by
  have hlap : m.cellAhead m.lap = quoteCell := by
    rw [cellAhead_lap hg.toWellFormed, ← settle_cell]
    exact hq
  have hopen : m.step.toProgress = ⟨m.reading 1 1, .running⟩ := by
    rw [step_of_quote hs hq]
    unfold reading
    have hplace : ((1 : Nat) : Int) - 1 = 0 := rfl
    rw [codesAhead_self, List.append_nil, Stack.ofValues_values, hoff, hplace, ← settle_position]
    rfl
  have hpos : 1 ≤ m.lap := Playfield.lap_pos hg.toWellFormed m.heading
  obtain ⟨j, hj, hle, hends, hleast⟩ := m.exists_least_end hpos hlap
  refine ⟨hlap, hopen, j, hj, hle, closes_of_least hg hs ?_ hj hends hleast⟩
  rw [after_succ, after_zero, hopen]

theorem closes_of_enclosed (hg : m.field.Addressable) (hm : m.Enclosed) (hs : m.status = .running)
    (hon : m.stringMode = true) : ∃ j, j < m.lap ∧ m.Closes 0 j := by
  obtain ⟨k, hk, hq⟩ := hm hs hon
  obtain ⟨j, hj, hle, hends, hleast⟩ := m.exists_least_end (Nat.zero_le k) hq
  refine ⟨j, by omega, closes_of_least hg hs ?_ hj hends hleast⟩
  have hsettle : m.settle = (m.reading 0 0).settle := by
    rw [settle_reading hg]
    unfold reading
    have hsteps : m.steps + UInt64.ofNat 0 = m.steps := UInt64.add_zero m.steps
    rw [codesAhead_self, List.append_nil, Stack.ofValues_values, hsteps, ← hon]
    exact congrArg (fun p => { m with position := p }) (settle_position m)
  rw [after_zero, step_of_running hs, step_of_running (m := m.reading 0 0) hs, hsettle]

/-- A quote that is met with string mode off begins a string that a quote or the halting cell ends
within one lap. So does every string that a program reads by itself. -/
theorem string_mode_always_closes :
    (∀ m : Machine ρ, m.field.Addressable → m.status = .running → m.stringMode = false →
      m.settle.cell = quoteCell →
        m.cellAhead m.lap = quoteCell ∧ m.step.toProgress = ⟨m.reading 1 1, .running⟩ ∧
          ∃ j, 1 ≤ j ∧ j ≤ m.lap ∧ m.Closes 1 j) ∧
    ∀ (m : Machine ρ) (source : String) (moves : List Move),
      (Playfield.ofSource source).width < 2 ^ 62 → (Playfield.ofSource source).height < 2 ^ 62 →
      (∀ c, .execute c ∉ moves) →
        let s := ((m.load source).plays moves).2
        s.status = .running → s.stringMode = true → ∃ j, j < s.lap ∧ s.Closes 0 j := by
  refine ⟨fun m hg hs hoff hq => closes_of_opening hg hs hoff hq, ?_⟩
  intro m source moves hw hh hmoves s hs hon
  have hload : (m.load source).field.Addressable ∧ (m.load source).Enclosed :=
    ⟨Playfield.addressable_ofSource hw hh, fun _ h => absurd h Bool.false_ne_true⟩
  have hplays : s.field.Addressable ∧ s.Enclosed := by
    apply plays_invariant (P := fun s => s.field.Addressable ∧ s.Enclosed) hload
    intro a ha t ht
    exact enclosed_answer (fun c hc => hmoves c (hc ▸ ha)) ht.1 ht.2
  exact closes_of_enclosed hplays.1 hplays.2 hs hon

/-- The quote of a program that has no other is met again after one lap. -/
theorem a_lone_quote_closes_itself :
    let m := (Machine.fresh (⟨0, 1⟩ : Progression)).load "\"ab"
    let s := (m.plays [.step]).2
    (m.cellAhead m.lap = quoteCell ∧ m.step.toProgress = ⟨m.reading 1 1, .running⟩ ∧
      ∃ j, 1 ≤ j ∧ j ≤ m.lap ∧ m.Closes 1 j) ∧ ∃ j, j < s.lap ∧ s.Closes 0 j := by
  have hw : (Playfield.ofSource "\"ab").width < 2 ^ 62 := by decide
  have hh : (Playfield.ofSource "\"ab").height < 2 ^ 62 := by decide
  have hopen := string_mode_always_closes.1 ((Machine.fresh (⟨0, 1⟩ : Progression)).load "\"ab")
    (Playfield.addressable_ofSource hw hh) rfl rfl (by decide)
  have hclose := string_mode_always_closes.2 (Machine.fresh (⟨0, 1⟩ : Progression)) "\"ab" [.step]
    hw hh (by simp) (by decide) (by decide)
  exact ⟨hopen, hclose⟩

end Machine

end Befunge
