-- How a cell fails and how a run ends. A run ends in the first cycle that finds the halting
-- cell or that fails, and a cell that fails leaves the machine as it was but for the numbers that
-- it has popped. So the end of a run still shows what ended it, under the pointer.
import Befunge.Proofs.Cells
import Befunge.Proofs.Pointer
import Befunge.Random.Progression
import Befunge.Report

namespace Befunge

/-! ## Codes of characters -/

/-- A number that is the code of a character. The surrogates in between are the code of none. -/
def IsCharacterCode (n : Int) : Prop := 0 ≤ n ∧ n ≤ 0xd7ff ∨ 0xe000 ≤ n ∧ n ≤ 0x10ffff

instance (n : Int) : Decidable (IsCharacterCode n) := inferInstanceAs (Decidable (_ ∨ _))

theorem isCharacterCode_iff {n : Int} : IsCharacterCode n ↔ 0 ≤ n ∧ n.toNat.isValidChar := by
  unfold Nat.isValidChar IsCharacterCode
  omega

theorem Value.toChar?_eq_none_iff {v : Value} : v.toChar? = none ↔ ¬IsCharacterCode v.toInt := by
  rw [isCharacterCode_iff]
  unfold toChar?
  simp only [ite_eq_right_iff, reduceCtorEq, imp_false]

theorem Value.toChar?_of_isCharacterCode {v : Value} (h : IsCharacterCode v.toInt) :
    v.toChar? = some (Char.ofNat v.toInt.toNat) := by
  unfold toChar?
  exact if_pos (isCharacterCode_iff.1 h)

namespace Machine

variable {ρ : Type}

/-! ## How a cell fails -/

/-- The ways in which a character fails outside of string mode, with the fault and with how many
numbers it has popped by then. -/
inductive Fails (m : Machine ρ) (c : Char) : Fault → Nat → Prop where
  | unknown (h : Instruction.ofChar? c = none) :
    Fails m c (.unknownInstruction c m.position) 0
  | output (hc : c = ',') (h : ¬IsCharacterCode (m.peek 0).toInt) :
    Fails m c (.invalidValue (m.peek 0) Fault.outputContext) 1
  | put (hc : c = 'p') (h : ¬IsCharacterCode (m.peek 2).toInt) :
    Fails m c (.invalidValue (m.peek 2) Fault.cellContext) 3

variable [RandomSource ρ] {m : Machine ρ} {c : Char}

/-- In string mode a character is pushed or ends it, and neither can stop the machine. -/
theorem stringMode_of_stop (h : (m.execute c).stop ≠ none) : m.stringMode = false := by
  cases hmode : m.stringMode with
  | false => rfl
  | true =>
    unfold execute at h
    rw [hmode] at h
    by_cases hc : c = quoteCell
    · subst hc
      exact absurd rfl h
    · rw [if_pos ⟨rfl, hc⟩] at h
      exact absurd rfl h

/-- An instruction that fails writes a character or puts one, and finds a number that is the code
of none. -/
theorem fails_of_perform {i : Instruction} {f : Fault} (hi : Instruction.ofChar? c = some i)
    (h : (m.perform i).stop = some (.fault f)) :
    ∃ n, m.Fails c f n ∧ (m.perform i).machine = m.drop n := by
  cases i with
  | writeCharacter =>
    unfold perform at h ⊢
    cases hcode : Value.toChar? (m.peek 0) with
    | some d => simp [hcode, Effect.done] at h
    | none =>
      simp only [hcode, Effect.fail, Option.some.injEq, Stop.fault.injEq] at h ⊢
      subst h
      exact ⟨1, .output (Instruction.eq_cell_of_ofChar? hi) (Value.toChar?_eq_none_iff.1 hcode), rfl⟩
  | put =>
    unfold perform at h ⊢
    cases hcode : Value.toChar? (m.peek 2) with
    | some d => simp [hcode, Effect.done] at h
    | none =>
      simp only [hcode, Effect.fail, Option.some.injEq, Stop.fault.injEq] at h ⊢
      subst h
      exact ⟨3, .put (Instruction.eq_cell_of_ofChar? hi) (Value.toChar?_eq_none_iff.1 hcode), rfl⟩
  | turnRandomly =>
    unfold perform at h
    cases hsample : RandomSource.sample m.random <;> simp [hsample, Effect.done] at h
  | _ => simp [perform, Effect.done] at h

/-- A character that fails does so in one of these ways, and nothing else has changed by then. -/
theorem fails_of_execute {f : Fault} (h : (m.execute c).stop = some (.fault f)) :
    m.stringMode = false ∧ ∃ n, m.Fails c f n ∧ (m.execute c).machine = m.drop n := by
  have hmode : m.stringMode = false := stringMode_of_stop (c := c) (by simp [h])
  refine ⟨hmode, ?_⟩
  cases hi : Instruction.ofChar? c with
  | none =>
    rw [execute_of_unknown hmode hi] at h ⊢
    simp only [Effect.fail, Option.some.injEq, Stop.fault.injEq] at h
    subst h
    exact ⟨0, .unknown hi, rfl⟩
  | some i =>
    rw [execute_of_instruction hmode hi] at h ⊢
    -- What stops is not moved on.
    have hstop : (m.perform i).stop = some (.fault f) := by
      unfold Effect.advance at h
      split at h
      · cases h
      · exact h
    obtain ⟨n, hfails, hmachine⟩ := fails_of_perform hi hstop
    refine ⟨n, hfails, ?_⟩
    unfold Effect.advance
    rw [hstop]
    exact hmachine

/-! ## One cycle -/

/-- What a cycle that leaves the machine running has done: it has executed the cell that it
fetched, told of it, and counted it. -/
structure Executed (m : Machine ρ) : Prop where
  turn_eq : m.step.turn = .running
  cell_ne : m.settle.cell ≠ haltCell
  events_eq : m.step.events = [.step m.settle.position m.settle.cell m.heading]
  status_eq : m.step.machine.status = .running
  steps_eq : m.step.machine.steps = m.steps + 1

theorem executed_of_running (h : m.step.turn = .running) : m.Executed := by
  obtain ⟨hrun, hc, _, hs⟩ := step_of_turn_running h
  have hstatus := m.settle.execute_status m.settle.cell
  have hsteps := m.settle.execute_steps m.settle.cell
  refine ⟨h, hc, ?_, ?_, ?_⟩
  · rw [hs]
  · rw [hs]
    exact hstatus.trans hrun
  · rw [hs]
    exact congrArg (· + 1) hsteps

/-- The ways in which the last cycle of a run ends it: it finds the halting cell, or a cell that
fails. Nothing else has changed by then but the numbers that were popped. -/
inductive LastCycle (m : Machine ρ) : Ending ρ → Prop where
  | halts (hc : m.settle.cell = haltCell) :
    LastCycle m ⟨{ m.settle with status := .halted }, none⟩
  | fails {f : Fault} {n : Nat} (hc : m.settle.cell ≠ haltCell) (hmode : m.stringMode = false)
    (h : m.settle.Fails m.settle.cell f n) : LastCycle m ⟨m.settle.drop n, some f⟩

theorem lastCycle_of_ending? {e : Ending ρ} (hm : m.status = .running)
    (h : m.step.ending? = some e) : m.LastCycle e := by
  unfold Progress.ending? at h
  rcases m.step_cases with ⟨hs, _⟩ | ⟨_, hc, hs⟩ | ⟨_, _, _, hs⟩ | ⟨_, hc, s, hstop, hs⟩
  · exact absurd (hm.symm.trans hs) (by decide)
  · simp only [hs, Option.some.injEq] at h
    subst h
    exact .halts hc
  · simp [hs] at h
  · simp only [hs] at h
    cases s with
    | stalled => cases h
    | fault f =>
      obtain ⟨hmode, n, hfails, hmachine⟩ := fails_of_execute hstop
      simp only [Option.some.injEq] at h
      subst h
      rw [hmachine]
      exact .fails hc hmode hfails

/-! ## The last cycle of a run -/

/-- The run of a machine executes `k` cells and ends in the cycle after them. -/
structure EndsAfter (m : Machine ρ) (k : Nat) (e : Ending ρ) : Prop where
  executed : ∀ j < k, (m.after j).Executed
  running : (m.after k).status = .running
  ending?_eq : (m.after k).step.ending? = some e

theorem endsAfter_of_runWithin {limit : Nat} {e : Ending ρ} (hm : m.status = .running)
    (h : m.runWithin limit = some e) : ∃ k < limit, m.EndsAfter k e := by
  unfold runWithin at h
  induction limit generalizing m with
  | zero => cases h
  | succ limit ih =>
    by_cases hturn : m.step.turn = .running
    · rw [runFor_succ_of_running hturn] at h
      have hfirst := executed_of_running hturn
      obtain ⟨k, hk, hexecuted, hrunning, hlast⟩ := ih hfirst.status_eq h
      refine ⟨k + 1, by omega, ?_, ?_, ?_⟩
      · intro j hj
        cases j with
        | zero => exact hfirst
        | succ j =>
          rw [after_succ_left]
          exact hexecuted j (by omega)
      · rw [after_succ_left]
        exact hrunning
      · rw [after_succ_left]
        exact hlast
    · rw [runFor_succ_of_ne hturn] at h
      exact ⟨0, by omega, fun j hj => absurd hj (Nat.not_lt_zero j), hm, h⟩

theorem EndsAfter.lastCycle {k : Nat} {e : Ending ρ} (h : m.EndsAfter k e) :
    (m.after k).LastCycle e :=
  lastCycle_of_ending? h.running h.ending?_eq

end Machine

/-! ## What a report shows of the end -/

/-- The character in column `i` and row `j` of a snapshot. -/
def Snapshot.at? (s : Snapshot) (i j : Nat) : Option Char :=
  s.rows[j]?.bind fun row => row.toList[i]?

/-- What a report says of the end of a run fits the state that it shows, where `c` is the cell
under the pointer. -/
structure Report.Fits (r : Report) (c : Char) : Prop where
  success_iff_no_fault : r.success = true ↔ r.fault = none
  success_iff_halted : r.success = true ↔ r.state.status = .halted
  output_eq : r.output = r.state.output
  of_success : r.success = true → c = '@'
  of_unknown : ∀ d p, r.fault = some (.unknownInstruction d p) →
    p = r.state.position ∧ d = c ∧ c ≠ '@' ∧ Instruction.ofChar? c = none ∧
      r.state.stringMode = false
  of_invalid : ∀ v text, r.fault = some (.invalidValue v text) →
    r.state.stringMode = false ∧ ¬IsCharacterCode v.toInt ∧
      (c = ',' ∧ text = "output character is not a character code" ∨
        c = 'p' ∧ text = "grid cell is not a character code")

theorem Playfield.at?_eq_read {g : Playfield} (hg : g.WellFormed) {i j : Nat} (hi : i < g.width)
    (hj : j < g.height) : g.at? (i, j) = some (g.read i j) := by
  have hspot : g.spot i j = (i, j) := by
    have hx := Torus.wrap_of_lt (c := i) (d := g.width) (by omega) (by omega)
    have hy := Torus.wrap_of_lt (c := j) (d := g.height) (by omega) (by omega)
    unfold spot
    rw [Int.natCast_inj.1 hx, Int.natCast_inj.1 hy]
  obtain ⟨c, hc⟩ := exists_at? hg (s := (i, j)) ⟨hi, hj⟩
  rw [read_eq hg, hspot, hc]
  rfl

namespace Machine

variable {ρ : Type} {m : Machine ρ}

theorem snapshot_at? (m : Machine ρ) (i j : Nat) : m.snapshot.at? i j = m.field.at? (i, j) := by
  unfold Snapshot.at? snapshot Playfield.rows Playfield.at?
  simp only [List.getElem?_map, Array.getElem?_toList]
  cases m.field.cells[j]? with
  | none => rfl
  | some row => simp

/-- Once the pointer is brought onto the playfield, a snapshot has the cell under it. -/
theorem snapshot_settle (hg : m.field.WellFormed) (hw : m.field.width < 2 ^ 63)
    (hh : m.field.height < 2 ^ 63) :
    ∃ i j : Nat, m.settle.position.x.toInt = i ∧ m.settle.position.y.toInt = j ∧
      m.settle.snapshot.at? i j = some m.settle.cell := by
  have hi := Torus.wrap_lt m.position.x.toInt hg.width_pos
  have hj := Torus.wrap_lt m.position.y.toInt hg.height_pos
  have hx : m.settle.position.x.toInt = Torus.wrap m.position.x.toInt m.field.width :=
    Int64.toInt_ofNat_of_lt (by omega)
  have hy : m.settle.position.y.toInt = Torus.wrap m.position.y.toInt m.field.height :=
    Int64.toInt_ofNat_of_lt (by omega)
  refine ⟨_, _, hx, hy, ?_⟩
  rw [snapshot_at?]
  unfold cell
  rw [hx, hy]
  exact Playfield.at?_eq_read hg hi hj

theorem LastCycle.fits {e : Ending ρ} (h : m.LastCycle e) (hm : m.status = .running) :
    (Report.ofEnding e).Fits m.settle.cell := by
  cases h with
  | halts hc =>
    constructor
    · exact ⟨fun _ => rfl, fun _ => rfl⟩
    · exact ⟨fun _ => rfl, fun _ => rfl⟩
    · rfl
    · exact fun _ => hc
    · rintro d p ⟨⟩
    · rintro v text ⟨⟩
  | fails hc hmode hfails =>
    constructor
    · exact ⟨by rintro ⟨⟩, by rintro ⟨⟩⟩
    · refine ⟨by rintro ⟨⟩, ?_⟩
      intro hstatus
      exact absurd (hm.symm.trans hstatus) (by decide)
    · rfl
    · rintro ⟨⟩
    · intro d p hfault
      cases hfails with
      | unknown h =>
        cases hfault
        exact ⟨rfl, rfl, hc, h, hmode⟩
      | output _ _ => cases hfault
      | put _ _ => cases hfault
    · intro v text hfault
      cases hfails with
      | unknown _ => cases hfault
      | output hc h =>
        cases hfault
        exact ⟨hmode, h, Or.inl ⟨hc, rfl⟩⟩
      | put hc h =>
        cases hfault
        exact ⟨hmode, h, Or.inr ⟨hc, rfl⟩⟩

theorem LastCycle.snapshot_at? {e : Ending ρ} (h : m.LastCycle e) (i j : Nat) :
    e.machine.snapshot.at? i j = m.settle.snapshot.at? i j ∧
      e.machine.position = m.settle.position := by
  cases h with
  | halts _ => exact ⟨rfl, rfl⟩
  | fails _ _ _ => exact ⟨rfl, rfl⟩

variable [RandomSource ρ]

/-- What a report says of the end of a run fits the state that it shows, on the machine of any
options. The pointer is on the playfield, and the cell under it is the one that ended the run: the
halting cell, or the one that the fault is about. -/
theorem a_report_fits_the_state_it_shows {limit : Nat} {source : String} {r : Report}
    (hw : (Playfield.ofSource source).width < 2 ^ 63)
    (hh : (Playfield.ofSource source).height < 2 ^ 63)
    (h : m.reportWithin limit source = some r) :
    ∃ (i j : Nat) (c : Char), r.state.position.x.toInt = i ∧ r.state.position.y.toInt = j ∧
      r.state.at? i j = some c ∧ r.Fits c := by
  obtain ⟨e, he, rfl⟩ := Option.map_eq_some_iff.1 h
  obtain ⟨k, _, hends⟩ := endsAfter_of_runWithin (m := m.load source) rfl he
  have hg := wellFormed_after (m := m.load source) (Playfield.wellFormed_ofSource source) k
  have hlast := hends.lastCycle
  obtain ⟨i, j, hx, hy, hcell⟩ := snapshot_settle hg
    (by rw [after_width]; exact hw) (by rw [after_height]; exact hh)
  obtain ⟨hat, hplace⟩ := hlast.snapshot_at? i j
  refine ⟨i, j, _, ?_, ?_, hat.trans hcell, hlast.fits hends.running⟩
  · rw [← hx, ← hplace]
    rfl
  · rw [← hy, ← hplace]
    rfl

/-- A program that puts an unknown instruction into its first cell and comes back to it. -/
theorem a_cell_that_was_put_is_reported :
    let m := Machine.fresh (⟨0, 1⟩ : Progression)
    ∃ r, m.reportWithin 9 "\"x\"00p" = some r ∧
      r.fault = some (.unknownInstruction 'x' ⟨0, 0⟩) ∧ r.state.rows = ["xx\"00p"] ∧
      ∃ (i j : Nat) (c : Char), r.state.position.x.toInt = i ∧ r.state.position.y.toInt = j ∧
        r.state.at? i j = some c ∧ r.Fits c := by
  intro m
  have hrun : (m.reportWithin 9 "\"x\"00p").map (fun r => (r.fault, r.state.rows)) =
      some (some (.unknownInstruction 'x' ⟨0, 0⟩), ["xx\"00p"]) := by
    decide
  obtain ⟨r, hr, hshown⟩ := Option.map_eq_some_iff.1 hrun
  obtain ⟨hfault, hrows⟩ := Prod.mk.inj hshown
  exact ⟨r, hr, hfault, hrows, a_report_fits_the_state_it_shows (by decide) (by decide) hr⟩

end Machine

end Befunge
