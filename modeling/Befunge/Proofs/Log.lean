-- The log of a run. It tells of the program that was loaded, then of every cell that is executed,
-- as the playfield is at that moment, and last of how the run ended. It tells of nothing else, so
-- its length is the number of counted cells up to a constant.
import Befunge.Proofs.Ending
import Mathlib.Data.List.Basic

namespace Befunge

namespace Machine

variable {ρ : Type}

/-! ## The lines of a log -/

/-- The line that tells of the playfield that was laid out. -/
def loadedLine (m : Machine ρ) : Line where
  level := .debug
  message := "program loaded"
  data := [("width", .number m.field.width), ("height", .number m.field.height)]

/-- The line that tells of the cell under the pointer, which is brought onto the playfield
first. -/
def fetchLine (m : Machine ρ) : Line where
  level := .trace
  message := "step"
  data :=
    [("x", .number m.settle.position.x.toInt), ("y", .number m.settle.position.y.toInt),
      ("ch", .text (Quoted.text m.settle.cell)), ("direction", .text m.heading.name)]

variable [RandomSource ρ] {m : Machine ρ}

/-- The lines that tell of the first `n` cells that are executed, one for each. -/
def fetchLines (m : Machine ρ) (n : Nat) : List Line :=
  (List.range n).map fun j => (m.after j).fetchLine

theorem fetchLines_succ (m : Machine ρ) (n : Nat) :
    m.fetchLines (n + 1) = m.fetchLines n ++ [(m.after n).fetchLine] := by
  unfold fetchLines
  rw [List.range_succ, List.map_append]
  rfl

/-! ## The events of a cycle -/

theorem Executed.lines_eq (h : m.Executed) : m.step.events.map Event.line = [m.fetchLine] := by
  rw [h.events_eq]
  rfl

/-- The halting cell is not told of. -/
theorem events_of_halted (h : m.step.turn = .halted) : m.step.events = [] := by
  cases hs : m.status with
  | halted => rw [step_of_halted hs]
  | running =>
    rw [step_of_running hs] at h ⊢
    unfold visit at h ⊢
    by_cases hc : m.settle.cell = haltCell
    · rw [if_pos hc]
    · rw [if_neg hc] at h
      rcases he : m.settle.execute m.settle.cell with ⟨next, _ | (_ | _)⟩ <;> simp [he] at h

/-- A cell that fails is told of before its fault. -/
theorem events_of_fault {f : Fault} (h : m.step.turn = .stopped (.fault f)) :
    m.step.events = [.step m.settle.position m.settle.cell m.heading, .aborted f] := by
  cases hs : m.status with
  | halted =>
    rw [step_of_halted hs] at h
    cases h
  | running =>
    rw [step_of_running hs] at h ⊢
    unfold visit at h ⊢
    by_cases hc : m.settle.cell = haltCell
    · simp [hc] at h
    · rw [if_neg hc] at h ⊢
      rcases he : m.settle.execute m.settle.cell with ⟨next, _ | (_ | _)⟩ <;> simp [he] at h ⊢
      exact ⟨rfl, h⟩

/-! ## The events of a run -/

/-- A run that ends is made of the cycles up to its last one. -/
theorem EndsAfter.cycles_eq {k limit : Nat} {e : Ending ρ} (h : m.EndsAfter k e) (hk : k < limit) :
    m.cycles limit = (List.range (k + 1)).map fun j => (m.after j).step := by
  induction k generalizing m limit with
  | zero =>
    obtain ⟨limit, rfl⟩ := Nat.exists_eq_add_of_lt hk
    have hend : m.step.ending? = some e := h.ending?_eq
    simp only [Nat.zero_add, cycles]
    split
    · rename_i hturn
      simp [Progress.ending?, hturn] at hend
    · rfl
  | succ k ih =>
    obtain ⟨limit, rfl⟩ := Nat.exists_eq_add_of_lt hk
    have hrest : m.step.machine.EndsAfter k e := by
      obtain ⟨hexecuted, hrunning, hend⟩ := h
      rw [after_succ_left] at hrunning hend
      refine ⟨?_, hrunning, hend⟩
      intro j hj
      rw [← after_succ_left]
      exact hexecuted (j + 1) (by omega)
    have hturn : m.step.turn = .running := (h.executed 0 (by omega)).turn_eq
    have hcycles := ih hrest (show k < k + 1 + limit by omega)
    rw [List.range_succ_eq_map, List.map_cons, List.map_map]
    simp only [cycles, hturn, hcycles]
    apply congrArg (m.step :: ·)
    apply List.map_congr_left
    intro j _
    rw [Function.comp_apply, after_succ_left]

/-- The lines of a run that ends: one for each cell that is executed before its last cycle, and
those of that cycle. -/
theorem EndsAfter.lines_eq {k limit : Nat} {e : Ending ρ} (h : m.EndsAfter k e) (hk : k < limit) :
    (m.watchFor limit).events.map Event.line =
      m.fetchLines k ++ (m.after k).step.events.map Event.line := by
  rw [watchFor_events, h.cycles_eq hk, List.range_succ]
  simp only [List.map_append, List.flatMap_append, List.map_cons, List.map_nil,
    List.flatMap_cons, List.flatMap_nil, List.append_nil]
  apply congrArg (· ++ _)
  unfold fetchLines
  rw [List.flatMap_map, List.map_flatMap, List.map_eq_flatMap]
  apply List.flatMap_congr
  intro j hj
  exact (h.executed j (List.mem_range.1 hj)).lines_eq

/-- The lines of a run that halts, with the one that tells of its end. -/
theorem EndsAfter.lines_of_halted {k limit : Nat} {e : Ending ρ} (h : m.EndsAfter k e)
    (hk : k < limit) (hfault : e.fault = none) :
    (m.watchFor limit).events.map Event.line ++ e.events.map Event.line =
      m.fetchLines k ++ [⟨.debug, "program halted",
        [("steps", .number e.machine.steps.toNat),
          ("output_len", .number e.machine.output.utf8ByteSize)]⟩] := by
  have hturn := turn_of_ending? h.ending?_eq
  simp only [hfault] at hturn
  have hend : e.events = [.halted e.machine.steps e.machine.output.utf8ByteSize] := by
    unfold Ending.events
    rw [hfault]
  rw [h.lines_eq hk, events_of_halted hturn, hend, List.map_nil, List.append_nil]
  rfl

/-- The lines of a run that fails, with those that tell of the fault. -/
theorem EndsAfter.lines_of_fault {k limit : Nat} {e : Ending ρ} {f : Fault} (h : m.EndsAfter k e)
    (hk : k < limit) (hfault : e.fault = some f) :
    (m.watchFor limit).events.map Event.line ++ e.events.map Event.line =
      m.fetchLines (k + 1) ++
        [⟨.warn, "run aborted", [("err", .text f.message), ("code", .text f.code.text)]⟩,
          ⟨.debug, "run failed", [("code", .text f.code.text)]⟩] := by
  have hturn := turn_of_ending? h.ending?_eq
  simp only [hfault] at hturn
  have hend : e.events = [.failed f] := by
    unfold Ending.events
    rw [hfault]
  rw [h.lines_eq hk, events_of_fault hturn, hend, fetchLines_succ, List.append_assoc,
    List.append_assoc]
  rfl

/-- The cells that are executed are counted, up to the range of the counter. -/
theorem EndsAfter.steps_eq {k : Nat} {e : Ending ρ} (h : m.EndsAfter k e) (hm : m.steps = 0) :
    e.machine.steps = UInt64.ofNat k := by
  have hcount : ∀ j ≤ k, (m.after j).steps = UInt64.ofNat j := by
    intro j hj
    induction j with
    | zero => exact hm
    | succ j ih =>
      rw [after_succ, (h.executed j (by omega)).steps_eq, ih (by omega), UInt64.ofNat_add]
      rfl
  rw [← hcount k (Nat.le_refl k)]
  cases h.lastCycle with
  | halts _ => rfl
  | fails _ _ _ => rfl

/-! ## The log of a source -/

/-- A log tells what happened. First it tells of the size of the playfield; then of every cell that
is executed, with the place, the character and the heading at that moment; and last of the end. The
program halted, with this many counted cells and this many bytes of output; or the last cell that
was told of failed and was not counted, and then the fault is told of twice. Nothing else is told.
The counter must not have wrapped around. -/
theorem a_log_tells_what_happened {limit : Nat} {source : String} {events : List Event}
    {r : Report} (hlimit : limit ≤ 2 ^ 64) (h : m.logWithin limit source = some (events, r)) :
    let s := m.load source
    let n := r.state.steps.toNat
    m.reportWithin limit source = some r ∧
      (∀ j < n, (s.after j).step.turn = .running) ∧
      (r.success = true → (s.after n).step.turn = .halted ∧
        events.map Event.line = s.loadedLine :: (s.fetchLines n ++
          [⟨.debug, "program halted",
            [("steps", .number n), ("output_len", .number r.output.utf8ByteSize)]⟩])) ∧
      (r.success = false → ∃ f, r.fault = some f ∧
        (s.after n).step.turn = .stopped (.fault f) ∧
        events.map Event.line = s.loadedLine :: (s.fetchLines (n + 1) ++
          [⟨.warn, "run aborted", [("err", .text f.message), ("code", .text f.code.text)]⟩,
            ⟨.debug, "run failed", [("code", .text f.code.text)]⟩])) := by
  intro s n
  obtain ⟨e, he, hlog⟩ := Option.map_eq_some_iff.1 h
  obtain ⟨rfl, rfl⟩ := Prod.mk.inj hlog
  have hrun : s.runWithin limit = some e := by
    unfold runWithin
    rw [← watchFrom_toProgress [] limit s]
    exact he
  obtain ⟨k, hk, hends⟩ := endsAfter_of_runWithin (m := s) rfl hrun
  have hn : n = k := by
    have hsteps : n = e.machine.steps.toNat := rfl
    rw [hsteps, hends.steps_eq rfl, UInt64.toNat_ofNat_of_lt' (by unfold UInt64.size; omega)]
  have hturn := turn_of_ending? hends.ending?_eq
  refine ⟨congrArg (Option.map Report.ofEnding) hrun, ?_, ?_, ?_⟩
  · intro j hj
    exact (hends.executed j (by omega)).turn_eq
  · intro hsuccess
    have hfault : e.fault = none := Option.isNone_iff_eq_none.1 hsuccess
    simp only [hfault] at hturn
    rw [hn]
    refine ⟨hturn, ?_⟩
    rw [List.map_cons, List.map_append, hends.lines_of_halted hk hfault, ← hn]
    rfl
  · intro hsuccess
    obtain ⟨f, hfault⟩ := Option.isSome_iff_exists.1 (Option.isNone_eq_false_iff.1 hsuccess)
    simp only [hfault] at hturn
    rw [hn]
    refine ⟨f, hfault, hturn, ?_⟩
    rw [List.map_cons, List.map_append, hends.lines_of_fault hk hfault]
    rfl

/-- The log of a program that fails at its first cell, where it has put an unknown instruction:
six cells are counted, and seven are told of. -/
theorem a_cell_that_was_put_is_logged :
    let m := Machine.fresh (⟨0, 1⟩ : Progression)
    let s := m.load "\"x\"00p"
    ∃ events r, m.logWithin 9 "\"x\"00p" = some (events, r) ∧ r.state.steps = 6 ∧
      (s.after 6).fetchLine = ⟨.trace, "step",
        [("x", .number 0), ("y", .number 0), ("ch", .text "'x'"), ("direction", .text "right")]⟩ ∧
      events.map Event.line = s.loadedLine :: (s.fetchLines 7 ++
        [⟨.warn, "run aborted",
            [("err", .text "unknown operation 'x' at (0, 0)"), ("code", .text "E100")]⟩,
          ⟨.debug, "run failed", [("code", .text "E100")]⟩]) := by
  intro m s
  have hrun : (m.logWithin 9 "\"x\"00p").map (fun l => (l.2.fault, l.2.success, l.2.state.steps)) =
      some (some (.unknownInstruction 'x' ⟨0, 0⟩), false, 6) := by
    decide
  obtain ⟨⟨events, r⟩, hlog, hshown⟩ := Option.map_eq_some_iff.1 hrun
  simp only [Prod.mk.injEq] at hshown
  obtain ⟨hfault, hsuccess, hsteps⟩ := hshown
  obtain ⟨_, _, _, hfailed⟩ := a_log_tells_what_happened (by decide) hlog
  obtain ⟨f, hf, _, hlines⟩ := hfailed hsuccess
  rw [hfault] at hf
  cases hf
  rw [hsteps] at hlines
  exact ⟨events, r, hlog, hsteps, by decide, hlines⟩

end Machine

end Befunge
