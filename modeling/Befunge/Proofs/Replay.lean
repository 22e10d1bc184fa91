-- Replay. A run fetches one character after another and hands it on to be executed. Executing
-- the same characters on another machine does the same to everything but the pointer. Nothing
-- brings that pointer back onto the playfield, but it always means the cell that the pointer of
-- the run means.
import Befunge.Proofs.Elsewhere
import Befunge.Random.Progression

namespace Befunge

/-! ## Alike but for the pointer -/

/-- Two reasons to stop are alike if they differ at most in the place of an unknown instruction,
and the two places mean the same cell. -/
def Stop.Alike (g : Playfield) : Stop → Stop → Prop
  | .fault (.unknownInstruction c p), s' =>
    ∃ q, g.SameCell q p ∧ s' = .fault (.unknownInstruction c q)
  | s, s' => s' = s

/-- A reply to executing a character tells what a cycle came to. -/
def Reply.Echoes (g : Playfield) : Reply → Turn → Prop
  | .done, t => t = .running
  | .stopped s', t => ∃ s : Stop, t = .stopped s ∧ s.Alike g s'
  | _, _ => False

namespace Machine

variable {ρ : Type} [RandomSource ρ]

/-- The next cycle does not lead the pointer out of the words. -/
def CycleHasRoom (m : Machine ρ) : Prop :=
  IsWord (Torus.wrap m.position.x.toInt m.field.width) ∧
    IsWord (Torus.wrap m.position.y.toInt m.field.height) ∧ m.settle.HasRoom m.settle.cell

end Machine

/-! ## The characters of a run -/

/-- The character that an event says is executed. -/
def Event.cell? : Event → Option Char
  | .step _ c _ => some c
  | _ => none

namespace Machine

variable {ρ : Type} [RandomSource ρ] {m s t : Machine ρ}

/-- The characters that at most `n` cycles fetch and hand on to be executed, as the log of the
run has them. -/
def script (m : Machine ρ) (n : Nat) : List Char :=
  (m.watchFor n).events.filterMap Event.cell?

/-- Executing characters one after another. -/
def replay (m : Machine ρ) (cs : List Char) : List Reply × Machine ρ := m.plays (cs.map .execute)

theorem script_zero (m : Machine ρ) : m.script 0 = [] := rfl

theorem script_succ (m : Machine ρ) (n : Nat) :
    m.script (n + 1) =
      m.step.events.filterMap Event.cell? ++
        if m.step.turn = .running then m.step.machine.script n else [] := by
  unfold script
  rw [watchFor_events, watchFor_events, cycles]
  cases m.step.turn <;> simp

/-- A cycle that halts or is halted executes nothing, and every other one executes the cell that
it fetches. -/
theorem step_script (m : Machine ρ) :
    m.step.turn = .halted ∧ m.step.events.filterMap Event.cell? = [] ∨
      m.status = .running ∧ m.settle.cell ≠ haltCell ∧ m.step.turn ≠ .halted ∧
        m.step.events.filterMap Event.cell? = [m.settle.cell] := by
  cases hs : m.status with
  | halted =>
    left
    rw [step_of_halted hs]
    exact ⟨rfl, rfl⟩
  | running =>
    rw [step_of_running hs]
    unfold visit
    by_cases hc : m.settle.cell = haltCell
    · left
      rw [if_pos hc]
      exact ⟨rfl, rfl⟩
    · right
      rw [if_neg hc]
      refine ⟨rfl, hc, ?_⟩
      rcases m.settle.execute m.settle.cell with ⟨next, _ | (_ | _)⟩ <;>
        exact ⟨by simp, rfl⟩

/-- The characters of a run are the cells under the pointer, cycle by cycle. -/
theorem script_getElem? {n k : Nat} {c : Char} (h : (m.script n)[k]? = some c) :
    (m.after k).settle.cell = c ∧ c ≠ haltCell := by
  induction n generalizing m k with
  | zero => simp [script_zero] at h
  | succ n ih =>
    rw [script_succ] at h
    rcases m.step_script with ⟨hturn, hevents⟩ | ⟨_, hc, _, hevents⟩
    · simp [hevents, hturn] at h
    · rw [hevents] at h
      cases k with
      | zero =>
        simp only [List.cons_append, List.getElem?_cons_zero, Option.some.injEq] at h
        rw [after_zero, ← h]
        exact ⟨rfl, hc⟩
      | succ k =>
        simp only [List.cons_append, List.nil_append, List.getElem?_cons_succ] at h
        split at h
        · rw [after_succ_left]
          exact ih h
        · simp at h

theorem length_script_le (m : Machine ρ) (n : Nat) : (m.script n).length ≤ n := by
  induction n generalizing m with
  | zero => simp [script_zero]
  | succ n ih =>
    rw [script_succ, List.length_append]
    have hevents : (m.step.events.filterMap Event.cell?).length ≤ 1 := by
      rcases m.step_script with ⟨_, h⟩ | ⟨_, _, _, h⟩ <;> simp [h]
    split
    · have := ih m.step.machine
      omega
    · simp only [List.length_nil]
      omega

/-- A run that fails does so at the last of its characters. -/
theorem script_of_stopped {n : Nat} {stop : Stop} (h : (m.runFor n).turn = .stopped stop) :
    ∃ k, (m.script n).length = k + 1 ∧ (m.after k).step.turn = .stopped stop := by
  induction n generalizing m with
  | zero => cases h
  | succ n ih =>
    rw [script_succ]
    rcases m.step_script with ⟨hturn, _⟩ | ⟨_, _, _, hevents⟩
    · rw [runFor_succ_of_ne (by rw [hturn]; simp)] at h
      rw [h] at hturn
      cases hturn
    · rw [hevents]
      by_cases hrun : m.step.turn = .running
      · rw [runFor_succ_of_running hrun] at h
        obtain ⟨k, hk, hstop⟩ := ih h
        rw [if_pos hrun]
        refine ⟨k + 1, ?_, ?_⟩
        · simp [hk]
        · rw [after_succ_left]
          exact hstop
      · rw [runFor_succ_of_ne hrun] at h
        rw [if_neg hrun]
        exact ⟨0, rfl, h⟩

/-! ## Executing them again -/

/-- The second machine is what the first one is, but for a pointer that may lie elsewhere and
means the same cell, and for the count of cells, which is zero. Both are running. -/
structure ReplayedBy (s t : Machine ρ) : Prop where
  same : t = { s with position := t.position, steps := 0 }
  place : s.field.SameCell t.position s.position
  running : t.status = .running

theorem CycleHasRoom.sameCell (hg : s.field.WellFormed) (hs : s.CycleHasRoom) :
    s.field.SameCell s.settle.position s.position :=
  Playfield.sameCell_settle hg hs.1 hs.2.1

/-- On a small playfield, a cycle never leads the pointer out of the words. -/
theorem cycleHasRoom_of_addressable (hg : s.field.Addressable) : s.CycleHasRoom := by
  have hword : ∀ (c : Int) {d : Nat}, 0 < d → d < 2 ^ 62 → IsWord (Torus.wrap c d) := by
    intro c d hd hlt
    have := Torus.wrap_lt c hd
    constructor <;> omega
  refine ⟨hword _ hg.width_pos hg.width_lt, hword _ hg.height_pos hg.height_lt, ?_⟩
  apply hg.hasRoom (hg.nearby_settle s.position)
  have hlength := s.settle.length_moves_le s.settle.cell
  omega

theorem replayedBy_execute {p : Point} {c : Char} (hg : m.field.WellFormed)
    (hs : m.status = .running) (hp : m.field.SameCell p m.position) (hm : m.HasRoom c)
    (ht : (m.elsewhere p 0).HasRoom c) :
    (m.execute c).machine.ReplayedBy ((m.elsewhere p 0).execute c).machine := by
  unfold HasRoom at ht
  rw [moves_elsewhere] at ht
  have htravel := hp.travel hg ht hm
  rw [← execute_position] at htravel
  rw [execute_elsewhere]
  refine ⟨rfl, ?_, ?_⟩
  · rcases m.execute_field c with hf | ⟨x, y, d, hf⟩
    · rw [hf]
      exact htravel
    · apply htravel.congr
      · rw [hf, Playfield.width_write]
      · rw [hf, Playfield.height_write]
  · exact (m.execute_status c).trans hs

/-- What fails fails alike with the pointer at another place that means the same cell. -/
theorem stop_alike {p : Point} {c : Char} {k : UInt64} {stop : Stop}
    (hp : m.field.SameCell p m.position) (h : (m.execute c).stop = some stop) :
    ((m.elsewhere p k).execute c).stop = some (stop.at p) ∧ stop.Alike m.field (stop.at p) := by
  have hhere := m.execute_stop_at c
  rw [h, Option.map_some, Option.some.injEq] at hhere
  refine ⟨?_, ?_⟩
  · rw [execute_elsewhere, h]
    rfl
  · rcases stop with (⟨d, q⟩ | ⟨v, text⟩) | _
    · cases hhere
      exact ⟨p, hp, rfl⟩
    · rfl
    · rfl

/-- A cycle is replayed by executing the cell that it fetches. -/
theorem ReplayedBy.step (h : s.ReplayedBy t) (hg : s.field.WellFormed)
    (hc : s.settle.cell ≠ haltCell) (hs : s.CycleHasRoom) (ht : t.HasRoom s.settle.cell) :
    s.step.machine.ReplayedBy (t.execute s.settle.cell).machine ∧
      (t.answer (.execute s.settle.cell)).1.Echoes s.field s.step.turn := by
  obtain ⟨hsame, hplace, hrun⟩ := h
  rw [hsame] at hrun
  have hp : s.field.SameCell t.position s.settle.position := hplace.trans (hs.sameCell hg).symm
  have ht' : t = s.settle.elsewhere t.position 0 := hsame
  generalize t.position = p at hp ht'
  subst ht'
  have hafter := replayedBy_execute (m := s.settle) hg hrun hp hs.2.2 ht
  rcases s.step_cases with ⟨h, _⟩ | ⟨_, h, _⟩ | ⟨_, _, hstop, h⟩ | ⟨_, _, stop, hstop, h⟩
  · exact absurd (h.symm.trans hrun) (by decide)
  · exact absurd h hc
  · refine ⟨?_, ?_⟩
    · rw [h]
      exact ⟨hafter.same, hafter.place, hafter.running⟩
    · simp only [answer, execute_elsewhere, hstop, h]
      rfl
  · obtain ⟨hstop', halike⟩ := stop_alike (k := 0) hp hstop
    refine ⟨?_, ?_⟩
    · rw [congrArg Progress.machine h]
      exact hafter
    · simp only [answer, hstop']
      exact ⟨stop, congrArg Progress.turn h, halike⟩

theorem replay_take_succ (t : Machine ρ) {cs : List Char} {k : Nat} {c : Char}
    (h : cs[k]? = some c) :
    (t.replay (cs.take (k + 1))).2 = ((t.replay (cs.take k)).2.execute c).machine := by
  have htake : cs.take (k + 1) = cs.take k ++ [c] := by
    rw [List.take_add_one, h]
    rfl
  unfold replay
  rw [htake, List.map_append, plays_append, List.map_singleton, plays_cons]
  exact answer_execute _ c

theorem replay_getElem? (t : Machine ρ) {cs : List Char} {k : Nat} {c : Char}
    (h : cs[k]? = some c) :
    (t.replay cs).1[k]? = some ((t.replay (cs.take k)).2.answer (.execute c)).1 := by
  unfold replay
  rw [plays_getElem?, List.getElem?_map, h, List.map_take]
  rfl

/-- A run is replayed cycle by cycle. -/
theorem replayedBy_after {n : Nat} (h : s.ReplayedBy t) (hg : s.field.WellFormed)
    (hs : ∀ k < (s.script n).length, (s.after k).CycleHasRoom)
    (ht : ∀ (k : Nat) (hk : k < (s.script n).length),
      (t.replay ((s.script n).take k)).2.HasRoom (s.script n)[k]) (k : Nat)
    (hk : k ≤ (s.script n).length) :
    (s.after k).ReplayedBy (t.replay ((s.script n).take k)).2 := by
  induction k with
  | zero => exact h
  | succ k ih =>
    have hget := List.getElem?_eq_getElem (Nat.lt_of_succ_le hk)
    obtain ⟨hcell, hne⟩ := script_getElem? hget
    have hroom := ht k hk
    rw [← hcell] at hroom hne
    obtain ⟨hnext, _⟩ := (ih (by omega)).step (wellFormed_after hg k) hne (hs k hk) hroom
    rw [replay_take_succ t hget, after_succ, ← hcell]
    exact hnext

/-- Executing the characters that a run fetched, one by one, on another machine that has loaded
the same source and has the same random source, leaves it after every character as the run was,
but for its pointer, which means the same cell, and its count of cells, which stays zero. Every
reply tells what the cycle came to, so the run and its replay fail at the same character or not at
all. The pointers of both must not leave the words; that of the run never does on a playfield
whose sizes are far from the largest word. -/
theorem executing_what_was_fetched_replays_the_run {m m' : Machine ρ}
    (hrandom : m'.random = m.random) (source : String) (n : Nat) :
    let s := m.load source
    let t := m'.load source
    let script := s.script n
    (∀ k < script.length, (s.after k).CycleHasRoom) →
    (∀ (k : Nat) (hk : k < script.length), (t.replay (script.take k)).2.HasRoom script[k]) →
    (∀ k ≤ script.length, (s.after k).ReplayedBy (t.replay (script.take k)).2) ∧
      (∀ k < script.length, ∃ reply, (t.replay script).1[k]? = some reply ∧
        reply.Echoes (s.after k).field (s.after k).step.turn) ∧
      script.length ≤ n ∧
      ∀ stop, (s.runFor n).turn = .stopped stop →
        ∃ k, script.length = k + 1 ∧ (s.after k).step.turn = .stopped stop := by
  intro s t script hs ht
  have hload : t = s := congrArg (Machine.start (Playfield.ofSource source)) hrandom
  have hg : s.field.WellFormed := Playfield.wellFormed_ofSource source
  have hself : s.ReplayedBy t := by
    rw [hload]
    exact ⟨rfl, rfl, rfl⟩
  have hafter := replayedBy_after hself hg hs ht
  refine ⟨hafter, ?_, length_script_le s n, fun stop h => script_of_stopped h⟩
  intro k hk
  have hget := List.getElem?_eq_getElem hk
  obtain ⟨hcell, hne⟩ := script_getElem? hget
  have hroom := ht k hk
  rw [← hcell] at hroom hne
  obtain ⟨_, hreply⟩ := (hafter k (Nat.le_of_lt hk)).step (wellFormed_after hg k) hne (hs k hk)
    hroom
  rw [hcell] at hreply
  exact ⟨_, replay_getElem? t hget, hreply⟩

/-- The run leaves the playfield at its left edge and comes back, while the pointer of the replay
goes on to the left. It means the same unknown instruction, but tells of another place. -/
theorem a_replay_runs_off_to_the_left :
    let m := Machine.fresh (⟨0, 1⟩ : Progression)
    let s := m.load "<&1#5"
    let script := s.script 9
    script = ['<', '5', '#', '&'] ∧
      ((s.after 4).position = ⟨1, 0⟩ ∧ (s.replay script).2.position = ⟨-4, 0⟩) ∧
      (∀ k ≤ script.length, (s.after k).ReplayedBy (s.replay (script.take k)).2) ∧
      (∀ k < script.length, ∃ reply, (s.replay script).1[k]? = some reply ∧
        reply.Echoes (s.after k).field (s.after k).step.turn) ∧
      script.length ≤ 9 ∧
      ∀ stop, (s.runFor 9).turn = .stopped stop →
        ∃ k, script.length = k + 1 ∧ (s.after k).step.turn = .stopped stop := by
  intro m s script
  have hg : s.field.Addressable := Playfield.addressable_ofSource (by decide) (by decide)
  refine ⟨by decide, by decide, ?_⟩
  apply executing_what_was_fetched_replays_the_run rfl "<&1#5" 9
  · intro k _
    exact cycleHasRoom_of_addressable (addressable_after hg k)
  · decide

end Machine

end Befunge
