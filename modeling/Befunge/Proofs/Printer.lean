-- A program that prints a text. It pushes a line feed and reads the text in string mode, from its
-- end to its beginning. A loop then writes the number on top until the stack is empty and gives
-- the zero that ends the loop. Its bridge is crossed to the right with two copies of the number,
-- and to the left after the character is written.
import Befunge.Proofs.Layout
import Befunge.Proofs.Reaching

namespace Befunge

/-! ## The program -/

/-- The cells behind the text: the quote that ends it, the loop, and the end. -/
def printerLoop : List Char := ['"', '>', ':', '#', ',', '_', '@']

/-- The cells of the program that prints a text. -/
def printerCells (text : List Char) : List Char :=
  ['6', '4', '+', '"'] ++ (text.reverse ++ printerLoop)

/-- The source of the program that prints a text, in one row. -/
def printer (text : String) : String := String.ofList (printerCells text.toList)

example : printer "Hello, World!" = "64+\"!dlroW ,olleH\">:#,_@" := by decide

/-- The characters that would end the text, the loop, the program or the row if they stood in the
text. -/
def reserved : List Char := ['\x00', quoteCell, haltCell, '\n']

variable {text : List Char}

theorem length_printerCells (text : List Char) :
    (printerCells text).length = text.length + 11 := by
  simp [printerCells, printerLoop]

theorem printerCells_ne_nil (text : List Char) : printerCells text ≠ [] := List.cons_ne_nil _ _

theorem printerCells_text {done rest : List Char} {c : Char}
    (h : text.reverse = done ++ c :: rest) : (printerCells text)[done.length + 4]? = some c := by
  unfold printerCells
  rw [h, List.append_assoc]
  simp

theorem printerCells_loop (text : List Char) (j : Nat) :
    (printerCells text)[text.length + 4 + j]? = printerLoop[j]? := by
  have hlength : (['6', '4', '+', '"'] ++ text.reverse).length = text.length + 4 := by simp
  unfold printerCells
  rw [← List.append_assoc, List.getElem?_append_right (by omega), hlength,
    Nat.add_sub_cancel_left]

theorem ofSource_printer {s : String} (h : '\n' ∉ s.toList) :
    Playfield.ofSource (printer s) = Playfield.ofLines [printerCells s.toList] := by
  have hline : ∀ line ∈ [printerCells s.toList], '\n' ∉ line := by
    intro line hmem
    rw [List.mem_singleton.1 hmem]
    simpa [printerCells, printerLoop] using h
  have hjoin : printer s = String.ofList (Lines.join [printerCells s.toList]) := rfl
  rw [hjoin]
  exact Playfield.ofSource_join (List.cons_ne_nil _ _) hline

/-! ## The run -/

namespace Machine

variable {ρ : Type} (text : List Char) (r : ρ)

/-- The machine that prints a text, with its pointer in the given column and with the given numbers
on the stack, the top one first. After the text the columns hold `">:#,_@`. -/
def printing (mode : Bool) (x : Nat) (h : Heading) (items : List Value) (output : String)
    (steps : Nat) : Machine ρ where
  field := Playfield.ofLines [printerCells text]
  stack := ⟨items⟩
  position := ⟨Int64.ofNat x, 0⟩
  heading := h
  stringMode := mode
  output := output
  status := .running
  steps := UInt64.ofNat steps
  random := r

variable {text r} {mode : Bool} {x : Nat} {h : Heading} {items : List Value} {output : String}
  {k : Nat} {c : Char}

theorem printing_right :
    (printing text r mode x .right items output k).advance =
      printing text r mode (x + 1) .right items output k := by
  have hx : Int64.ofNat x + 1 = Int64.ofNat (x + 1) := (Int64.ofNat_add x 1).symm
  exact congrArg (fun v => { printing text r mode x .right items output k with position := ⟨v, 0⟩ })
    hx

theorem printing_left :
    (printing text r mode (x + 1) .left items output k).advance =
      printing text r mode x .left items output k := by
  have hx : Int64.ofNat (x + 1) + -1 = Int64.ofNat x := by
    rw [Int64.ofNat_add, Int64.add_assoc]
    exact Int64.add_zero _
  exact congrArg (fun v => { printing text r mode x .left items output k with position := ⟨v, 0⟩ })
    hx

theorem printing_count :
    (printing text r mode x h items output k).count =
      printing text r mode x h items output (k + 1) := by
  have hk : UInt64.ofNat k + 1 = UInt64.ofNat (k + 1) := (UInt64.ofNat_add k 1).symm
  exact congrArg (fun n => { printing text r mode x h items output k with steps := n }) hk

section Cell

variable (hlen : text.length < 2 ^ 60) (hc : (printerCells text)[x]? = some c)
include hlen hc

/-- A pointer within the row is on the playfield already. -/
theorem settle_printing :
    (printing text r mode x h items output k).settle =
      printing text r mode x h items output k := by
  have hlt := (List.getElem?_eq_some_iff.1 hc).1
  have hlength := length_printerCells text
  have hx : (Int64.ofNat x).toInt = x := Int64.toInt_ofNat_of_lt (by omega)
  have hg := Playfield.addressable_row (printerCells_ne_nil text) (by omega)
  have hnear : (Playfield.ofLines [printerCells text]).Nearby 0 ⟨Int64.ofNat x, 0⟩ := by
    have hwidth : (Playfield.ofLines [printerCells text]).width = (printerCells text).length :=
      Playfield.widest_row (printerCells_ne_nil text)
    have hheight := hg.height_pos
    have hy : (0 : Int64).toInt = 0 := Int64.toInt_zero
    constructor <;> simp only <;> omega
  exact congrArg (fun p => { printing text r mode x h items output k with position := p })
    (hg.settle_eq_self hnear)

theorem printing_cell : (printing text r mode x h items output k).settle.cell = c := by
  have hlt := (List.getElem?_eq_some_iff.1 hc).1
  have hlength := length_printerCells text
  have hx : (Int64.ofNat x).toInt = x := Int64.toInt_ofNat_of_lt (by omega)
  have hwrap := Torus.wrap_of_lt (c := x) (d := (printerCells text).length) (by omega) (by omega)
  rw [settle_printing hlen hc]
  show (Playfield.ofLines [printerCells text]).read (Int64.ofNat x).toInt 0 = c
  rw [Playfield.read_row (printerCells_ne_nil text), hx, Int.natCast_inj.1 hwrap,
    List.getD_eq_getElem?_getD, hc]
  rfl

variable [RandomSource ρ] {i : Instruction} {items' : List Value} {output' : String} {x' : Nat}

/-- A cycle outside of string mode performs the instruction in its column. -/
theorem goes {m' : Machine ρ} (hi : Instruction.ofChar? c = some i)
    (hp : (printing text r false x h items output k).perform i = .done m') :
    (printing text r false x h items output k).Reaches 1 m'.advance.count := by
  apply reaches_of_instruction rfl rfl
  · rw [printing_cell hlen hc, hi]
  · rw [settle_printing hlen hc, hp]

/-- An instruction that leaves the pointer going to the right. -/
theorem goes_right (hi : Instruction.ofChar? c = some i)
    (hp : (printing text r false x h items output k).perform i =
      .done (printing text r false x' .right items' output' k)) :
    (printing text r false x h items output k).Reaches 1
      (printing text r false (x' + 1) .right items' output' (k + 1)) := by
  rw [← printing_count, ← printing_right]
  exact goes hlen hc hi hp

/-- An instruction that leaves the pointer going to the left. -/
theorem goes_left (hi : Instruction.ofChar? c = some i)
    (hp : (printing text r false x h items output k).perform i =
      .done (printing text r false (x' + 1) .left items' output' k)) :
    (printing text r false x h items output k).Reaches 1
      (printing text r false x' .left items' output' (k + 1)) := by
  rw [← printing_count, ← printing_left]
  exact goes hlen hc hi hp

/-- A quote begins or ends the string. -/
theorem goes_over_quote (hq : c = quoteCell) :
    (printing text r mode x .right items output k).Reaches 1
      (printing text r (!mode) (x + 1) .right items output (k + 1)) := by
  rw [← printing_count, ← printing_right]
  apply reaches_of_step
  rw [step_of_quote rfl ((printing_cell hlen hc).trans hq), settle_printing hlen hc]
  rfl

/-- Any other character of the string is pushed. -/
theorem goes_over_character (hq : c ≠ quoteCell) (hh : c ≠ haltCell) :
    (printing text r true x .right items output k).Reaches 1
      (printing text r true (x + 1) .right (Value.ofChar c :: items) output (k + 1)) := by
  rw [← printing_count, ← printing_right]
  have hcell : (printing text r true x .right items output k).settle.cell = c :=
    printing_cell hlen hc
  apply reaches_of_step
  rw [step_of_capture rfl rfl (by rwa [hcell]) (by rwa [hcell]), hcell, settle_printing hlen hc]
  rfl

end Cell

variable [RandomSource ρ]

section Stretches

variable (hlen : text.length < 2 ^ 60)
include hlen

/-! ## Reading the text -/

/-- The line feed is pushed and the string begins. -/
theorem reaches_text :
    (printing text r false 0 .right [] "" 0).Reaches 4
      (printing text r true 4 .right [Value.ofChar '\n'] "" 4) := by
  have hsix : (printing text r false 0 .right [] "" 0).Reaches 1
      (printing text r false 1 .right [6] "" 1) := goes_right hlen rfl rfl rfl
  have hfour : (printing text r false 1 .right [6] "" 1).Reaches 1
      (printing text r false 2 .right [4, 6] "" 2) := goes_right hlen rfl rfl rfl
  have hplus : (printing text r false 2 .right [4, 6] "" 2).Reaches 1
      (printing text r false 3 .right [Value.ofChar '\n'] "" 3) := goes_right hlen rfl rfl rfl
  have hquote : (printing text r false 3 .right [Value.ofChar '\n'] "" 3).Reaches 1
      (printing text r true 4 .right [Value.ofChar '\n'] "" 4) := goes_over_quote hlen rfl rfl
  exact ((hsix.trans hfour).trans hplus).trans hquote

/-- The text is pushed from its end to its beginning. -/
theorem reaches_quote (hq : ∀ c ∈ text, c ≠ quoteCell ∧ c ≠ haltCell) {done rest : List Char}
    (h : text.reverse = done ++ rest) :
    (printing text r true (done.length + 4) .right (done.reverse.map Value.ofChar ++ items) output
        k).Reaches rest.length
      (printing text r true (text.length + 4) .right (text.map Value.ofChar ++ items) output
        (k + rest.length)) := by
  induction rest generalizing done k with
  | nil =>
    have hdone : done.reverse = text := by rw [← List.append_nil done, ← h, List.reverse_reverse]
    have hlength : done.length = text.length := by rw [← hdone, List.length_reverse]
    rw [hdone, hlength]
    exact reaches_of_settle_eq rfl
  | cons c rest ih =>
    obtain ⟨hc, hc'⟩ := hq c (List.mem_reverse.1 (h ▸ by simp))
    have hstep : (printing text r true (done.length + 4) .right
        (done.reverse.map Value.ofChar ++ items) output k).Reaches 1
        (printing text r true ((done ++ [c]).length + 4) .right
          ((done ++ [c]).reverse.map Value.ofChar ++ items) output (k + 1)) := by
      have hitems : (done ++ [c]).reverse.map Value.ofChar ++ items =
          Value.ofChar c :: (done.reverse.map Value.ofChar ++ items) := by simp
      have hplace : (done ++ [c]).length + 4 = done.length + 4 + 1 := by
        rw [List.length_append, List.length_singleton, Nat.add_right_comm]
      rw [hitems, hplace]
      exact goes_over_character hlen (printerCells_text h) hc hc'
    have hrest := hstep.trans (ih (by simpa using h))
    rw [Nat.add_comm 1, Nat.add_assoc k, Nat.add_comm 1] at hrest
    exact hrest

/-! ## Writing the text -/

/-- One turn of the loop writes the character on top and comes back. -/
theorem reaches_again (hc : Value.ofChar c ≠ 0) :
    (printing text r false (text.length + 6) .right (Value.ofChar c :: items) output k).Reaches 6
      (printing text r false (text.length + 6) .right items (output.push c) (k + 6)) := by
  have hcell := printerCells_loop text
  have hcopy : (printing text r false (text.length + 6) .right (Value.ofChar c :: items) output
        k).Reaches 1
      (printing text r false (text.length + 7) .right (Value.ofChar c :: Value.ofChar c :: items)
        output (k + 1)) := goes_right hlen (hcell 2) rfl rfl
  have hover : (printing text r false (text.length + 7) .right
        (Value.ofChar c :: Value.ofChar c :: items) output (k + 1)).Reaches 1
      (printing text r false (text.length + 9) .right (Value.ofChar c :: Value.ofChar c :: items)
        output (k + 2)) :=
    goes_right hlen (hcell 3) rfl (congrArg Effect.done printing_right)
  have hback : (printing text r false (text.length + 9) .right
        (Value.ofChar c :: Value.ofChar c :: items) output (k + 2)).Reaches 1
      (printing text r false (text.length + 8) .left (Value.ofChar c :: items) output (k + 3)) :=
    goes_left hlen (hcell 5) rfl (congrArg
      (fun h => Effect.done
        (printing text r false (text.length + 9) h (Value.ofChar c :: items) output (k + 2)))
      (if_neg hc))
  have hwrite : (printing text r false (text.length + 8) .left (Value.ofChar c :: items) output
        (k + 3)).Reaches 1
      (printing text r false (text.length + 7) .left items (output.push c) (k + 4)) :=
    goes_left hlen (hcell 4) rfl (perform_writeCharacter (Value.toChar?_ofChar c))
  have hunder : (printing text r false (text.length + 7) .left items (output.push c)
        (k + 4)).Reaches 1
      (printing text r false (text.length + 5) .left items (output.push c) (k + 5)) :=
    goes_left hlen (hcell 3) rfl (congrArg Effect.done printing_left)
  have hturn : (printing text r false (text.length + 5) .left items (output.push c)
        (k + 5)).Reaches 1
      (printing text r false (text.length + 6) .right items (output.push c) (k + 6)) :=
    goes_right hlen (hcell 1) rfl rfl
  exact ((((hcopy.trans hover).trans hback).trans hwrite).trans hunder).trans hturn

/-- The loop writes the text on the stack. -/
theorem reaches_empty {rest : List Char} (hrest : ∀ c ∈ rest, c ≠ '\x00') :
    (printing text r false (text.length + 6) .right (rest.map Value.ofChar) output k).Reaches
      (6 * rest.length)
      (printing text r false (text.length + 6) .right [] (output ++ String.ofList rest)
        (k + 6 * rest.length)) := by
  induction rest generalizing output k with
  | nil =>
    have houtput : output ++ String.ofList [] = output := String.append_empty
    rw [houtput]
    exact reaches_of_settle_eq rfl
  | cons c rest ih =>
    have hc := Value.ofChar_ne_zero (hrest c List.mem_cons_self)
    have hwritten : output.push c ++ String.ofList rest = output ++ String.ofList (c :: rest) := by
      simp [← String.toList_inj]
    have hcount : 6 + 6 * rest.length = 6 * (c :: rest).length := by
      rw [List.length_cons]
      omega
    have hagain : (printing text r false (text.length + 6) .right ((c :: rest).map Value.ofChar)
          output k).Reaches 6
        (printing text r false (text.length + 6) .right (rest.map Value.ofChar) (output.push c)
          (k + 6)) := reaches_again hlen hc
    have hloop := hagain.trans (ih fun d hd => hrest d (List.mem_cons_of_mem c hd))
    rw [hwritten, Nat.add_assoc, hcount] at hloop
    exact hloop

/-- The zero of the empty stack leads out of the loop. -/
theorem reaches_out :
    (printing text r false (text.length + 6) .right [] output k).Reaches 3
      (printing text r false (text.length + 10) .right [0] output (k + 3)) := by
  have hcell := printerCells_loop text
  have hcopy : (printing text r false (text.length + 6) .right [] output k).Reaches 1
      (printing text r false (text.length + 7) .right [0, 0] output (k + 1)) :=
    goes_right hlen (hcell 2) rfl rfl
  have hover : (printing text r false (text.length + 7) .right [0, 0] output (k + 1)).Reaches 1
      (printing text r false (text.length + 9) .right [0, 0] output (k + 2)) :=
    goes_right hlen (hcell 3) rfl (congrArg Effect.done printing_right)
  have hon : (printing text r false (text.length + 9) .right [0, 0] output (k + 2)).Reaches 1
      (printing text r false (text.length + 10) .right [0] output (k + 3)) :=
    goes_right hlen (hcell 5) rfl rfl
  exact (hcopy.trans hover).trans hon

/-! ## The whole run -/

/-- The run from the start to the halting cell. -/
theorem reaches_printed (ht : ∀ c ∈ text, c ∉ reserved) :
    (printing text r false 0 .right [] "" 0).Reaches (7 * text.length + 15)
      (printing text r false (text.length + 10) .right [0] (String.ofList (text ++ ['\n']))
        (7 * text.length + 15)) := by
  have hq : ∀ c ∈ text, c ≠ quoteCell ∧ c ≠ haltCell := by
    intro c hc
    have hreserved := ht c hc
    simp only [reserved, List.mem_cons, not_or] at hreserved
    exact ⟨hreserved.2.1, hreserved.2.2.1⟩
  have hzero : ∀ c ∈ text ++ ['\n'], c ≠ '\x00' := by
    intro c hc
    rcases List.mem_append.1 hc with hc | hc
    · intro h
      exact ht c hc (h ▸ List.mem_cons_self)
    · rw [List.mem_singleton.1 hc]
      decide
  have hcell := printerCells_loop text
  have hread : (printing text r true 4 .right [Value.ofChar '\n'] "" 4).Reaches text.length
      (printing text r true (text.length + 4) .right ((text ++ ['\n']).map Value.ofChar) ""
        (text.length + 4)) := by
    have hreverse : (printing text r true 4 .right [Value.ofChar '\n'] "" 4).Reaches
        text.reverse.length
        (printing text r true (text.length + 4) .right
          (text.map Value.ofChar ++ [Value.ofChar '\n']) "" (4 + text.reverse.length)) :=
      reaches_quote hlen hq (List.nil_append text.reverse).symm
    rw [List.length_reverse, Nat.add_comm 4] at hreverse
    rw [List.map_append]
    exact hreverse
  have hquote : (printing text r true (text.length + 4) .right ((text ++ ['\n']).map Value.ofChar)
        "" (text.length + 4)).Reaches 1
      (printing text r false (text.length + 5) .right ((text ++ ['\n']).map Value.ofChar) ""
        (text.length + 5)) := goes_over_quote hlen (hcell 0) rfl
  have hturn : (printing text r false (text.length + 5) .right ((text ++ ['\n']).map Value.ofChar)
        "" (text.length + 5)).Reaches 1
      (printing text r false (text.length + 6) .right ((text ++ ['\n']).map Value.ofChar) ""
        (text.length + 6)) := goes_right hlen (hcell 1) rfl rfl
  have hwrite : (printing text r false (text.length + 6) .right
        ((text ++ ['\n']).map Value.ofChar) "" (text.length + 6)).Reaches
        (6 * (text ++ ['\n']).length)
      (printing text r false (text.length + 6) .right [] ("" ++ String.ofList (text ++ ['\n']))
        (text.length + 6 + 6 * (text ++ ['\n']).length)) := reaches_empty hlen hzero
  have hlength : (text ++ ['\n']).length = text.length + 1 := by simp
  have hfirst : 4 + text.length + 1 + 1 + (6 * (text.length + 1) + 3) = 7 * text.length + 15 := by
    omega
  have hlast : text.length + 6 + 6 * (text.length + 1) + 3 = 7 * text.length + 15 := by omega
  have hrun := ((((reaches_text hlen).trans hread).trans hquote).trans hturn).trans
    (hwrite.trans (reaches_out hlen))
  rw [hlength, String.empty_append, hfirst, hlast] at hrun
  exact hrun

end Stretches

/-- The program prints every text that none of the reserved characters stands in. -/
theorem the_printer_prints_every_text (m : Machine ρ) (s : String) (hlen : s.length < 2 ^ 60)
    (hs : ∀ c ∈ s.toList, c ∉ reserved) :
    ∃ ending, (∀ limit, 7 * s.length + 15 < limit →
        m.interpretWithin limit (printer s) = some ending) ∧
      ending.result = .ok (s ++ "\n") ∧ ending.machine.steps.toNat = 7 * s.length + 15 ∧
      ending.machine.stack.values = [0] := by
  have hlength : s.toList.length = s.length := String.length_toList
  rw [← hlength] at hlen
  have hload : m.load (printer s) = printing s.toList m.random false 0 .right [] "" 0 := by
    have hfield := ofSource_printer (fun h => hs '\n' h (by decide))
    exact congrArg (fun g => start g m.random) hfield
  have hrun := reaches_printed (r := m.random) hlen hs
  have hcell := printerCells_loop s.toList 6
  have hstop := fun (limit : Nat) (hlimit : 7 * s.length + 15 < limit) =>
    hrun.halts rfl (printing_cell hlen hcell) (by omega : _ < limit)
  rw [← hload] at hstop
  refine ⟨_, hstop, ?_, ?_, rfl⟩
  · show Except.ok (String.ofList (s.toList ++ ['\n'])) = Except.ok (s ++ "\n")
    rw [String.ofList_append, String.ofList_toList]
  · show (UInt64.ofNat (7 * s.toList.length + 15)).toNat = 7 * s.length + 15
    rw [UInt64.toNat_ofNat_of_lt' (by unfold UInt64.size; omega), hlength]

/-- A text with characters outside of the first plane and with an instruction. -/
theorem a_text_of_arrows_is_printed :
    let m := Machine.fresh (⟨0, 1⟩ : Progression)
    ∃ ending, (∀ limit, 7 * "→#😀".length + 15 < limit →
        m.interpretWithin limit (printer "→#😀") = some ending) ∧
      ending.result = .ok ("→#😀" ++ "\n") ∧ ending.machine.steps.toNat = 7 * "→#😀".length + 15 ∧
      ending.machine.stack.values = [0] :=
  the_printer_prints_every_text _ _ (by decide) (by simp [reserved, quoteCell, haltCell])

end Machine

end Befunge
