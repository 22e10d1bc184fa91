-- Arithmetic expressions and the programs that compute them. An expression in postfix notation
-- is a program, which leaves its value on the stack. It may be written in any of the four
-- headings, and the pointer may have to cross an edge to get to its beginning.
import Befunge.Proofs.Layout
import Befunge.Proofs.Reaching

namespace Befunge

/-! ## Values -/

/-- The size of the ring of words. -/
def wordCount : Nat := 2 ^ 64

/-- The value of an operator on the values of its left and its right operand: sums, differences,
products and quotients are brought into the range of words, quotients are rounded toward zero, a
remainder has the sign of the left operand, and division by zero gives zero. -/
def Operator.value (l r : Int) : Operator → Int
  | add => (l + r).bmod wordCount
  | subtract => (l - r).bmod wordCount
  | multiply => (l * r).bmod wordCount
  | divide => if r = 0 then 0 else (l.tdiv r).bmod wordCount
  | modulo => if r = 0 then 0 else l.tmod r
  | greater => if l > r then 1 else 0

/-- An arithmetic expression. -/
inductive Expr where
  | digit (d : Fin 10)
  | not (e : Expr)
  | binary (op : Operator) (left right : Expr)

/-- The value of an expression. -/
def Expr.value : Expr → Int
  | digit d => d
  | not e => if e.value = 0 then 1 else 0
  | binary op left right => op.value left.value right.value

/-- The least word divided by minus one is the least word again. -/
example : Operator.divide.value (-2 ^ 63) (-1) = -2 ^ 63 := by decide

/-- An operator computes its value. -/
theorem Operator.toInt_apply (op : Operator) (b a : Value) :
    (op.apply b a).toInt = op.value b.toInt a.toInt := by
  cases op with
  | add => exact Int64.toInt_add b a
  | subtract => exact Int64.toInt_sub b a
  | multiply => exact Int64.toInt_mul b a
  | divide =>
    unfold apply value Value.quotient
    simp only [Value.toInt_eq_zero_iff]
    split
    · rfl
    · exact Int64.toInt_div b a
  | modulo =>
    unfold apply value Value.remainder
    simp only [Value.toInt_eq_zero_iff]
    split
    · rfl
    · exact Int64.toInt_mod b a
  | greater =>
    unfold apply value
    rw [Value.toInt_ofBool]
    simp only [decide_eq_true_eq, gt_iff_lt, Int64.lt_iff_toInt_lt]

/-! ## Postfix notation -/

/-- The character that stands for an operator. -/
def Operator.cell : Operator → Char
  | add => '+'
  | subtract => '-'
  | multiply => '*'
  | divide => '/'
  | modulo => '%'
  | greater => '\x60'

theorem Operator.ofChar?_cell (op : Operator) :
    Instruction.ofChar? op.cell = some (.operate op) := by
  cases op <;> rfl

/-- An expression in postfix notation: the left operand, the right operand and the operator. -/
def Expr.code : Expr → List Char
  | digit d => [Nat.digitChar d]
  | not e => e.code ++ ['!']
  | binary op left right => left.code ++ right.code ++ [op.cell]

/-- The program that writes the value of an expression and halts. -/
def Expr.program (e : Expr) : List Char := e.code ++ ['.', haltCell]

theorem ofChar?_digitChar (d : Fin 10) :
    Instruction.ofChar? (Nat.digitChar d) = some (.digit d) := by
  revert d
  decide

theorem Expr.newline_not_mem_code (e : Expr) : '\n' ∉ e.code := by
  induction e with
  | digit d =>
    revert d
    decide
  | not e ih => simpa [code] using ih
  | binary op left right ihl ihr =>
    have hop : op.cell ≠ '\n' := by cases op <;> decide
    simp [code, ihl, ihr, hop.symm]

/-! ## Running along an expression -/

namespace Machine

variable {ρ : Type} [RandomSource ρ] {m : Machine ρ}

/-- Along an expression in postfix notation, a machine pushes its value and goes on after it. -/
theorem reaches_code (e : Expr) (hg : m.field.Addressable) (hs : m.status = .running)
    (hoff : m.stringMode = false) (hspell : m.Spells e.code) :
    ∃ v : Value, v.toInt = e.value ∧
      m.Reaches e.code.length (m.onward e.code.length (m.stack.push v)) := by
  induction e generalizing m with
  | digit d =>
    refine ⟨Int64.ofNat d, ?_, ?_⟩
    · exact Int64.toInt_ofNat_of_lt (by omega)
    · exact reaches_onward hg hs hoff hspell (ofChar?_digitChar d)
        (f := fun s => s.push (Int64.ofNat d)) (fun _ => rfl)
  | not e ih =>
    obtain ⟨v, hv, hreach⟩ := ih hg hs hoff hspell.left
    have hlast := hspell.right hg (m.stack.push v)
    have hnot := reaches_onward (m := m.onward _ (m.stack.push v)) (i := .not) hg hs hoff hlast rfl
      (f := fun s => (s.drop 1).push (Value.ofBool (s.peek 0 = 0))) (fun _ => rfl)
    rw [onward_onward hg] at hnot
    refine ⟨Value.ofBool (v = 0), ?_, ?_⟩
    · simp [Value.toInt_ofBool, Expr.value, ← hv, Value.toInt_eq_zero_iff]
    · simp only [Expr.code, List.length_append]
      exact hreach.trans hnot
  | binary op left right ihl ihr =>
    obtain ⟨l, hl, hleft⟩ := ihl hg hs hoff hspell.left.left
    obtain ⟨r, hr, hright⟩ := ihr (m := m.onward _ (m.stack.push l)) hg hs hoff
      (hspell.left.right hg _)
    rw [onward_onward hg] at hright
    have hlast := hspell.right hg ((m.stack.push l).push r)
    have hop := reaches_onward (m := m.onward _ ((m.stack.push l).push r)) (i := .operate op) hg hs
      hoff hlast op.ofChar?_cell
      (f := fun s => (s.drop 2).push (op.apply (s.peek 1) (s.peek 0))) (fun _ => rfl)
    rw [onward_onward hg] at hop
    refine ⟨op.apply l r, ?_, ?_⟩
    · rw [Operator.toInt_apply, hl, hr]
      rfl
    · simp only [Expr.code, List.length_append] at hop ⊢
      exact (hleft.trans hright).trans hop

end Machine

/-! ## The four ways to write a program -/

namespace Heading

/-- The cells of a program that is written along a heading, from left to right or from top to
bottom. An arrow in front leads to the beginning, unless the program is written to the right. -/
def strip (text : List Char) : Heading → List Char
  | right => text
  | left => '<' :: text.reverse
  | down => 'v' :: text
  | up => '^' :: text.reverse

/-- The lines of a program that is written along a heading: one row or one column. -/
def lines (text : List Char) (h : Heading) : List (List Char) :=
  match h with
  | right | left => [h.strip text]
  | down | up => Playfield.column (h.strip text)

/-- The source of a program that is written along a heading. -/
def lay (text : List Char) (h : Heading) : String := String.ofList (Lines.join (h.lines text))

example : left.lay ['7', '.', '@'] = "<@.7" ∧ down.lay ['7', '.', '@'] = "v\n7\n.\n@" := by
  decide

/-- The coordinate along a heading. -/
def along (x y : Int) : Heading → Int
  | right | left => x
  | down | up => y

variable {text : List Char}

theorem strip_ne_nil (hne : text ≠ []) (h : Heading) : h.strip text ≠ [] := by
  cases h
  · simp [strip]
  · simp [strip]
  · simp [strip]
  · exact hne

theorem length_strip_le (h : Heading) : (h.strip text).length ≤ text.length + 1 := by
  cases h <;> simp [strip]

theorem newline_not_mem_strip (hline : '\n' ∉ text) (h : Heading) : '\n' ∉ h.strip text := by
  cases h <;> simpa [strip] using hline

theorem ofSource_lay (hne : text ≠ []) (hline : '\n' ∉ text) (h : Heading) :
    Playfield.ofSource (h.lay text) = Playfield.ofLines (h.lines text) := by
  have hrow : ∀ line ∈ [h.strip text], '\n' ∉ line := by
    intro line hmem
    rw [List.mem_singleton.1 hmem]
    exact newline_not_mem_strip hline h
  have hcolumn : ∀ line ∈ Playfield.column (h.strip text), '\n' ∉ line := by
    intro line hmem
    obtain ⟨c, hc, rfl⟩ := List.mem_map.1 hmem
    intro hc'
    exact newline_not_mem_strip hline h (List.mem_singleton.1 hc' ▸ hc)
  have hcells := Playfield.column_ne_nil (strip_ne_nil hne h)
  cases h with
  | right => exact Playfield.ofSource_join (List.cons_ne_nil _ _) hrow
  | left => exact Playfield.ofSource_join (List.cons_ne_nil _ _) hrow
  | down => exact Playfield.ofSource_join hcells hcolumn
  | up => exact Playfield.ofSource_join hcells hcolumn

/-- A program is read around and around along its heading. -/
theorem read_lines (hne : text ≠ []) (h : Heading) (x y : Int) :
    (Playfield.ofLines (h.lines text)).read x y =
      (h.strip text).getD (Torus.wrap (h.along x y) (h.strip text).length) Playfield.padding := by
  have hstrip := strip_ne_nil hne h
  cases h with
  | right => exact Playfield.read_row hstrip x y
  | left => exact Playfield.read_row hstrip x y
  | down => exact Playfield.read_column hstrip x y
  | up => exact Playfield.read_column hstrip x y

theorem addressable_lines (hne : text ≠ []) (hlen : text.length + 1 < 2 ^ 62) (h : Heading) :
    (Playfield.ofLines (h.lines text)).Addressable := by
  have hstrip := strip_ne_nil hne h
  have hlt : (h.strip text).length < 2 ^ 62 := Nat.lt_of_le_of_lt (length_strip_le h) hlen
  cases h with
  | right => exact Playfield.addressable_row hstrip hlt
  | left => exact Playfield.addressable_row hstrip hlt
  | down => exact Playfield.addressable_column hstrip hlt
  | up => exact Playfield.addressable_column hstrip hlt

/-- Along a program that is written forward, behind an arrow. -/
theorem getD_forward {a c d : Char} {i : Nat} (hi : text[i]? = some c) :
    (a :: text).getD (Torus.wrap (1 + i) (a :: text).length) d = c := by
  have hlt := (List.getElem?_eq_some_iff.1 hi).1
  have hwrap : (Torus.wrap (1 + i) (a :: text).length : Int) = 1 + i := by
    apply Torus.wrap_of_lt
    · omega
    · rw [List.length_cons]
      omega
  have hindex : Torus.wrap (1 + i) (a :: text).length = i + 1 := by omega
  rw [hindex, List.getD_eq_getElem?_getD, List.getElem?_cons_succ, hi]
  rfl

/-- Along a program that is written backward, from its arrow over the edge. -/
theorem getD_backward {a c d : Char} {i : Nat} (hi : text[i]? = some c) :
    (a :: text.reverse).getD (Torus.wrap (-1 - i) (a :: text.reverse).length) d = c := by
  have hlt := (List.getElem?_eq_some_iff.1 hi).1
  have hlength : (a :: text.reverse).length = text.length + 1 := by simp
  have hwrap : (Torus.wrap (-1 - i) (text.length + 1) : Int) = text.length - i := by
    rw [Torus.coe_wrap _ (by omega), ← Int.add_emod_right, Int.emod_eq_of_lt (by omega) (by omega)]
    omega
  have hindex : Torus.wrap (-1 - i) (text.length + 1) = text.length - 1 - i + 1 := by omega
  have hback : text.length - 1 - (text.length - 1 - i) = i := by omega
  rw [hlength, hindex, List.getD_eq_getElem?_getD, List.getElem?_cons_succ,
    List.getElem?_reverse (by omega), hback, hi]
  rfl

end Heading

/-! ## From the start to the beginning -/

namespace Machine

variable {ρ : Type} {m : Machine ρ} {text : List Char}

/-- A machine that has nothing on its stack, has written nothing and is at the beginning of a
program. -/
structure Ready (m : Machine ρ) (text : List Char) : Prop where
  addressable : m.field.Addressable
  running : m.status = .running
  stringMode_off : m.stringMode = false
  stack_empty : m.stack = .empty
  output_empty : m.output = ""
  spells : m.Spells text

/-- The machine that has followed the arrow in front of a program. -/
def turned (m : Machine ρ) (text : List Char) (h : Heading) : Machine ρ :=
  ({ m.load (h.lay text) with heading := h } : Machine ρ).advance.count

/-- The machine at the beginning of a program that is written along a heading. -/
def begun (m : Machine ρ) (text : List Char) (h : Heading) : Machine ρ :=
  match h with
  | .right => m.load (h.lay text)
  | _ => m.turned text h

/-- The coordinate of the cells of a program, counted from its beginning. -/
theorem along_begun (m : Machine ρ) (text : List Char) (h : Heading) (i : Nat) :
    let s := m.begun text h
    h.along (s.position.x.toInt + i * s.heading.delta.1.toInt)
        (s.position.y.toInt + i * s.heading.delta.2.toInt) =
      match h with
      | .right => (i : Int)
      | .down => 1 + i
      | .left | .up => -1 - i := by
  have hone : (1 : Int64).toInt = 1 := by decide
  have hminus : (-1 : Int64).toInt = -1 := by decide
  have hadd : (0 + 1 : Int64).toInt = 1 := by decide
  have hsub : (0 + -1 : Int64).toInt = -1 := by decide
  cases h with
  | right =>
    show (0 : Int64).toInt + i * (1 : Int64).toInt = i
    rw [Int64.toInt_zero, hone]
    omega
  | left =>
    show (0 + -1 : Int64).toInt + i * (-1 : Int64).toInt = -1 - i
    rw [hsub, hminus]
    omega
  | down =>
    show (0 + 1 : Int64).toInt + i * (1 : Int64).toInt = 1 + i
    rw [hadd, hone]
    omega
  | up =>
    show (0 + -1 : Int64).toInt + i * (-1 : Int64).toInt = -1 - i
    rw [hsub, hminus]
    omega

theorem ready_begun (m : Machine ρ) (hne : text ≠ []) (hline : '\n' ∉ text)
    (hlen : text.length + 1 < 2 ^ 62) (h : Heading) : (m.begun text h).Ready text := by
  have hfield : (m.begun text h).field = Playfield.ofLines (h.lines text) := by
    rw [← Heading.ofSource_lay hne hline]
    cases h <;> rfl
  have hg : (m.begun text h).field.Addressable := by
    rw [hfield]
    exact Heading.addressable_lines hne hlen h
  have hspell : (m.begun text h).Spells text := by
    intro i c hi
    rw [cellAhead_eq hg, hfield, Heading.read_lines hne, along_begun]
    cases h with
    | right =>
      have hwrap := Torus.wrap_of_lt (c := i) (d := text.length) (by omega) (by
        have := (List.getElem?_eq_some_iff.1 hi).1
        omega)
      have hindex : Torus.wrap i text.length = i := by omega
      show text.getD (Torus.wrap i text.length) _ = c
      rw [hindex, List.getD_eq_getElem?_getD, hi]
      rfl
    | left => exact Heading.getD_backward hi
    | down => exact Heading.getD_forward hi
    | up => exact Heading.getD_backward hi
  cases h with
  | right => exact ⟨hg, rfl, rfl, rfl, rfl, hspell⟩
  | left => exact ⟨hg, rfl, rfl, rfl, rfl, hspell⟩
  | down => exact ⟨hg, rfl, rfl, rfl, rfl, hspell⟩
  | up => exact ⟨hg, rfl, rfl, rfl, rfl, hspell⟩

variable [RandomSource ρ]

/-- A program is at its beginning after one cycle at most. -/
theorem reaches_begun (m : Machine ρ) (hne : text ≠ []) (hline : '\n' ∉ text)
    (hlen : text.length + 1 < 2 ^ 62) (h : Heading) :
    ∃ k ≤ 1, (m.load (h.lay text)).Reaches k (m.begun text h) := by
  have hfield := Heading.ofSource_lay hne hline h
  have hg : (m.load (h.lay text)).field.Addressable := by
    show (Playfield.ofSource (h.lay text)).Addressable
    rw [hfield]
    exact Heading.addressable_lines hne hlen h
  have hself : (m.load (h.lay text)).settle = m.load (h.lay text) :=
    congrArg (fun p => { m.load (h.lay text) with position := p })
      (hg.settle_eq_self hg.nearby_origin)
  have hcell : (m.load (h.lay text)).settle.cell = (h.strip text).getD 0 Playfield.padding := by
    have hwrap : Torus.wrap 0 (h.strip text).length = 0 := by simp [Torus.wrap]
    rw [hself]
    show (Playfield.ofSource (h.lay text)).read 0 0 = _
    rw [hfield, Heading.read_lines hne]
    cases h <;> exact congrArg (fun n => List.getD _ n _) hwrap
  have hturn : Instruction.ofChar? (m.load (h.lay text)).settle.cell = some (.turn h) →
      (m.load (h.lay text)).Reaches 1 (m.turned text h) := by
    intro hi
    apply reaches_of_instruction rfl rfl hi
    rw [hself]
    rfl
  cases h with
  | right => exact ⟨0, by omega, reaches_of_settle_eq rfl⟩
  | left => exact ⟨1, by omega, hturn (by rw [hcell]; rfl)⟩
  | down => exact ⟨1, by omega, hturn (by rw [hcell]; rfl)⟩
  | up => exact ⟨1, by omega, hturn (by rw [hcell]; rfl)⟩

/-- A machine at the beginning of the program of an expression comes to its end with the value
written and nothing on the stack. -/
theorem Ready.reaches_end {e : Expr} (h : m.Ready e.program) :
    ∃ m', m.Reaches (e.code.length + 1) m' ∧ m'.status = .running ∧ m'.settle.cell = haltCell ∧
      m'.output = Decimal.text e.value ∧ m'.stack = .empty := by
  obtain ⟨hg, hs, hoff, hstack, houtput, hspell⟩ := h
  obtain ⟨v, hv, hcode⟩ := reaches_code e hg hs hoff hspell.left
  rw [hstack] at hcode
  have hrest := hspell.right hg (Stack.empty.push v)
  have hself := settle_onward hg e.code.length (Stack.empty.push v)
  have hwrite := reaches_of_instruction (m := m.onward e.code.length (Stack.empty.push v))
    (i := .writeNumber) hs hoff (by rw [hrest.cell]; rfl) rfl
  refine ⟨_, hcode.trans hwrite, hs, ?_, ?_, rfl⟩
  · rw [settle_cell, hself]
    have hpast : m.Past e.code.length
        ({ (m.onward e.code.length (Stack.empty.push v)).drop 1 with
          output := m.output ++ Decimal.text v.toInt } : Machine ρ).advance.count := ⟨rfl, rfl, rfl⟩
    refine (hpast.cellAhead hg 0).trans ?_
    have hend : (e.code ++ ['.', haltCell])[e.code.length + 1]? = some haltCell := by
      simp
    exact hspell _ _ hend
  · show m.output ++ Decimal.text v.toInt = Decimal.text e.value
    rw [houtput, hv, String.empty_append]

/-- The program of an expression, written along any heading, writes the value of the expression
and halts with nothing on the stack. -/
theorem compiled_expressions_write_their_value (m : Machine ρ) (e : Expr) (h : Heading)
    (hlen : e.code.length < 2 ^ 60) :
    ∃ ending, (∀ limit, e.program.length < limit →
        m.interpretWithin limit (h.lay e.program) = some ending) ∧
      ending.result = .ok (Decimal.text e.value) ∧ ending.machine.stack = .empty := by
  have hlength : e.program.length = e.code.length + 2 := by simp [Expr.program]
  have hne : e.program ≠ [] := by simp [Expr.program]
  have hline : '\n' ∉ e.program := by
    have := e.newline_not_mem_code
    simp [Expr.program, this, haltCell]
  have hshort : e.program.length + 1 < 2 ^ 62 := by omega
  obtain ⟨k, hk, hbegin⟩ := reaches_begun m hne hline hshort h
  obtain ⟨m', hend, hs, hc, houtput, hstack⟩ := (ready_begun m hne hline hshort h).reaches_end
  refine ⟨_, fun limit hlimit => (hbegin.trans hend).halts hs hc (by omega), ?_, hstack⟩
  show Except.ok m'.output = _
  rw [houtput]

/-- The remainder of minus five by three, written upward from over the edge. -/
theorem a_remainder_keeps_the_sign_upward :
    let e := Expr.binary .modulo (.binary .subtract (.digit 3) (.digit 8)) (.digit 3)
    let m := Machine.fresh (⟨0, 1⟩ : Progression)
    e.code = ['3', '8', '-', '3', '%'] ∧ e.value = -2 ∧
      ∃ ending, (∀ limit, e.program.length < limit →
          m.interpretWithin limit (Heading.up.lay e.program) = some ending) ∧
        ending.result = .ok (Decimal.text e.value) ∧ ending.machine.stack = .empty :=
  ⟨by decide, by decide, compiled_expressions_write_their_value _ _ .up (by decide)⟩

end Machine

end Befunge
