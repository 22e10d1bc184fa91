-- Messages of faults. A message says all that there is to say about a fault: the character, the
-- place or the number, and the context can be told from it, whatever characters have to be escaped.
-- So a log tells which fault ended a run.
import Befunge.Proofs.Pointer

namespace Befunge

/-! ## Texts in front of other texts -/

/-- Two texts of characters of one kind, each with another character after it, are told apart from
what follows them. -/
theorem append_cons_inj {p : Char → Bool} {as bs r s : List Char} {c d : Char}
    (has : ∀ x ∈ as, p x) (hbs : ∀ x ∈ bs, p x) (hc : p c = false) (hd : p d = false)
    (h : as ++ c :: r = bs ++ d :: s) : as = bs ∧ r = s := by
  have htake := congrArg (List.takeWhile p) h
  rw [List.takeWhile_append_of_pos has, List.takeWhile_append_of_pos hbs] at htake
  simp only [List.takeWhile_cons, hc, hd, Bool.false_eq_true, if_false, List.append_nil] at htake
  subst htake
  have hrest := List.append_cancel_left h
  exact ⟨rfl, (List.cons.inj hrest).2⟩

namespace Decimal

theorem ofNat_injective : Function.Injective ofNat :=
  Function.LeftInverse.injective readNat_ofNat

theorem ofInt_injective : Function.Injective ofInt := by
  have hsign : ∀ n k, ofNat n ≠ '-' :: ofNat k := by
    intro n k h
    have hdigit : '-'.isDigit := isDigit_of_mem_ofNat (n := n) (by rw [h]; exact List.mem_cons_self)
    exact absurd hdigit (by decide)
  intro v w h
  cases v with
  | ofNat n =>
    cases w with
    | ofNat k => rw [ofNat_injective h]
    | negSucc k => exact absurd h (hsign n (k + 1))
  | negSucc n =>
    cases w with
    | ofNat k => exact absurd h.symm (hsign k (n + 1))
    | negSucc k =>
      have hsize := ofNat_injective (List.cons.inj h).2
      rw [Nat.succ.inj hsize]

/-- A character of an integer. -/
def isPart (c : Char) : Bool := c.isDigit || c = '-'

theorem isPart_of_mem_ofInt {v : Int} : ∀ c ∈ ofInt v, isPart c := by
  intro c hc
  unfold isPart
  cases v with
  | ofNat n => simp [isDigit_of_mem_ofNat (n := n) hc]
  | negSucc n =>
    rcases List.mem_cons.1 hc with rfl | hc
    · decide
    · simp [isDigit_of_mem_ofNat hc]

/-- An integer is told from what follows it. -/
theorem ofInt_append_inj {v w : Int} {c d : Char} {r s : List Char} (hc : isPart c = false)
    (hd : isPart d = false) (h : ofInt v ++ c :: r = ofInt w ++ d :: s) : v = w ∧ r = s := by
  obtain ⟨htext, hrest⟩ := append_cons_inj isPart_of_mem_ofInt isPart_of_mem_ofInt hc hd h
  exact ⟨ofInt_injective htext, hrest⟩

end Decimal

/-! ## Characters between quotes -/

namespace Quoted

/-- The character that a letter after a backslash stands for. -/
def ofLetter : Char → Char
  | '0' => '\x00'
  | 't' => '\t'
  | 'r' => '\r'
  | 'n' => '\n'
  | c => c

/-- The forms of a character between quotes: itself, a letter after a backslash, or its code. -/
inductive Form : Char → List Char → Prop
  | itself {c : Char} (hc : c ≠ '\\') : Form c [c]
  | letter {l : Char} (hl : l ≠ 'u') : Form (ofLetter l) ['\\', l]
  | code {c : Char} : Form c (escapeCode c)

theorem form_escape (c : Char) : Form c (escape c) := by
  unfold escape
  split
  · exact Form.letter (l := '0') (by decide)
  · exact Form.letter (l := 't') (by decide)
  · exact Form.letter (l := 'r') (by decide)
  · exact Form.letter (l := 'n') (by decide)
  · exact Form.letter (l := '\'') (by decide)
  · exact Form.letter (l := '\\') (by decide)
  · rename_i hbackslash
    split
    · exact Form.code
    · exact Form.itself hbackslash

theorem digitChar_inj : ∀ n < 16, ∀ k < 16, Nat.digitChar n = Nat.digitChar k → n = k := by
  decide

/-- A number is told from its hexadecimal digits. -/
theorem hexDigits_injective : Function.Injective (Nat.toDigits 16) := by
  intro n
  induction n using Nat.strongRecOn with
  | ind n ih =>
    intro k h
    have hone : 1 < 16 := by decide
    rw [Nat.toDigits_eq_if hone, Nat.toDigits_eq_if (n := k) hone] at h
    by_cases hn : n < 16
    · by_cases hk : k < 16
      · rw [if_pos hn, if_pos hk] at h
        exact digitChar_inj n hn k hk (List.cons.inj h).1
      · rw [if_pos hn, if_neg hk] at h
        have hfront := congrArg List.dropLast h
        rw [List.dropLast_concat] at hfront
        exact absurd hfront.symm Nat.toDigits_ne_nil
    · by_cases hk : k < 16
      · rw [if_neg hn, if_pos hk] at h
        have hfront := congrArg List.dropLast h
        rw [List.dropLast_concat] at hfront
        exact absurd hfront Nat.toDigits_ne_nil
      · rw [if_neg hn, if_neg hk] at h
        obtain ⟨hfront, hlast⟩ := List.append_singleton_inj.1 h
        have hquotient := ih (n / 16) (by omega) hfront
        have hremainder := digitChar_inj _ (Nat.mod_lt n (by decide)) _ (Nat.mod_lt k (by decide))
          hlast
        omega

/-- No hexadecimal digit is a closing brace. -/
theorem ne_brace_of_mem_hexDigits (n : Nat) : ∀ c ∈ Nat.toDigits 16 n, (c != '\x7d') = true := by
  have hdigit : ∀ k < 16, (Nat.digitChar k != '\x7d') = true := by decide
  induction n using Nat.strongRecOn with
  | ind n ih =>
    intro c hc
    rw [Nat.toDigits_eq_if (by decide)] at hc
    by_cases hn : n < 16
    · rw [if_pos hn, List.mem_singleton] at hc
      subst hc
      exact hdigit n hn
    · rw [if_neg hn, List.mem_append, List.mem_singleton] at hc
      rcases hc with hc | rfl
      · exact ih (n / 16) (by omega) c hc
      · exact hdigit _ (Nat.mod_lt n (by decide))

/-- A character is told from each of its forms, and they are told from what follows the closing
quote. -/
theorem Form.inj {c d : Char} {t u r s : List Char} (hc : Form c t) (hd : Form d u)
    (h : t ++ '\'' :: r = u ++ '\'' :: s) : c = d ∧ r = s := by
  cases hc with
  | itself hc =>
    cases hd with
    | itself hd => simpa using h
    | letter hl => exact absurd (List.cons.inj h).1 hc
    | code => exact absurd (List.cons.inj h).1 hc
  | letter hl =>
    cases hd with
    | itself hd => exact absurd (List.cons.inj h).1.symm hd
    | letter hk =>
      simp only [List.cons_append, List.nil_append, List.cons.injEq, true_and] at h
      obtain ⟨rfl, rfl⟩ := h
      exact ⟨rfl, rfl⟩
    | code => exact absurd (List.cons.inj (List.cons.inj h).2).1 hl
  | code =>
    cases hd with
    | itself hd => exact absurd (List.cons.inj h).1.symm hd
    | letter hk => exact absurd (List.cons.inj (List.cons.inj h).2).1.symm hk
    | code =>
      simp only [escapeCode, List.cons_append, List.append_assoc, List.nil_append, List.cons.injEq,
        true_and] at h
      obtain ⟨hdigits, hrest⟩ := append_cons_inj (ne_brace_of_mem_hexDigits c.toNat)
        (ne_brace_of_mem_hexDigits d.toNat) (by decide) (by decide) h
      have hcode : c.toNat = d.toNat := hexDigits_injective hdigits
      refine ⟨?_, (List.cons.inj hrest).2⟩
      rw [← Char.ofNat_toNat c, hcode, Char.ofNat_toNat]

end Quoted

/-! ## Messages -/

namespace Fault

theorem toList_message_unknown (cell : Char) (place : Point) :
    (message (.unknownInstruction cell place)).toList =
      "unknown operation ".toList ++ '\'' :: (Quoted.escape cell ++ '\'' :: (" at ".toList ++
        '(' :: (Decimal.ofInt place.x.toInt ++
          ',' :: ' ' :: (Decimal.ofInt place.y.toInt ++ [')'])))) := by
  have hopen : "(".toList = ['('] := rfl
  have hcomma : ", ".toList = [',', ' '] := rfl
  have hclose : ")".toList = [')'] := rfl
  unfold message Quoted.text Point.text Decimal.text
  simp only [String.toList_append, String.toList_ofList, hopen, hcomma, hclose, List.cons_append,
    List.append_assoc, List.nil_append]

theorem toList_message_invalid (value : Value) (context : String) :
    (message (.invalidValue value context)).toList =
      "invalid value ".toList ++ (Decimal.ofInt value.toInt ++ ':' :: ' ' :: context.toList) := by
  have hcolon : ": ".toList = [':', ' '] := rfl
  unfold message Decimal.text
  simp only [String.toList_append, String.toList_ofList, hcolon, List.cons_append,
    List.append_assoc, List.nil_append]

theorem message_unknown_ne_invalid (cell : Char) (place : Point) (value : Value)
    (context : String) :
    message (.unknownInstruction cell place) ≠ message (.invalidValue value context) := by
  intro h
  have hfirst := congrArg (fun s => s.toList.head?) h
  simp only [toList_message_unknown, toList_message_invalid] at hfirst
  exact absurd (Option.some.inj hfirst) (by decide)

/-- A fault is told from its message. -/
theorem message_injective : Function.Injective message := by
  intro f g h
  have htext := congrArg String.toList h
  cases f with
  | unknownInstruction cell place =>
    cases g with
    | unknownInstruction cell' place' =>
      rw [toList_message_unknown, toList_message_unknown, List.append_cancel_left_eq] at htext
      obtain ⟨hcell, hplace⟩ :=
        (Quoted.form_escape cell).inj (Quoted.form_escape cell') (List.cons.inj htext).2
      rw [List.append_cancel_left_eq] at hplace
      obtain ⟨hx, hrest⟩ :=
        Decimal.ofInt_append_inj (by decide) (by decide) (List.cons.inj hplace).2
      obtain ⟨hy, _⟩ := Decimal.ofInt_append_inj (by decide) (by decide) (List.cons.inj hrest).2
      rw [hcell, Point.eq_of_toInt hx hy]
    | invalidValue value' context' =>
      exact absurd h (message_unknown_ne_invalid cell place value' context')
  | invalidValue value context =>
    cases g with
    | unknownInstruction cell' place' =>
      exact absurd h.symm (message_unknown_ne_invalid cell' place' value context)
    | invalidValue value' context' =>
      rw [toList_message_invalid, toList_message_invalid, List.append_cancel_left_eq] at htext
      obtain ⟨hvalue, hrest⟩ := Decimal.ofInt_append_inj (by decide) (by decide) htext
      have hcontext := String.toList_inj.1 (List.cons.inj hrest).2
      rw [Int64.toInt_inj.1 hvalue, hcontext]

/-- A quote is told from the frame, and a control character is shown by its code. -/
example : message (.unknownInstruction '\'' ⟨-1, 0⟩) = "unknown operation '\\'' at (-1, 0)" ∧
    message (.unknownInstruction '\x01' ⟨2, 3⟩) =
      "unknown operation '\\u\x7b1\x7d' at (2, 3)" := by
  decide

end Fault

/-! ## Lines of the log -/

namespace Machine

variable {ρ : Type} [RandomSource ρ] {m : Machine ρ} {f : Fault}

/-- A cycle tells of a fault if it ends with it, and of no other. -/
theorem aborted_mem_events_iff :
    .aborted f ∈ m.step.events ↔ m.step.turn = .stopped (.fault f) := by
  cases hs : m.status with
  | halted => simp [step_of_halted hs]
  | running =>
    rw [step_of_running hs]
    unfold visit
    by_cases hc : m.settle.cell = haltCell
    · simp [hc]
    · rcases he : m.settle.execute m.settle.cell with ⟨next, _ | (_ | _)⟩ <;> simp [hc, eq_comm]

/-- The text of a fault in a line of the log that tells of an aborted run. -/
def TellsOfAbort (line : Line) (text : String) : Prop :=
  line.message = "run aborted" ∧ ("err", .text text) ∈ line.data

theorem tellsOfAbort_iff {e : Event} {text : String} :
    TellsOfAbort e.line text ↔ ∃ g : Fault, e = .aborted g ∧ g.message = text := by
  unfold TellsOfAbort
  cases e <;> simp [Event.line, Event.message, Event.data, eq_comm]

/-- Different faults have different messages. So the text of the fault in the log, on the line that
tells of an aborted run, says with which fault a cycle ended, with its character and its place or with
its number and its context. -/
theorem messages_lose_nothing :
    Function.Injective Fault.message ∧
      ∀ (m : Machine ρ) (f : Fault),
        (∃ e ∈ m.step.events, TellsOfAbort e.line f.message) ↔
          m.step.turn = .stopped (.fault f) := by
  refine ⟨Fault.message_injective, ?_⟩
  intro m f
  rw [← aborted_mem_events_iff]
  constructor
  · rintro ⟨e, he, htells⟩
    obtain ⟨g, rfl, htext⟩ := tellsOfAbort_iff.1 htells
    rw [← Fault.message_injective htext]
    exact he
  · intro he
    exact ⟨.aborted f, he, tellsOfAbort_iff.2 ⟨f, rfl, rfl⟩⟩

end Machine

end Befunge
