-- The laws of cutting text into tokens: a token is scanned back from its text, and every
-- text that spells some tokens, with any blanks between them, is cut into those tokens.
import Befunge.Json.Lexer

namespace Befunge.Json

/-! ## Strings -/

theorem assemble_unit {n : Nat} (rest : List Piece) (h1 : isFirstHalf n = false)
    (h2 : isSecondHalf n = false) :
    assemble (.unit n :: rest) = (assemble rest).map (Char.ofNat n :: ·) := by
  rw [assemble.eq_def]
  simp [h1, h2]

/-- The two last digits of the escape of a control character give its code back. -/
theorem unit?_digitChar {n : Nat} (h : n < 0x20) :
    unit? '0' '0' (Nat.digitChar (n / 16)) (Nat.digitChar (n % 16)) = some n := by
  revert n
  decide

theorem scanString_plain {c : Char} (rest : List Char) (h1 : c ≠ '"') (h2 : c ≠ '\\')
    (h3 : ¬c.toNat < 0x20) :
    scanString (c :: rest) = (Piece.char c).before (scanString rest) := by
  rw [scanString]
  · simp [h2, h3]
  · exact h1
  · intro _ _ _ _ _ h _
    exact h2 h
  · intro _ _ h _
    exact h2 h

/-- The ways to write a character in a string: as it is, by an escape of one letter, by the escaped
unit that is its code, and by the escaped units of its surrogate pair. -/
inductive CharSpelling : Char → List Char → Prop where
  | plain {c : Char} (hquote : c ≠ '"') (hbackslash : c ≠ '\\') (hcontrol : ¬c.toNat < 0x20) :
      CharSpelling c [c]
  | letter {c l : Char} (h : unescape? l = some c) : CharSpelling c ['\\', l]
  | unit {c i j k l : Char} (h : unit? i j k l = some c.toNat) :
      CharSpelling c ['\\', 'u', i, j, k, l]
  | pair {i j k l : Char} {n : Nat} {i' j' k' l' : Char} {n' : Nat} (hn : unit? i j k l = some n)
      (hn' : unit? i' j' k' l' = some n') (first : isFirstHalf n) (second : isSecondHalf n') :
      CharSpelling (ofHalves n n')
        ['\\', 'u', i, j, k, l, '\\', 'u', i', j', k', l']

/-- The ways to write a string between its quotes. -/
inductive StringSpelling : List Char → List Char → Prop where
  | nil : StringSpelling [] []
  | cons {c : Char} {cs s rest : List Char} (h : CharSpelling c s)
      (more : StringSpelling cs rest) : StringSpelling (c :: cs) (s ++ rest)

theorem scanString_letter {l c : Char} (rest : List Char) (h : unescape? l = some c) :
    scanString ('\\' :: l :: rest) = (Piece.char c).before (scanString rest) := by
  rw [scanString, h]
  intro _ _ _ _ _ hl
  cases hl
  simp [unescape?] at h

theorem scanString_unit {i j k l : Char} {n : Nat} (rest : List Char) (h : unit? i j k l = some n) :
    scanString ('\\' :: 'u' :: i :: j :: k :: l :: rest) =
      (Piece.unit n).before (scanString rest) := by
  rw [scanString, h]

/-- However a character is written, the parts that are scanned for it stand for it. -/
theorem scanString_charSpelling {c : Char} {s rest rest' : List Char} {ps : List Piece}
    (h : CharSpelling c s) (hrest : scanString rest = some (ps, rest')) :
    ∃ qs, scanString (s ++ rest) = some (qs, rest') ∧
      assemble qs = (assemble ps).map (c :: ·) := by
  cases h with
  | plain hquote hbackslash hcontrol =>
    refine ⟨.char c :: ps, ?_, rfl⟩
    rw [List.cons_append, List.nil_append, scanString_plain rest hquote hbackslash hcontrol, hrest]
    rfl
  | letter h =>
    refine ⟨.char c :: ps, ?_, rfl⟩
    rw [List.cons_append, List.cons_append, List.nil_append, scanString_letter rest h, hrest]
    rfl
  | unit h =>
    have hvalid : c.toNat < 0xd800 ∨ 0xdfff < c.toNat ∧ c.toNat < 0x110000 := c.valid
    refine ⟨.unit c.toNat :: ps, ?_, ?_⟩
    · simp only [List.cons_append, List.nil_append, scanString_unit rest h, hrest]
      rfl
    · rw [assemble_unit, Char.ofNat_toNat]
      · simp [isFirstHalf]
        omega
      · simp [isSecondHalf]
        omega
  | pair hn hn' first second =>
    rename_i n _ _ _ _ n'
    refine ⟨.unit n :: .unit n' :: ps, ?_, ?_⟩
    · simp only [List.cons_append, List.nil_append, scanString_unit _ hn, scanString_unit _ hn',
        hrest]
      rfl
    · rw [assemble.eq_def]
      simp [first, second]

/-- However a string is written, it is scanned. -/
theorem scanString_spelling {cs s : List Char} (h : StringSpelling cs s) (rest : List Char) :
    ∃ ps, scanString (s ++ '"' :: rest) = some (ps, rest) ∧ assemble ps = some cs := by
  induction h with
  | nil => exact ⟨[], rfl, rfl⟩
  | cons h more ih =>
    obtain ⟨ps, hscan, hps⟩ := ih
    obtain ⟨qs, hscan', hqs⟩ := scanString_charSpelling h hscan
    refine ⟨qs, ?_, ?_⟩
    · rw [List.append_assoc]
      exact hscan'
    · rw [hqs, hps]
      rfl

theorem charSpelling_escape (c : Char) : CharSpelling c (escape c) := by
  unfold escape
  split
  · exact .letter rfl
  · exact .letter rfl
  · exact .letter rfl
  · exact .letter rfl
  · exact .letter rfl
  · exact .letter rfl
  · exact .letter rfl
  · rename_i hquote hbackslash _ _ _ _ _
    split
    · rename_i hcontrol
      exact .unit (unit?_digitChar hcontrol)
    · rename_i hcontrol
      exact .plain hquote hbackslash hcontrol

theorem stringSpelling_escape (cs : List Char) : StringSpelling cs (cs.flatMap escape) := by
  induction cs with
  | nil => exact .nil
  | cons c cs ih => exact .cons (charSpelling_escape c) ih

/-- A string is scanned back from its written form. -/
theorem scanString_quotedText (s : Option String) (rest : List Char) :
    ∃ ps, scanString (quotedText s ++ '"' :: rest) = some (ps, rest) ∧ textOf ps = s := by
  cases s with
  | none => exact ⟨[.unit 0xd800], rfl, rfl⟩
  | some s =>
    obtain ⟨ps, hscan, hps⟩ := scanString_spelling (stringSpelling_escape s.toList) rest
    exact ⟨ps, hscan, by simp [textOf, hps]⟩

/-! ## Numbers -/

/-- What may follow a number: nothing, or a character that does not belong to one. -/
def EndsNumber (rest : List Char) : Prop :=
  ∀ c ∈ rest.head?, c.isDigit = false ∧ c ≠ '.' ∧ c ≠ 'e' ∧ c ≠ 'E'

theorem scanDigits_append {ds rest : List Char} (hne : ds ≠ []) (hds : ∀ c ∈ ds, c.isDigit)
    (hrest : ∀ c ∈ rest.head?, c.isDigit = false) :
    scanDigits (ds ++ rest) = some (ds, rest) := by
  have h1 : rest.takeWhile Char.isDigit = [] := by
    cases rest with
    | nil => rfl
    | cons c r => simp [hrest c (by simp)]
  have h2 : rest.dropWhile Char.isDigit = rest := by
    cases rest with
    | nil => rfl
    | cons c r => simp [hrest c (by simp)]
  unfold scanDigits
  rw [List.takeWhile_append_of_pos hds, List.dropWhile_append_of_pos hds, h1, h2,
    List.append_nil]
  cases ds with
  | nil => exact absurd rfl hne
  | cons d ds => rfl

theorem scanDigits_ofNat (n : Nat) {rest : List Char}
    (hrest : ∀ c ∈ rest.head?, c.isDigit = false) :
    scanDigits (Decimal.ofNat n ++ rest) = some (Decimal.ofNat n, rest) :=
  scanDigits_append (Decimal.ofNat_ne_nil n) (fun _ => Decimal.isDigit_of_mem_ofNat) hrest

/-- Only zero is written with a zero in front. -/
theorem length_ofNat_of_head? {n : Nat} (h : (Decimal.ofNat n).head? = some '0') :
    (Decimal.ofNat n).length = 1 := by
  have key : ∀ n, 0 < n → (Nat.toDigits 10 n).head? ≠ some '0' := by
    intro n
    induction n using Nat.strongRecOn with
    | ind n ih =>
      intro hpos
      by_cases hlt : n < 10
      · clear ih
        rw [Nat.toDigits_of_lt_base hlt]
        revert hpos
        revert n
        decide
      · rw [Nat.toDigits_of_base_le (by decide) (by omega), List.head?_append]
        cases hd : (Nat.toDigits 10 (n / 10)).head? with
        | none => exact absurd (List.head?_eq_none_iff.1 hd) Nat.toDigits_ne_nil
        | some d =>
          have hrest := ih (n / 10) (by omega) (by omega)
          rwa [hd] at hrest
  rcases Nat.eq_zero_or_pos n with rfl | hpos
  · rfl
  · exact absurd h (key n hpos)

theorem scanFraction_of_ends {rest : List Char} (h : ∀ c ∈ rest.head?, c ≠ '.') :
    scanFraction rest = some ([], rest) := by
  cases rest with
  | nil => rfl
  | cons c r =>
    rw [scanFraction]
    intro r' heq
    injection heq with hc
    exact h c (by simp) hc

theorem scanExponent_of_ends {rest : List Char} (h : EndsNumber rest) :
    scanExponent rest = some (none, rest) := by
  cases rest with
  | nil => rfl
  | cons c r =>
    obtain ⟨_, _, h1, h2⟩ := h c (by simp)
    simp [scanExponent, h1, h2]

theorem scanNumber_ofNat (negative : Bool) (n : Nat) {rest : List Char} (h : EndsNumber rest)
    (hzero : ¬(negative ∧ n = 0)) :
    scanNumber negative (Decimal.ofNat n ++ rest) =
      some (.int (if negative then -(n : Int) else n), rest) := by
  have hlead : ¬((Decimal.ofNat n).head? = some '0' ∧ (Decimal.ofNat n).length ≠ 1) :=
    fun ⟨h0, h1⟩ => h1 (length_ofNat_of_head? h0)
  rw [scanNumber, scanDigits_ofNat n fun c hc => (h c hc).1]
  simp only [Option.bind_eq_bind, Option.bind_some, if_neg hlead,
    scanFraction_of_ends fun c hc => (h c hc).2.1, scanExponent_of_ends h, numeral,
    Decimal.readNat_ofNat, hzero, not_false_eq_true, and_self, if_true]

theorem scanExponent_ofInt (power : Int) {rest : List Char} (h : EndsNumber rest) :
    scanExponent ('e' :: (Decimal.ofInt power ++ rest)) = some (some power, rest) := by
  have hd := fun c hc => (h c hc).1
  cases power with
  | ofNat n =>
    have hsign : scanSign (Decimal.ofNat n ++ rest) = (false, Decimal.ofNat n ++ rest) := by
      cases hds : Decimal.ofNat n with
      | nil => exact absurd hds (Decimal.ofNat_ne_nil n)
      | cons d ds =>
        have hdigit : d.isDigit := Decimal.isDigit_of_mem_ofNat (n := n) (by simp [hds])
        rw [List.cons_append, scanSign]
        · intro _ heq
          injection heq with hc
          exact absurd (hc ▸ hdigit) (by decide)
        · intro _ heq
          injection heq with hc
          exact absurd (hc ▸ hdigit) (by decide)
    simp [scanExponent, Decimal.ofInt, hsign, scanDigits_ofNat n hd, Decimal.readNat_ofNat]
  | negSucc n =>
    simp [scanExponent, Decimal.ofInt, scanSign, scanDigits_ofNat (n + 1) hd,
      Decimal.readNat_ofNat]
    omega

theorem scanNumber_decimal (negative : Bool) (digits : Nat) (power : Int) {rest : List Char}
    (h : EndsNumber rest) :
    scanNumber negative (Decimal.ofNat digits ++ 'e' :: (Decimal.ofInt power ++ rest)) =
      some (.decimal negative digits power, rest) := by
  have hlead : ¬((Decimal.ofNat digits).head? = some '0' ∧ (Decimal.ofNat digits).length ≠ 1) :=
    fun ⟨h0, h1⟩ => h1 (length_ofNat_of_head? h0)
  rw [scanNumber, scanDigits_ofNat digits (by intro c hc; simp at hc; subst hc; decide)]
  simp [hlead, scanFraction, scanExponent_ofInt power h, numeral, Decimal.readNat_ofNat]

/-! ## Tokens -/

/-- Tells whether a token is a value without parts. -/
def Token.isScalar : Token → Bool
  | scalar _ => true
  | _ => false

/-- A text that begins with a digit begins with a number. -/
theorem scanToken_digits (n : Nat) (rest : List Char) :
    scanToken (Decimal.ofNat n ++ rest) =
      (scanNumber false (Decimal.ofNat n ++ rest)).map fun p => (.scalar p.1, p.2) := by
  cases hds : Decimal.ofNat n with
  | nil => exact absurd hds (Decimal.ofNat_ne_nil n)
  | cons d ds =>
    have hdigit : d.isDigit := Decimal.isDigit_of_mem_ofNat (n := n) (by simp [hds])
    rw [List.cons_append]
    unfold scanToken
    split
    all_goals first
      | rfl
      | rename_i heq
        injection heq with hc
        exact absurd (hc ▸ hdigit) (by decide)

/-- A token is scanned back from its text. -/
theorem scanToken_write (t : Token) {rest : List Char} (h : t.isScalar → EndsNumber rest) :
    scanToken (t.write ++ rest) = some (t, rest) := by
  cases t with
  | scalar s =>
    replace h := h rfl
    cases s with
    | null => rfl
    | bool b => cases b <;> rfl
    | int n =>
      cases n with
      | ofNat n =>
        change scanToken (Decimal.ofNat n ++ rest) = _
        rw [scanToken_digits, scanNumber_ofNat false n h (by simp)]
        rfl
      | negSucc n =>
        change (scanNumber true (Decimal.ofNat (n + 1) ++ rest)).map _ = _
        rw [scanNumber_ofNat true (n + 1) h (by simp)]
        rfl
    | decimal negative digits power =>
      cases negative with
      | false =>
        simp only [Token.write, Scalar.write, decimalText, List.nil_append, List.append_assoc,
          List.cons_append, if_false, Bool.false_eq_true]
        rw [scanToken_digits, scanNumber_decimal false digits power h]
        rfl
      | true =>
        simp only [Token.write, Scalar.write, decimalText, List.nil_append, List.append_assoc,
          List.cons_append, if_true]
        change (scanNumber true _).map _ = _
        rw [scanNumber_decimal true digits power h]
        rfl
    | text s =>
      obtain ⟨ps, hscan, hps⟩ := scanString_quotedText s rest
      simp only [Token.write, Scalar.write, List.cons_append, List.append_assoc, List.nil_append]
      change (scanString _).map _ = _
      rw [hscan]
      simp [hps]
  | _ => rfl

/-- The ways to write a token: its own text, and for a string every other way to write that
string. -/
inductive Token.Spelling : Token → List Char → Prop where
  | own (t : Token) : t.Spelling t.write
  | text {s : String} {cs : List Char} (h : StringSpelling s.toList cs) :
      (Token.scalar (.text (some s))).Spelling ('"' :: (cs ++ ['"']))

/-- However a token is written, it is scanned. -/
theorem scanToken_spelling {t : Token} {s rest : List Char} (hs : t.Spelling s)
    (h : t.isScalar → EndsNumber rest) : scanToken (s ++ rest) = some (t, rest) := by
  cases hs with
  | own => exact scanToken_write t h
  | text hs =>
    obtain ⟨ps, hscan, hps⟩ := scanString_spelling hs rest
    simp only [List.cons_append, List.append_assoc, List.nil_append]
    change (scanString _).map _ = _
    rw [hscan]
    simp [textOf, hps]

/-! ## Texts -/

/-- The texts that spell some tokens: texts of theirs in a row, with blanks between them and
around them. A number must not run into what follows it. -/
inductive Spells : List Token → List Char → Prop where
  | done {blanks : List Char} (h : ∀ c ∈ blanks, isBlank c) : Spells [] blanks
  | token {blanks s rest : List Char} {t : Token} {ts : List Token}
      (h : ∀ c ∈ blanks, isBlank c) (hs : t.Spelling s) (ends : t.isScalar → EndsNumber rest)
      (more : Spells ts rest) :
      Spells (t :: ts) (blanks ++ (s ++ rest))

theorem dropWhile_isBlank {blanks rest : List Char} (h : ∀ c ∈ blanks, isBlank c)
    (hrest : ∀ c ∈ rest.head?, isBlank c = false) :
    (blanks ++ rest).dropWhile isBlank = rest := by
  rw [List.dropWhile_append_of_pos h]
  cases rest with
  | nil => rfl
  | cons c r => simp [hrest c (by simp)]

/-- The text of a token begins with a character that is no blank. -/
theorem exists_write_eq_cons (t : Token) : ∃ c s, t.write = c :: s ∧ isBlank c = false := by
  have digits : ∀ n, ∃ c s, Decimal.ofNat n = c :: s ∧ isBlank c = false := by
    intro n
    cases hds : Decimal.ofNat n with
    | nil => exact absurd hds (Decimal.ofNat_ne_nil n)
    | cons d ds =>
      have hdigit : d.isDigit := Decimal.isDigit_of_mem_ofNat (n := n) (by simp [hds])
      refine ⟨d, ds, rfl, ?_⟩
      cases hb : isBlank d with
      | false => rfl
      | true =>
        simp only [isBlank, Bool.or_eq_true, decide_eq_true_eq] at hb
        rcases hb with ((rfl | rfl) | rfl) | rfl <;> exact absurd hdigit (by decide)
  cases t with
  | scalar s =>
    cases s with
    | null => exact ⟨_, _, rfl, rfl⟩
    | bool b => cases b <;> exact ⟨_, _, rfl, rfl⟩
    | int n =>
      cases n with
      | ofNat n => exact digits n
      | negSucc n => exact ⟨_, _, rfl, rfl⟩
    | decimal negative n power =>
      cases negative with
      | true => exact ⟨_, _, rfl, rfl⟩
      | false =>
        obtain ⟨c, s, hs, hc⟩ := digits n
        exact ⟨c, s ++ 'e' :: Decimal.ofInt power,
          by simp [Token.write, Scalar.write, decimalText, hs], hc⟩
    | text s => exact ⟨_, _, rfl, rfl⟩
  | _ => exact ⟨_, _, rfl, rfl⟩

theorem exists_spelling_eq_cons {t : Token} {s : List Char} (h : t.Spelling s) :
    ∃ c rest, s = c :: rest ∧ isBlank c = false := by
  cases h with
  | own => exact exists_write_eq_cons t
  | text _ => exact ⟨'"', _, rfl, rfl⟩

theorem lexWithin_of_spells {ts : List Token} {s : List Char} (h : Spells ts s) {fuel : Nat}
    (hfuel : s.length < fuel) : lexWithin fuel s = some ts := by
  induction h generalizing fuel with
  | done hblanks =>
    rename_i blanks
    have hdrop := @dropWhile_isBlank blanks [] hblanks (by simp)
    rw [List.append_nil] at hdrop
    cases fuel with
    | zero => omega
    | succ fuel => rw [lexWithin, hdrop]
  | token hblanks hs ends more ih =>
    rename_i blanks s rest t ts
    obtain ⟨c, s', rfl, hc⟩ := exists_spelling_eq_cons hs
    have hdrop : (blanks ++ (c :: s' ++ rest)).dropWhile isBlank = c :: s' ++ rest :=
      dropWhile_isBlank hblanks (by simp [hc])
    have hscan := scanToken_spelling hs ends
    cases fuel with
    | zero => omega
    | succ fuel =>
      have hlex : lexWithin fuel rest = some ts := ih (by simp at hfuel; omega)
      rw [lexWithin, hdrop]
      rw [List.cons_append] at hscan ⊢
      simp [hscan, hlex]

/-- Every text that spells some tokens is cut into them. -/
theorem lex_of_spells {ts : List Token} {s : List Char} (h : Spells ts s) : lex s = some ts :=
  lexWithin_of_spells h (Nat.lt_succ_self _)

end Befunge.Json
