-- Cutting a text into lines. Only the line feed ends a line, and the text after the
-- last one is a line too, so every text has at least one.
namespace Befunge.Lines

/-- The lines of a text, without the line feeds between them. -/
def split : List Char → List (List Char)
  | [] => [[]]
  | c :: rest =>
    if c = '\n' then [] :: split rest
    else
      match split rest with
      | line :: lines => (c :: line) :: lines
      | [] => [[c]]

/-- The text with the given lines, a line feed between any two. -/
def join : List (List Char) → List Char
  | [] => []
  | [line] => line
  | line :: next :: lines => line ++ '\n' :: join (next :: lines)

theorem split_ne_nil (text : List Char) : split text ≠ [] := by
  cases text with
  | nil => simp [split]
  | cons c rest =>
    simp only [split]
    split
    · simp
    · split <;> simp

/-- Joining the lines of a text gives the text back. -/
theorem join_split (text : List Char) : join (split text) = text := by
  induction text with
  | nil => rfl
  | cons c rest ih =>
    simp only [split]
    split
    · rename_i hc
      cases hs : split rest with
      | nil => exact absurd hs (split_ne_nil rest)
      | cons line lines =>
        rw [hs] at ih
        simp [join, ih, hc]
    · cases hs : split rest with
      | nil => exact absurd hs (split_ne_nil rest)
      | cons line lines =>
        rw [hs] at ih
        cases lines with
        | nil => simpa [join] using ih
        | cons next more => simpa [join] using ih

theorem split_of_not_mem {line : List Char} (h : '\n' ∉ line) : split line = [line] := by
  induction line with
  | nil => rfl
  | cons c rest ih =>
    have hc : c ≠ '\n' := fun hc => h (hc ▸ List.mem_cons_self)
    have hrest := ih (fun hmem => h (List.mem_cons_of_mem c hmem))
    simp [split, hc, hrest]

theorem split_append {line : List Char} (h : '\n' ∉ line) (text : List Char) :
    split (line ++ '\n' :: text) = line :: split text := by
  induction line with
  | nil => simp [split]
  | cons c rest ih =>
    have hc : c ≠ '\n' := fun hc => h (hc ▸ List.mem_cons_self)
    have hrest := ih (fun hmem => h (List.mem_cons_of_mem c hmem))
    simp [split, hc, hrest]

/-- Cutting a text that was joined from lines gives the lines back. -/
theorem split_join {lines : List (List Char)} (hne : lines ≠ [])
    (h : ∀ line ∈ lines, '\n' ∉ line) : split (join lines) = lines := by
  induction lines with
  | nil => exact absurd rfl hne
  | cons line lines ih =>
    have hline := h line List.mem_cons_self
    cases lines with
    | nil => exact split_of_not_mem hline
    | cons next more =>
      have hrest := ih (by simp) (fun l hl => h l (List.mem_cons_of_mem line hl))
      rw [join, split_append hline, hrest]

theorem join_eq_intercalate (lines : List (List Char)) :
    join lines = ['\n'].intercalate lines := by
  induction lines with
  | nil => rfl
  | cons line lines ih =>
    cases lines with
    | nil => simp [join]
    | cons next more => simp [join, ih]

theorem newline_not_mem_of_mem_split {text line : List Char} (h : line ∈ split text) :
    '\n' ∉ line := by
  induction text generalizing line with
  | nil =>
    rw [split, List.mem_singleton] at h
    simp [h]
  | cons c rest ih =>
    rw [split] at h
    by_cases hc : c = '\n'
    · rw [if_pos hc] at h
      rcases List.mem_cons.1 h with rfl | h
      · exact List.not_mem_nil
      · exact ih h
    · rw [if_neg hc] at h
      cases hs : split rest with
      | nil => exact absurd hs (split_ne_nil rest)
      | cons first lines =>
        simp only [hs] at h
        rcases List.mem_cons.1 h with rfl | h
        · have hfirst := ih (hs ▸ List.mem_cons_self : first ∈ split rest)
          simp [Ne.symm hc, hfirst]
        · exact ih (hs ▸ List.mem_cons_of_mem first h)

/-- A text has one line more than it has line feeds. -/
theorem length_split (text : List Char) : (split text).length = text.count '\n' + 1 := by
  induction text with
  | nil => rfl
  | cons c rest ih =>
    rw [split]
    by_cases hc : c = '\n'
    · rw [if_pos hc, List.length_cons, ih, hc, List.count_cons_self]
    · rw [if_neg hc, List.count_cons_of_ne hc, ← ih]
      cases hs : split rest with
      | nil => exact absurd hs (split_ne_nil rest)
      | cons first lines => rfl

theorem split_eq_splitOn (text : List Char) : split text = text.splitOn '\n' := by
  have hsplit : (['\n'].intercalate (split text)).splitOn '\n' = split text :=
    List.splitOn_intercalate '\n' (fun _ => newline_not_mem_of_mem_split) (split_ne_nil text)
  rw [← join_eq_intercalate, join_split] at hsplit
  exact hsplit.symm

/-- The line `line` with `fill` added at its end until it has `width` characters. -/
def pad (fill : Char) (width : Nat) (line : List Char) : List Char :=
  line ++ List.replicate (width - line.length) fill

theorem length_pad {fill : Char} {width : Nat} {line : List Char} (h : line.length ≤ width) :
    (pad fill width line).length = width := by
  simp [pad]
  omega

theorem getElem?_pad (fill : Char) {width n : Nat} (line : List Char) (h : n < width) :
    (pad fill width line)[n]? = some (line.getD n fill) := by
  unfold pad
  rw [List.getElem?_append, List.getD_eq_getElem?_getD]
  split
  · rename_i hn
    rw [List.getElem?_eq_getElem hn]
    rfl
  · rename_i hn
    rw [List.getElem?_eq_none (Nat.le_of_not_lt hn), List.getElem?_replicate, if_pos (by omega)]
    rfl

end Befunge.Lines
