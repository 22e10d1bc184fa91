-- The laws of reading values: a value is read from every text that spells its tokens,
-- and its own text is one of these.
import Befunge.Json.LexerLemmas
import Befunge.Json.Reader

namespace Befunge.Json

/-! ## Values from their tokens -/

/-- Where a value is due, the tokens of this one lead to the state after it. -/
def IsRead (j : Json) : Prop :=
  ∀ frames, (tokens j).foldlM State.next (.value frames) = some (.after frames j)

/-- Where the first item of an array is due, an item is read like any other. -/
theorem foldlM_firstItem (j : Json) (rest : List Token) (frames : List Frame) :
    (tokens j ++ rest).foldlM State.next (.firstItem frames) =
      (tokens j ++ rest).foldlM State.next (.value (.array [] :: frames)) := by
  cases j <;> rfl

/-- Where the first key of an object is due, a member is read like any other. -/
theorem foldlM_firstKey (key : Option String) (value : Json)
    (members : List (Option String × Json)) (rest : List Token) (frames : List Frame) :
    (memberTokens ((key, value) :: members) ++ rest).foldlM State.next (.firstKey frames) =
      (memberTokens ((key, value) :: members) ++ rest).foldlM State.next (.key frames []) := by
  cases members <;> rfl

theorem foldlM_itemTokens (item : Json) (rest acc : List Json) (frames : List Frame)
    (h : ∀ j ∈ item :: rest, IsRead j) :
    (itemTokens (item :: rest) ++ [Token.closeArray]).foldlM State.next
      (.value (.array acc :: frames)) =
      some (.after frames (.array (acc.reverse ++ item :: rest))) := by
  induction rest generalizing item acc with
  | nil =>
    have hi := h item (by simp) (.array acc :: frames)
    simp [itemTokens, List.foldlM_append, hi, State.next]
  | cons next more ih =>
    have hi := h item (by simp) (.array acc :: frames)
    have hrest := ih next (item :: acc) fun j hj => h j (List.mem_cons_of_mem _ hj)
    rw [itemTokens, List.append_assoc, List.foldlM_append, hi]
    simpa [State.next] using hrest

theorem foldlM_memberTokens (key : Option String) (value : Json)
    (rest acc : List (Option String × Json)) (frames : List Frame)
    (h : ∀ m ∈ (key, value) :: rest, IsRead m.2) :
    (memberTokens ((key, value) :: rest) ++ [Token.closeObject]).foldlM State.next
      (.key frames acc) =
      some (.after frames (.object (acc.reverse ++ (key, value) :: rest))) := by
  induction rest generalizing key value acc with
  | nil =>
    have hv := h (key, value) (by simp) (.member acc key :: frames)
    simp [memberTokens, List.foldlM_append, hv, State.next]
  | cons next more ih =>
    obtain ⟨nextKey, nextValue⟩ := next
    have hv := h (key, value) (by simp) (.member acc key :: frames)
    have hrest := ih nextKey nextValue ((key, value) :: acc)
      fun m hm => h m (List.mem_cons_of_mem _ hm)
    change (tokens value ++ Token.comma :: memberTokens ((nextKey, nextValue) :: more) ++
      [Token.closeObject]).foldlM State.next (.value (.member acc key :: frames)) = _
    rw [List.append_assoc, List.foldlM_append, hv]
    simpa [State.next] using hrest

/-- A value is read from its tokens, inside any open frames. -/
theorem isRead (j : Json) : IsRead j := by
  intro frames
  match j with
  | .scalar s => rfl
  | .array [] => rfl
  | .array (item :: rest) =>
    have h := foldlM_itemTokens item rest [] frames fun i hi => isRead i
    rw [tokens, List.foldlM_cons]
    simp only [State.next, State.begin, Option.bind_eq_bind, Option.bind_some]
    cases rest with
    | nil => rw [itemTokens, foldlM_firstItem]; exact h
    | cons next more =>
      rw [itemTokens, List.append_assoc] at h ⊢
      rw [foldlM_firstItem]
      exact h
  | .object [] => rfl
  | .object ((key, value) :: rest) =>
    have h := foldlM_memberTokens key value rest [] frames fun m hm => isRead m.2
    rw [tokens, List.foldlM_cons]
    simp only [State.next, State.begin, Option.bind_eq_bind, Option.bind_some]
    rw [foldlM_firstKey]
    exact h
termination_by sizeOf j
decreasing_by
  · have := List.sizeOf_lt_of_mem hi
    simp only [Json.array.sizeOf_spec]
    omega
  · have := List.sizeOf_lt_of_mem hm
    have : sizeOf m = 1 + sizeOf m.1 + sizeOf m.2 := Prod.mk.sizeOf_spec m.1 m.2
    simp only [Json.object.sizeOf_spec]
    omega

theorem ofTokens?_tokens (j : Json) : ofTokens? (tokens j) = some j := by
  rw [ofTokens?, isRead j]

/-- A value is read from every text that spells its tokens. -/
theorem read?_of_spells {j : Json} {s : List Char} (h : Spells (tokens j) s) : read? s = some j := by
  rw [read?, lex_of_spells h]
  exact ofTokens?_tokens j

/-! ## Values from their text -/

theorem spells_token {t : Token} {ts : List Token} {rest : List Char}
    (ends : t.isScalar → EndsNumber rest) (h : Spells ts rest) :
    Spells (t :: ts) (t.write ++ rest) :=
  @Spells.token [] t.write rest t ts (by simp) (.own t) ends h

/-- The text of a value spells its tokens in front of any others. -/
def IsSpelled (j : Json) : Prop :=
  ∀ ts rest, EndsNumber rest → Spells ts rest →
    Spells (tokens j ++ ts) ((tokens j).flatMap Token.write ++ rest)

theorem endsNumber_comma (rest : List Char) : EndsNumber (',' :: rest) := by
  intro c hc
  simp at hc
  subst hc
  decide

theorem spells_itemTokens (items : List Json) (h : ∀ j ∈ items, IsSpelled j) :
    ∀ ts rest, EndsNumber rest → Spells ts rest →
      Spells (itemTokens items ++ ts) ((itemTokens items).flatMap Token.write ++ rest) := by
  intro ts rest ends hts
  induction items with
  | nil => simpa [itemTokens] using hts
  | cons item more ih =>
    have hi := h item (by simp)
    have hmore := ih fun j hj => h j (List.mem_cons_of_mem _ hj)
    cases more with
    | nil => exact hi ts rest ends hts
    | cons next more =>
      have hcomma := spells_token (t := .comma) (by simp [Token.isScalar]) hmore
      have hall := hi _ _ (endsNumber_comma _) hcomma
      simpa [itemTokens, Token.write] using hall

theorem spells_memberTokens (members : List (Option String × Json))
    (h : ∀ m ∈ members, IsSpelled m.2) :
    ∀ ts rest, EndsNumber rest → Spells ts rest →
      Spells (memberTokens members ++ ts) ((memberTokens members).flatMap Token.write ++ rest) := by
  intro ts rest ends hts
  induction members with
  | nil => simpa [memberTokens] using hts
  | cons member more ih =>
    obtain ⟨key, value⟩ := member
    have hv := h (key, value) (by simp)
    have hmore := ih fun m hm => h m (List.mem_cons_of_mem _ hm)
    have hkey : ∀ {ts rest}, Spells ts rest →
        Spells (.scalar (.text key) :: .colon :: ts)
          ((Token.scalar (.text key)).write ++ (Token.colon.write ++ rest)) := by
      intro ts rest hrest
      have hcolon := spells_token (t := .colon) (by simp [Token.isScalar]) hrest
      refine spells_token (fun _ => ?_) hcolon
      intro c hc
      simp [Token.write] at hc
      subst hc
      decide
    cases more with
    | nil => simpa [memberTokens] using hkey (hv ts rest ends hts)
    | cons next more =>
      have hcomma := spells_token (t := .comma) (by simp [Token.isScalar]) hmore
      have hall := hkey (hv _ _ (endsNumber_comma _) hcomma)
      simpa [memberTokens, Token.write] using hall

/-- The text of a value spells its tokens. -/
theorem isSpelled (j : Json) : IsSpelled j := by
  intro ts rest ends hts
  match j with
  | .scalar s => simpa [tokens] using spells_token (t := .scalar s) (fun _ => ends) hts
  | .array items =>
    have hclose := spells_token (t := .closeArray) (by simp [Token.isScalar]) hts
    have hitems := spells_itemTokens items (fun i hi => isSpelled i) _ _ (by
      intro c hc
      simp [Token.write] at hc
      subst hc
      decide) hclose
    simpa [tokens] using spells_token (t := .openArray) (by simp [Token.isScalar]) hitems
  | .object members =>
    have hclose := spells_token (t := .closeObject) (by simp [Token.isScalar]) hts
    have hmembers := spells_memberTokens members (fun m hm => isSpelled m.2) _ _ (by
      intro c hc
      simp [Token.write] at hc
      subst hc
      decide) hclose
    simpa [tokens] using spells_token (t := .openObject) (by simp [Token.isScalar]) hmembers
termination_by sizeOf j
decreasing_by
  · have := List.sizeOf_lt_of_mem hi
    simp only [Json.array.sizeOf_spec]
    omega
  · have := List.sizeOf_lt_of_mem hm
    have : sizeOf m = 1 + sizeOf m.1 + sizeOf m.2 := Prod.mk.sizeOf_spec m.1 m.2
    simp only [Json.object.sizeOf_spec]
    omega

theorem spells_write (j : Json) : Spells (tokens j) (write j) := by
  have h := isSpelled j [] [] (by simp [EndsNumber]) (.done (by simp))
  simpa [write] using h

/-- Reading gives back what was written. -/
theorem read?_write (j : Json) : read? (write j) = some j := read?_of_spells (spells_write j)

end Befunge.Json
