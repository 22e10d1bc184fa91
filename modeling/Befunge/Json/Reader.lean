-- Reading a JSON value from its tokens, one token at a time. The arrays and objects
-- that are still open are kept beside what is due next, so nesting has no limit.
import Befunge.Json.Lexer

namespace Befunge.Json

/-- An array or an object that is still open, and what has been read of it, the last part
first. -/
inductive Frame where
  | array (items : List Json)
  /-- An object with a key whose value is due. -/
  | member (members : List (Option String × Json)) (key : Option String)

/-- What is due next, inside the open frames, the inner one first. -/
inductive State where
  /-- A value is due. -/
  | value (frames : List Frame)
  /-- The first item of an array is due, or its end. -/
  | firstItem (frames : List Frame)
  /-- The first key of an object is due, or its end. -/
  | firstKey (frames : List Frame)
  /-- A key is due. -/
  | key (frames : List Frame) (members : List (Option String × Json))
  /-- A colon is due after a key. -/
  | colon (frames : List Frame) (members : List (Option String × Json)) (key : Option String)
  /-- A value is complete. -/
  | after (frames : List Frame) (value : Json)

/-- The state after the first token of a value. -/
def State.begin (frames : List Frame) : Token → Option State
  | .scalar s => some (.after frames (.scalar s))
  | .openArray => some (.firstItem frames)
  | .openObject => some (.firstKey frames)
  | _ => none

/-- The state after a token, if the token may stand there. -/
def State.next : State → Token → Option State
  | .value frames, t => begin frames t
  | .firstItem frames, .closeArray => some (.after frames (.array []))
  | .firstItem frames, t => begin (.array [] :: frames) t
  | .firstKey frames, .closeObject => some (.after frames (.object []))
  | .firstKey frames, .scalar (.text k) => some (.colon frames [] k)
  | .key frames ms, .scalar (.text k) => some (.colon frames ms k)
  | .colon frames ms k, .colon => some (.value (.member ms k :: frames))
  | .after (.array items :: frames) v, .comma => some (.value (.array (v :: items) :: frames))
  | .after (.array items :: frames) v, .closeArray =>
    some (.after frames (.array (v :: items).reverse))
  | .after (.member ms k :: frames) v, .comma => some (.key frames ((k, v) :: ms))
  | .after (.member ms k :: frames) v, .closeObject =>
    some (.after frames (.object ((k, v) :: ms).reverse))
  | _, _ => none

/-- The value that some tokens make up. -/
def ofTokens? (ts : List Token) : Option Json :=
  match ts.foldlM State.next (.value []) with
  | some (.after [] v) => some v
  | _ => none

/-- The value that a text stands for, if it is one. -/
def read? (s : List Char) : Option Json := (lex s).bind ofTokens?

end Befunge.Json
