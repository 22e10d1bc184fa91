-- The four headings of the pointer. `?` chooses among them by number, so their
-- order is part of what a random choice means.
namespace Befunge

/-- A direction of travel. A program starts with the pointer heading right. -/
inductive Heading where
  | up
  | down
  | left
  | right
  deriving DecidableEq

instance : Inhabited Heading := ⟨.right⟩

namespace Heading

/-- The displacement of one move. Columns grow to the right and rows grow downward. -/
def delta : Heading → Int64 × Int64
  | up => (0, -1)
  | down => (0, 1)
  | left => (-1, 0)
  | right => (1, 0)

/-- The name of a heading, as it is written in logs and in JSON. -/
def name : Heading → String
  | up => "up"
  | down => "down"
  | left => "left"
  | right => "right"

/-- The headings in the order in which a random choice numbers them. -/
def all : List Heading := [up, down, left, right]

theorem nodup_all : all.Nodup := by decide

/-- The heading with the number `n`, counted modulo four. -/
def ofNumber (n : Nat) : Heading :=
  match n % 4 with
  | 0 => up
  | 1 => down
  | 2 => left
  | _ => right

theorem all_getElem? (h : Heading) (n : Nat) (hn : n < 4) :
    all[n]? = some h ↔ ofNumber n = h := by
  match n, hn with
  | 0, _ => cases h <;> decide
  | 1, _ => cases h <;> decide
  | 2, _ => cases h <;> decide
  | 3, _ => cases h <;> decide

end Heading

end Befunge
