-- The stack of a program. Popping an empty stack gives zero, so every instruction
-- finds as many numbers as it needs.
import Befunge.Value

namespace Befunge

/-- The numbers of a stack, the top one first. -/
structure Stack where
  items : List Value
  deriving DecidableEq

namespace Stack

def empty : Stack := ⟨[]⟩

/-- The stack with the given numbers, the bottom one first. -/
def ofValues (values : List Value) : Stack := ⟨values.reverse⟩

/-- The numbers from bottom to top. -/
def values (s : Stack) : List Value := s.items.reverse

def push (s : Stack) (v : Value) : Stack := ⟨v :: s.items⟩

/-- The number `n` places below the top, and zero below the bottom. -/
def peek (s : Stack) (n : Nat) : Value := s.items.getD n 0

/-- The stack under its top `n` numbers. -/
def drop (s : Stack) (n : Nat) : Stack := ⟨s.items.drop n⟩

/-- The top number, or zero, and the stack under it. -/
def pop (s : Stack) : Value × Stack := (s.peek 0, s.drop 1)

def isEmpty (s : Stack) : Bool := s.items.isEmpty

@[simp]
theorem ofValues_values (s : Stack) : ofValues s.values = s := by
  simp [ofValues, values]

theorem push_ofValues (values : List Value) (v : Value) :
    (ofValues values).push v = ofValues (values ++ [v]) := by
  simp [ofValues, push]

@[simp]
theorem values_push (s : Stack) (v : Value) : (s.push v).values = s.values ++ [v] := by
  simp [push, values]

end Stack

end Befunge
