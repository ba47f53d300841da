/-!
# Stack — last in, first out

A stack is the list of its items, the top first.
-/
namespace IppCode

abbrev Stack (α : Type) := List α

namespace Stack

variable {α : Type}

def push (a : α) (s : Stack α) : Stack α := a :: s

/-- The top, and the stack without it. -/
def pop : Stack α → Option (α × Stack α)
  | []     => none
  | a :: s => some (a, s)

def peek : Stack α → Option α
  | []     => none
  | a :: _ => some a

def modifyTop (f : α → α) : Stack α → Option (Stack α)
  | []     => none
  | a :: s => some (f a :: s)

def fromBottom (s : Stack α) : List α := s.reverse

theorem pop_push (a : α) (s : Stack α) : pop (push a s) = some (a, s) := rfl

end Stack

end IppCode
