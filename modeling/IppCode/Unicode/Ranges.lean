/-!
# Ranges — sets of code points

A property of characters is a table of disjoint intervals of code points in
ascending order.
-/
namespace IppCode.Unicode

/-- An interval of code points, both ends included. -/
abbrev Interval := Nat × Nat

/-- Looks the code up in an ascending table, up to the first interval beyond it. -/
def inTable (code : Nat) : List Interval → Bool
  | []            => false
  | (lo, hi) :: r => if code < lo then false else code ≤ hi || inTable code r

/-- Every interval is nonempty and lies above the one before it. -/
def ascending : List Interval → Bool
  | (lo, hi) :: (lo', hi') :: r => lo ≤ hi && hi < lo' && ascending ((lo', hi') :: r)
  | [(lo, hi)]                  => lo ≤ hi
  | []                          => true

end IppCode.Unicode
