import IppCode.Text
/-!
# Numeral — numbers as digits

Reading and writing natural numbers and integers in positional notation.  A
reader takes a nonempty run of digits of its base and nothing else; a 64-bit
integer is read by reading an integer and asking whether it fits the word.
-/
namespace IppCode.Numeral

/-- The value of a digit: decimal digits, then the letters `a` to `f` in either case. -/
def digit? (c : Char) : Option Nat :=
  if '0' ≤ c ∧ c ≤ '9' then some (c.toNat - '0'.toNat)
  else if 'a' ≤ c ∧ c ≤ 'f' then some (c.toNat - 'a'.toNat + 10)
  else if 'A' ≤ c ∧ c ≤ 'F' then some (c.toNat - 'A'.toNat + 10)
  else none

def isDigit (base : Nat) (c : Char) : Bool :=
  match digit? c with
  | none   => false
  | some d => d < base

/-- The number that a run of digits denotes, whatever its length. -/
def value (base : Nat) (t : Text) : Nat :=
  t.foldl (fun n c => base * n + (digit? c).getD 0) 0

/-- A nonempty run of digits of the base. -/
def natural? (base : Nat) (t : Text) : Option Nat :=
  if !t.isEmpty && t.all (isDigit base) then some (value base t) else none

/-- A 64-bit word holds the integers from `-2^63` up to, not including, `2^63`. -/
def FitsWord (n : Int) : Prop := -0x8000000000000000 ≤ n ∧ n < 0x8000000000000000

instance (n : Int) : Decidable (FitsWord n) := inferInstanceAs (Decidable (_ ∧ _))

/-- A decimal number with an optional minus sign. -/
def integer? : Text → Option Int
  | '-' :: r => (natural? 10 r).map fun n : Nat => -(n : Int)
  | t        => (natural? 10 t).map fun n : Nat => (n : Int)

/-- A decimal number with an optional sign, of either kind, that fits a word. -/
def signedWord? (t : Text) : Option Int :=
  (match t with
    | '+' :: r => (natural? 10 r).map fun n : Nat => (n : Int)
    | _        => integer? t).filter fun n => decide (FitsWord n)

/-- A decimal number with an optional plus sign, below `2^64`. -/
def unsignedWord? (t : Text) : Option Nat :=
  (match t with
    | '+' :: r => natural? 10 r
    | _        => natural? 10 t).filter fun n => decide (n < 0x10000000000000000)

/-! ## Writing -/

def ofNat (n : Nat) : Text := Nat.toDigits 10 n

def ofInt (n : Int) : Text :=
  if n < 0 then '-' :: ofNat n.natAbs else ofNat n.natAbs

end IppCode.Numeral
