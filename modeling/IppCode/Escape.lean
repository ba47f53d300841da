import IppCode.Numeral
/-!
# Escape — text as one token of a source line

A backslash and three decimal digits stand for the character with that code.
Writing escapes blanks, control characters, `#` and the backslash itself, so what
is written has no character at which a line or a token ends.  Reading keeps a
backslash that no three digits follow.
-/
namespace IppCode.Escape

/-- The character that three decimal digits name. -/
def named? (a b c : Char) : Option Char :=
  (Numeral.natural? 10 [a, b, c]).map Char.ofNat

def decode : Text → Text
  | '\\' :: a :: b :: c :: r =>
    match named? a b c with
    | some d => d :: decode r
    | none   => '\\' :: decode (a :: b :: c :: r)
  | c :: r => c :: decode r
  | []     => []

def mustEscape (c : Char) : Bool := c.toNat ≤ 32 || c = '#' || c = '\\'

/-- A backslash and the three digits of a code below 1000. -/
def spell (n : Nat) : Text :=
  ['\\', Nat.digitChar (n / 100), Nat.digitChar (n / 10 % 10), Nat.digitChar (n % 10)]

def encodeChar (c : Char) : Text := if mustEscape c then spell c.toNat else [c]

/-- Writes every character that would end a token or begin an escape as an escape. -/
def encode (t : Text) : Text := t.flatMap encodeChar

/-- Three decimal digits follow every backslash. -/
def wellFormed : Text → Bool
  | []     => true
  | c :: r => (c != '\\' || (3 ≤ r.length && (r.take 3).all (Numeral.isDigit 10))) && wellFormed r

end IppCode.Escape
