import IppCode.Numeral
/-!
# IntLiteral — the integers a program can write down

`0x` or `0X` begins a hexadecimal number and a leading `0` an octal one; every
other literal is decimal, with an optional minus sign.  A `0` followed by a digit
that is not octal is decimal after all.  The value has to fit a 64-bit word.
-/
namespace IppCode.IntLiteral

def word? (n : Int) : Option Int64 :=
  if Numeral.FitsWord n then some (Int64.ofInt n) else none

def decimal? (t : Text) : Option Int64 := (Numeral.integer? t).bind word?

/-- The value of a literal, if it has one of the three forms and fits. -/
def parse : Text → Option Int64
  | '0' :: 'x' :: r => (Numeral.natural? 16 r).bind fun n => word? n
  | '0' :: 'X' :: r => (Numeral.natural? 16 r).bind fun n => word? n
  | '0' :: r        =>
    match Numeral.natural? 8 r with
    | some n => word? n
    | none   => decimal? ('0' :: r)
  | t               => decimal? t

end IppCode.IntLiteral
