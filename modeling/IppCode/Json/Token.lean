import IppCode.Json.Units
/-!
# Token — JSON text cut into its smallest parts

The lexer reads one character at a time and keeps what it is in the middle of: a
word or number, a string, an escape, or the digits of one.  A word or number runs
up to the next blank, quote or punctuation mark and has to be one that JSON has.

Like `Units` and `Value`, this is the library's part of reading JSON, not the program's.
-/
namespace IppCode.Json

inductive Token
  | openBrace
  | closeBrace
  | openBracket
  | closeBracket
  | comma
  | colon
  | null
  | bool (b : Bool)
  | number (literal : Text)
  | string (units : Units)
deriving DecidableEq

namespace Token

def isBlank (c : Char) : Bool := c = ' ' || c = '\t' || c = '\n' || c = '\r'

def punctuation? (c : Char) : Option Token :=
  if c = '\x7b' then some openBrace
  else if c = '\x7d' then some closeBrace
  else if c = '[' then some openBracket
  else if c = ']' then some closeBracket
  else if c = ',' then some comma
  else if c = ':' then some colon
  else none

def isDigit (c : Char) : Bool := Numeral.isDigit 10 c

/-- Nothing, or an exponent: `e`, an optional sign, digits. -/
def isExponent : Text → Bool
  | []     => true
  | c :: r =>
    (c = 'e' || c = 'E') &&
      (match r with
        | '+' :: s => !s.isEmpty && s.all isDigit
        | '-' :: s => !s.isEmpty && s.all isDigit
        | s        => !s.isEmpty && s.all isDigit)

/-- What may follow the whole part of a number: a fraction, an exponent, or both. -/
def isFraction : Text → Bool
  | '.' :: r => !(r.takeWhile isDigit).isEmpty && isExponent (r.dropWhile isDigit)
  | r        => isExponent r

def isUnsigned : Text → Bool
  | '0' :: r => isFraction r
  | t        => !(t.takeWhile isDigit).isEmpty && isFraction (t.dropWhile isDigit)

/-- An optional minus sign, a whole part without leading zeros, and what may follow. -/
def isNumber : Text → Bool
  | '-' :: r => isUnsigned r
  | t        => isUnsigned t

def bare? (t : Text) : Option Token :=
  if t = "null" then some null
  else if t = "true" then some (bool true)
  else if t = "false" then some (bool false)
  else if isNumber t then some (number t)
  else none

/-- The unit that a one-letter escape stands for. -/
def escape? (c : Char) : Option Nat :=
  if c = '"' || c = '\\' || c = '/' then some c.toNat
  else if c = 'b' then some 0x08
  else if c = 'f' then some 0x0C
  else if c = 'n' then some 0x0A
  else if c = 'r' then some 0x0D
  else if c = 't' then some 0x09
  else none

def hexDigit? (c : Char) : Option Nat :=
  match Numeral.digit? c with
  | some d => if d < 16 then some d else none
  | none   => none

/-- What the lexer is in the middle of, the latest character first. -/
inductive Mode
  | outside
  | bare (run : Text)
  | string (units : Units)
  | escape (units : Units)
  | hex (units : Units) (due : Nat) (value : Nat)

def read : Mode → Text → Option (List Token)
  | .outside, []  => some []
  | .bare run, [] => (bare? run.reverse).map ([·])
  | _, []         => none
  | .outside, c :: r =>
    if isBlank c then read .outside r
    else if c = '"' then read (.string []) r
    else match punctuation? c with
      | some t => (read .outside r).map (t :: ·)
      | none   => read (.bare [c]) r
  | .bare run, c :: r =>
    if isBlank c then
      match bare? run.reverse with
      | some t => (read .outside r).map (t :: ·)
      | none   => none
    else if c = '"' then none
    else match punctuation? c with
      | some p =>
        match bare? run.reverse with
        | some t => (read .outside r).map fun ts => t :: p :: ts
        | none   => none
      | none => read (.bare (c :: run)) r
  | .string units, c :: r =>
    if c = '"' then (read .outside r).map (string units.reverse :: ·)
    else if c = '\\' then read (.escape units) r
    else if c.toNat < 0x20 then none
    else read (.string (c.toNat :: units)) r
  | .escape units, c :: r =>
    if c = 'u' then read (.hex units 4 0) r
    else match escape? c with
      | some u => read (.string (u :: units)) r
      | none   => none
  | .hex units due value, c :: r =>
    match hexDigit? c with
    | none   => none
    | some d =>
      if due ≤ 1 then read (.string ((value * 16 + d) :: units)) r
      else read (.hex units (due - 1) (value * 16 + d)) r

def ofText? (t : Text) : Option (List Token) := read .outside t

end Token

end IppCode.Json
