import IppCode.Numeral
/-!
# Units — what stands between the quotes of a JSON string

A string is written as a sequence of units: a character stands for its code, and an
escape `\uXXXX` for sixteen bits, which may be half of a character.  Only a string
whose halves pair up denotes a text, so the units are kept until a text is asked for.

This module, `Token` and `Value` stand for the JSON library that the program calls, as far as
its documents need it; the program's own part begins with `Records`.
-/
namespace IppCode.Json

abbrev Units := List Nat

namespace Units

def ofText (t : Text) : Units := t.map Char.toNat

/-- The first half of a character beyond the basic plane. -/
def isHigh (u : Nat) : Bool := 0xD800 ≤ u && u ≤ 0xDBFF

/-- The second half of a character beyond the basic plane. -/
def isLow (u : Nat) : Bool := 0xDC00 ≤ u && u ≤ 0xDFFF

def joined (high low : Nat) : Char :=
  Char.ofNat (0x10000 + (high - 0xD800) * 0x400 + (low - 0xDC00))

/-- The text of the units, unless a half has no partner. -/
def text? : Units → Option Text
  | []     => some []
  | u :: r =>
    if isHigh u then
      match r with
      | v :: s => if isLow v then (text? s).map (joined u v :: ·) else none
      | []     => none
    else if isLow u then none
    else (text? r).map (Char.ofNat u :: ·)

/-! ## Writing -/

def hexDigits (u : Nat) : Text :=
  [Nat.digitChar (u / 4096 % 16), Nat.digitChar (u / 256 % 16), Nat.digitChar (u / 16 % 16),
   Nat.digitChar (u % 16)]

/-- A unit as it is written: quotes, backslashes, control characters and lone halves as
escapes, the short ones where there are any, and every other character as itself. -/
def spell (u : Nat) : Text :=
  if u = 0x22 then "\\\""
  else if u = 0x5C then "\\\\"
  else if u = 0x08 then "\\b"
  else if u = 0x09 then "\\t"
  else if u = 0x0A then "\\n"
  else if u = 0x0C then "\\f"
  else if u = 0x0D then "\\r"
  else if u < 0x20 || isHigh u || isLow u then '\\' :: 'u' :: hexDigits u
  else [Char.ofNat u]

def quoted (us : Units) : Text := '"' :: us.flatMap spell ++ ['"']

end Units

end IppCode.Json
