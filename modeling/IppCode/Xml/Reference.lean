import IppCode.Numeral
import IppCode.Xml.Chars
/-!
# Reference — characters written by number or name, and the ends of lines

A reference is a number in decimal or, after `x`, in hexadecimal, or one of the five
names that need no declaration.  Around the references, text has its line ends made
uniform, and in an attribute every blank becomes a space.

This is the library's part of reading a document, not the program's.
-/
namespace IppCode.Xml

def namedChar? (name : Text) : Option Char :=
  if name = "quot" then some '"'
  else if name = "amp" then some '&'
  else if name = "apos" then some '\''
  else if name = "lt" then some '<'
  else if name = "gt" then some '>'
  else none

/-- A number below `2^32`; where it is no character, the replacement character stands
for it, and a character that no document may contain is refused. -/
def numberedChar? (base : Nat) (digits : Text) : Option Char :=
  match Numeral.natural? base digits with
  | none   => none
  | some n =>
    if n < 0x100000000 then
      let c := if n.isValidChar then Char.ofNat n else '\uFFFD'
      if isDocumentChar c then some c else none
    else none

def referenced? : Text → Option Char
  | '#' :: 'x' :: digits => numberedChar? 16 digits
  | '#' :: digits        => numberedChar? 10 digits
  | name                 => namedChar? name

/-- Text as a sequence of characters, each with whether a reference wrote it. -/
abbrev Spelled := List (Char × Bool)

/-- Resolves the references.  Inside one, the characters since its `&` are kept, the latest
first. -/
def resolve : Option Text → Text → Option Spelled
  | none,      []     => some []
  | some _,    []     => none
  | none,      c :: r =>
    if c = '&' then resolve (some []) r else (resolve none r).map ((c, false) :: ·)
  | some seen, c :: r =>
    if c = ';' then
      match referenced? seen.reverse with
      | some d => (resolve none r).map ((d, true) :: ·)
      | none   => none
    else resolve (some (c :: seen)) r

/-- Adds an ordinary character to the latest characters of a text: a carriage return
before it is a line feed, and the two of them together are one. -/
def addOrdinary (done : Text) (c : Char) (last : Bool) : Text :=
  let c' := if last && c = '\r' then '\n' else c
  match done with
  | '\r' :: d => if c = '\n' then '\n' :: d else c' :: '\n' :: d
  | d         => c' :: d

/-- Makes the line ends of a text uniform.  Referenced characters are kept, and so is
the carriage return that one of them touches, unless ordinary text follows. -/
def joinLines (done : Text) (afterReference : Bool) : Spelled → Text
  | []              => done.reverse
  | (c, true) :: r  => joinLines (c :: done) true r
  | (c, false) :: r =>
    if afterReference then joinLines (c :: done) false r
    else joinLines (addOrdinary done c r.isEmpty) false r

def contentText? (t : Text) : Option Text := (resolve none t).map (joinLines [] false)

def literalText (t : Text) : Text := joinLines [] false (t.map fun c => (c, false))

/-- Blanks in an attribute are spaces, and a line end of two characters is one. -/
def joinBlanks : Spelled → Text
  | []                                  => []
  | ('\r', false) :: ('\n', false) :: r => joinBlanks (('\n', false) :: r)
  | (c, false) :: r                     => (if isSpace c then ' ' else c) :: joinBlanks r
  | (c, true) :: r                      => c :: joinBlanks r

def attributeText? (t : Text) : Option Text := (resolve none t).map joinBlanks

end IppCode.Xml
