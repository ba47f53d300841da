import IppCode.Text
/-!
# Line — what a line of source text is

A `#` begins a comment that ends the line.  What is left is cut into words: nothing,
a header if the first word begins with a dot, or an operation and its arguments.
-/
namespace IppCode.Source

inductive Line
  | blank
  | header (words : List Text)
  | instruction (operation : Text) (args : List Text)
deriving DecidableEq

namespace Line

def uncommented (t : Text) : Text := t.takeWhile (· ≠ '#')

def ofWords : List Text → Line
  | []      => blank
  | w :: ws => if w.head? = some '.' then header (w :: ws) else instruction w ws

def read (t : Text) : Line := ofWords (Text.words (uncommented t))

end Line

def header : Text := ".IPPcode24"

/-- A header of one word, in any case of its letters. -/
def isHeader : List Text → Bool
  | [w] => Text.sameLetters w header
  | _   => false

end IppCode.Source
