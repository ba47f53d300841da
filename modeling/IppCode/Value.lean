import IppCode.Numeral
/-!
# Value — what variables hold and operations compute

The values of a program are 64-bit integers, booleans, texts and nil.  Labels and
type names are values too, but only as the operands of the operations that take
them.  A variable that was never assigned holds no value, which is not nil.
-/
namespace IppCode

/-- The types that a program can name. -/
inductive TypeName
  | int
  | bool
  | string
deriving DecidableEq

namespace TypeName

def all : List TypeName := [int, bool, string]

def text : TypeName → Text
  | int    => "int"
  | bool   => "bool"
  | string => "string"

def ofText? (t : Text) : Option TypeName := all.find? fun n => n.text == t

end TypeName

inductive Value
  | int (n : Int64)
  | bool (b : Bool)
  | text (t : Text)
  | type (n : TypeName)
  | label (name : Text)
  | nil
deriving DecidableEq

namespace Value

/-- The name of a value's type, as `TYPE` reports it. -/
def typeName : Value → Text
  | int _   => "int"
  | bool _  => "bool"
  | text _  => "string"
  | type _  => "type"
  | label _ => "label"
  | nil     => "nil"

def isNil : Value → Bool
  | nil => true
  | _   => false

def sameType : Value → Value → Bool
  | int _,   int _   => true
  | bool _,  bool _  => true
  | text _,  text _  => true
  | type _,  type _  => true
  | label _, label _ => true
  | nil,     nil     => true
  | _,       _       => false

def boolText (b : Bool) : Text := if b then "true" else "false"

/-- The text that `WRITE` prints; nil prints nothing. -/
def shown : Value → Text
  | int n      => Numeral.ofInt n.toInt
  | bool b     => boolText b
  | text t     => t
  | type n     => n.text
  | label name => name
  | nil        => []

/-- The order of two values of one ordered type: integers by value, false before
true, texts by the code points of their characters. -/
def order? : Value → Value → Option Ordering
  | int a,  int b  => some (compareOfLessAndEq a b)
  | bool a, bool b => some (compareOfLessAndEq a b)
  | text a, text b => some (compareOfLessAndEq a b)
  | _,      _      => none

end Value

end IppCode
