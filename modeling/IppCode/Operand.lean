import IppCode.Escape
import IppCode.IntLiteral
import IppCode.Value
import IppCode.Variable
/-!
# Operand — the arguments of an instruction

An argument is written as a kind and a text.  Reading it gives a variable, which is
looked up each time the instruction runs, or a value that stands for itself.
-/
namespace IppCode

inductive ArgKind
  | int
  | bool
  | string
  | nil
  | var
  | label
  | type
deriving DecidableEq

namespace ArgKind

def all : List ArgKind := [int, bool, string, nil, var, label, type]

def text : ArgKind → Text
  | int    => "int"
  | bool   => "bool"
  | string => "string"
  | nil    => "nil"
  | var    => "var"
  | label  => "label"
  | type   => "type"

def ofText? (t : Text) : Option ArgKind := all.find? fun k => k.text == t

/-- The kinds whose values a program can compute with. -/
def isConstant : ArgKind → Bool
  | int | bool | string | nil => true
  | var | label | type        => false

end ArgKind

inductive Operand
  | var (v : Variable)
  | const (value : Value)
deriving DecidableEq

inductive LiteralError
  | unknownKind
  | invalidInt
  | invalidType
  | invalidVariable
  | invalidLabel
deriving DecidableEq

namespace Operand

def describe : Operand → Text
  | var v               => v.text
  | const (.label name) => "label " ++ name
  | const (.type n)     => "type " ++ n.text
  | const value         => value.typeName ++ '@' :: Escape.encode value.shown

/-- Reads the text of an argument of the given kind.  Every text but `true` is the
boolean false, and every text is nil. -/
def ofKind (kind : ArgKind) (t : Text) : Except LiteralError Operand :=
  match kind with
  | .int =>
    match IntLiteral.parse t with
    | some n => .ok (const (.int n))
    | none   => .error .invalidInt
  | .bool   => .ok (const (.bool (t == "true")))
  | .string => .ok (const (.text (Escape.decode t)))
  | .nil    => .ok (const .nil)
  | .var =>
    match Variable.ofText? t with
    | some v => .ok (var v)
    | none   => .error .invalidVariable
  | .label => if Name.isName t then .ok (const (.label t)) else .error .invalidLabel
  | .type =>
    match TypeName.ofText? t with
    | some n => .ok (const (.type n))
    | none   => .error .invalidType

/-- Reads an argument written as the name of its kind and its text. -/
def parse (kind t : Text) : Except LiteralError Operand :=
  match ArgKind.ofText? kind with
  | some k => ofKind k t
  | none   => .error .unknownKind

end Operand

end IppCode
