import IppCode.ErrorKind
import IppCode.Record
import IppCode.Unicode.WhiteSpace
import IppCode.Xml.Element
/-!
# Records — the XML form of a program

A `program` in the language IPPcode24 holds an `instruction` for each record, with its
order number and operation as attributes, and that an `arg1`, `arg2` or `arg3` for each
argument, with its kind as an attribute and its text inside.  No other elements are
allowed; the first one at fault, in the order of the document, names the error.

This is the program's own part of reading a document: all before it is the library's.
-/
namespace IppCode.Xml

inductive StructureFault
  | root (found : Text)
  | element (name parent : Text)
  | order (written : Text)
deriving DecidableEq

namespace StructureFault

def message : StructureFault → Text
  | root found =>
    "root element must be <program language=\"IPPcode24\">, found <" ++ found ++ ">"
  | element name parent => "unexpected element <" ++ name ++ "> inside <" ++ parent ++ ">"
  | order written       => "<instruction> has invalid order attribute '" ++ written ++ "'"

def kind (_ : StructureFault) : ErrorKind := .sourceStructure

end StructureFault

/-- What is trimmed from both ends of an argument's text. -/
def isMargin (c : Char) : Bool :=
  c = ' ' || c = '\t' || c = '\n' || c = '\r' || c = '\x00' || c = '\x0b'

def slot? (name : Text) : Option Int :=
  if name = "arg1" then some 1
  else if name = "arg2" then some 2
  else if name = "arg3" then some 3
  else none

def arg (e : Element) : Except StructureFault Arg :=
  match slot? e.name with
  | none      => .error (.element e.name "instruction")
  | some slot =>
    match e.elements with
    | child :: _ => .error (.element child.name e.name)
    | []         => .ok ⟨slot, (e.attribute? "type").getD [], Text.trim isMargin e.text⟩

def readAll {α : Type} (read : Element → Except StructureFault α) :
    List Element → Except StructureFault (List α)
  | []      => .ok []
  | e :: es =>
    match read e with
    | .error fault => .error fault
    | .ok a        =>
      match readAll read es with
      | .error fault => .error fault
      | .ok as       => .ok (a :: as)

/-- The order number, without the blanks around it. -/
def order? (written : Text) : Option Int :=
  Numeral.signedWord? (Text.trim Unicode.isWhiteSpace written)

def record (e : Element) : Except StructureFault Record :=
  if e.name = "instruction" then
    let written := (e.attribute? "order").getD []
    match order? written with
    | none       => .error (.order written)
    | some order =>
      match readAll arg e.elements with
      | .error fault => .error fault
      | .ok args     => .ok ⟨order, (e.attribute? "opcode").getD [], args⟩
  else .error (.element e.name "program")

def language : Text := "IPPcode24"

def isProgram (e : Element) : Bool :=
  e.name = "program" &&
    (match e.attribute? "language" with
      | some l => Text.sameLetters l language
      | none   => false)

def records (root : Element) : Except StructureFault (List Record) :=
  if isProgram root then readAll record root.elements else .error (.root root.name)

end IppCode.Xml
