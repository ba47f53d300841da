import IppCode.ErrorKind
import IppCode.Opcode
import IppCode.Operand
import IppCode.Record
import IppCode.Source.Line
/-!
# Assemble — source text to records

A source text is an optional header followed by one instruction a line.  Each
instruction becomes a record numbered from one, its arguments in the slots 1, 2, 3;
every argument is checked against its slot.  The first line at fault names the error,
by its number in the whole text.
-/
namespace IppCode

inductive SourceFault
  | header (words : List Text)
  | unknownOpcode (token : Text)
  | argumentCount (opcode : Opcode) (found : Nat)
  | argument (token : Text) (expected : Slot)
deriving DecidableEq

/-- The number of the line at fault, from one, and what is wrong with it. -/
structure SourceError where
  line  : Nat
  fault : SourceFault
deriving DecidableEq

namespace SourceFault

def message : SourceFault → Text
  | header words        => "invalid header '" ++ List.intercalate " " words ++ "'"
  | unknownOpcode token => "unknown opcode '" ++ token ++ "'"
  | argumentCount opcode found =>
    opcode.mnemonic ++ " expects " ++ Numeral.ofNat opcode.signature.length ++
      " argument(s), found " ++ Numeral.ofNat found
  | argument token expected =>
    "invalid argument '" ++ token ++ "', expected " ++ expected.describe

def kind : SourceFault → ErrorKind
  | unknownOpcode _ => .sourceStructure
  | _               => .sourceFormat

end SourceFault

namespace SourceError

def message (e : SourceError) : Text :=
  "line " ++ Numeral.ofNat e.line ++ ": " ++ e.fault.message

def kind (e : SourceError) : ErrorKind := e.fault.kind

end SourceError

namespace Source

/-- A constant is a kind, the first `@`, and a text of that kind: nil only as `nil`,
a boolean only as `true` or `false`, a string with an escape at every backslash. -/
def constant? (token : Text) : Option (ArgKind × Text) :=
  match Text.cutAt '@' token with
  | none            => none
  | some (kind, value) =>
    match ArgKind.ofText? kind with
    | some .int    => if (IntLiteral.parse value).isSome then some (.int, value) else none
    | some .bool   => if value == "true" || value == "false" then some (.bool, value) else none
    | some .nil    => if value == "nil" then some (.nil, value) else none
    | some .string => if Escape.wellFormed value then some (.string, value) else none
    | _            => none

def reference? (token : Text) : Option (ArgKind × Text) :=
  if (Variable.ofText? token).isSome then some (.var, token) else none

/-- The kind and text that a token stands for in a slot. -/
def argument? (slot : Slot) (token : Text) : Option (ArgKind × Text) :=
  match slot with
  | .var   => reference? token
  | .symb  => (reference? token).or (constant? token)
  | .label => if Name.isName token then some (.label, token) else none
  | .type  => if (TypeName.ofText? token).isSome then some (.type, token) else none

def arguments : Nat → List Slot → List Text → Except SourceFault (List Arg)
  | k, slot :: slots, token :: tokens =>
    match argument? slot token with
    | none               => .error (.argument token slot)
    | some (kind, value) =>
      match arguments (k + 1) slots tokens with
      | .error fault => .error fault
      | .ok args     => .ok (⟨k, kind.text, value⟩ :: args)
  | _, _, _ => .ok []

def instruction (order : Nat) (operation : Text) (tokens : List Text) :
    Except SourceFault Record :=
  match Opcode.ofText? operation with
  | none        => .error (.unknownOpcode operation)
  | some opcode =>
    if tokens.length ≠ opcode.signature.length then
      .error (.argumentCount opcode tokens.length)
    else
      match arguments 1 opcode.signature tokens with
      | .error fault => .error fault
      | .ok args     => .ok ⟨order, opcode.mnemonic, args⟩

/-- Assembles lines: the number of the next line, whether a line that is not blank has
been read, and the order number of the next instruction. -/
def assembleLines : Nat → Bool → Nat → List Text → Except SourceError (List Record)
  | _, _, _, [] => .ok []
  | line, started, order, t :: ts =>
    match Line.read t with
    | .blank        => assembleLines (line + 1) started order ts
    | .header words =>
      if started || !isHeader words then .error ⟨line, .header words⟩
      else assembleLines (line + 1) true order ts
    | .instruction operation tokens =>
      match instruction order operation tokens with
      | .error fault => .error ⟨line, fault⟩
      | .ok record   =>
        match assembleLines (line + 1) true (order + 1) ts with
        | .error e    => .error e
        | .ok records => .ok (record :: records)

def assemble (t : Text) : Except SourceError (List Record) :=
  assembleLines 1 false 1 (Text.lines t)

end Source

end IppCode
