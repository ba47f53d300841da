import IppCode.ErrorKind
import IppCode.Opcode
import IppCode.Operand
import IppCode.Record
import IppCode.Sort
/-!
# Program — records bound to operations and operands

Binding looks up the operation of a record, counts its arguments, puts them in the
order of their slots, reads each one and checks that it is what the signature asks
for.  A program is bound from the first record to the last, so the first record at
fault names the error, and is then sorted by the order numbers.
-/
namespace IppCode

structure Instruction where
  opcode : Opcode
  order  : Int
  args   : List Operand
deriving DecidableEq

structure Program where
  instructions : List Instruction
deriving DecidableEq

inductive BindFault
  | unknownOpcode (name : Text)
  | argumentCount (opcode : Opcode) (found : Nat)
  | literal (why : LiteralError) (arg : Arg)
  | argumentKind (opcode : Opcode) (position : Nat) (expected : Slot) (found : Text)
deriving DecidableEq

/-- The order number of the record at fault, and what is wrong with it. -/
structure BindError where
  order : Int
  fault : BindFault
deriving DecidableEq

namespace BindFault

def message : BindFault → Text
  | unknownOpcode name => "unknown opcode '" ++ name ++ "'"
  | argumentCount opcode found =>
    opcode.mnemonic ++ " expects " ++ Numeral.ofNat opcode.signature.length ++
      " argument(s), found " ++ Numeral.ofNat found
  | literal .unknownKind arg     => "unknown argument type '" ++ arg.kind ++ "'"
  | literal .invalidInt arg      => "invalid int literal '" ++ arg.value ++ "'"
  | literal .invalidType arg     => "invalid type literal '" ++ arg.value ++ "'"
  | literal .invalidVariable arg => "invalid variable reference '" ++ arg.value ++ "'"
  | literal .invalidLabel arg    => "invalid label name '" ++ arg.value ++ "'"
  | argumentKind opcode position expected found =>
    opcode.mnemonic ++ " argument " ++ Numeral.ofNat position ++ " must be " ++
      expected.describe ++ ", found " ++ found

end BindFault

namespace BindError

def message (e : BindError) : Text :=
  "instruction " ++ Numeral.ofInt e.order ++ ": " ++ e.fault.message

def kind (_ : BindError) : ErrorKind := .sourceStructure

end BindError

namespace Slot

/-- The operand is what the slot asks for. -/
def fits : Slot → Operand → Bool
  | var,   .var _            => true
  | symb,  .var _            => true
  | symb,  .const (.int _)   => true
  | symb,  .const (.bool _)  => true
  | symb,  .const (.text _)  => true
  | symb,  .const .nil       => true
  | label, .const (.label _) => true
  | type,  .const (.type _)  => true
  | _,     _                 => false

end Slot

namespace Instruction

/-- Reads one argument for the slot at a position, counted from one. -/
def bindArg (opcode : Opcode) (position : Nat) (slot : Slot) (arg : Arg) :
    Except BindFault Operand :=
  match Operand.parse arg.kind arg.value with
  | .error why  => .error (.literal why arg)
  | .ok operand =>
    if slot.fits operand then .ok operand
    else .error (.argumentKind opcode position slot arg.kind)

/-- Reads the arguments from the position on, the first one at fault naming the error. -/
def bindArgs (opcode : Opcode) : Nat → List Slot → List Arg → Except BindFault (List Operand)
  | position, slot :: slots, arg :: args =>
    match bindArg opcode position slot arg with
    | .error fault => .error fault
    | .ok operand  =>
      match bindArgs opcode (position + 1) slots args with
      | .error fault => .error fault
      | .ok operands => .ok (operand :: operands)
  | _, _, _ => .ok []

/-- Operation, argument count, then the arguments in the order of their slots. -/
def bind (r : Record) : Except BindFault Instruction :=
  match Opcode.ofText? r.opcode with
  | none        => .error (.unknownOpcode r.opcode)
  | some opcode =>
    if r.args.length ≠ opcode.signature.length then
      .error (.argumentCount opcode r.args.length)
    else
      match bindArgs opcode 1 opcode.signature (Sort.ascending Arg.slot r.args) with
      | .error fault => .error fault
      | .ok operands => .ok ⟨opcode, r.order, operands⟩

def ofRecord (r : Record) : Except BindError Instruction :=
  match bind r with
  | .error fault => .error ⟨r.order, fault⟩
  | .ok i        => .ok i

end Instruction

namespace Program

/-- The instructions in ascending order of their numbers. -/
def ofInstructions (is : List Instruction) : Program := ⟨Sort.ascending Instruction.order is⟩

def bindAll : List Record → Except BindError (List Instruction)
  | []      => .ok []
  | r :: rs =>
    match Instruction.ofRecord r with
    | .error e => .error e
    | .ok i    =>
      match bindAll rs with
      | .error e => .error e
      | .ok is   => .ok (i :: is)

def ofRecords (rs : List Record) : Except BindError Program :=
  match bindAll rs with
  | .error e => .error e
  | .ok is   => .ok (ofInstructions is)

end Program

end IppCode
