import IppCode.Machine.Fault
import IppCode.Machine.Frames
import IppCode.Machine.Input
import IppCode.Machine.Sink
import IppCode.Program
/-!
# State — what changes while a program runs

The state holds everything that an instruction can read or change.  The accessors below
look at it for one operand of an instruction, and name the fault if the operand is not
there, is not initialized, or has another type than the operation needs.
-/
namespace IppCode

structure State where
  /-- The position of the instruction that runs next. -/
  ip     : Nat
  /-- How many instructions have been started. -/
  steps  : Nat
  frames : Frames
  /-- The positions to return to. -/
  calls  : Stack Nat
  data   : Stack Value
  input  : Input
  log    : Log

namespace Instruction

/-- The variable at a position of the operands. -/
def var (i : Instruction) (k : Nat) : Except Fault Variable :=
  match i.args[k]? with
  | some (.var v) => .ok v
  | _             => .error (.malformedOperand k i.opcode)

/-- The operand at a position. -/
def operand (i : Instruction) (k : Nat) : Except Fault Operand :=
  match i.args[k]? with
  | some o => .ok o
  | none   => .error (.malformedOperand k i.opcode)

def label (i : Instruction) (k : Nat) : Except Fault Text :=
  match i.args[k]? with
  | some (.const (.label name)) => .ok name
  | _                           => .error (.malformedOperand k i.opcode)

def typeName (i : Instruction) (k : Nat) : Except Fault TypeName :=
  match i.args[k]? with
  | some (.const (.type n)) => .ok n
  | _                       => .error (.malformedOperand k i.opcode)

def typeFault (i : Instruction) (expected : Text) (found : Value) : Fault :=
  .operandType i.opcode expected found.typeName

end Instruction

namespace State

def start (input : Input) : State := ⟨0, 0, .empty, [], [], input, []⟩

/-- The value of a variable, if it has one. -/
def lookup (s : State) (v : Variable) : Except Fault (Option Value) :=
  match s.frames.lookup v with
  | .ok value  => .ok value
  | .error why => .error (.frame why)

def value? (s : State) : Operand → Except Fault (Option Value)
  | .const value => .ok (some value)
  | .var v       => s.lookup v

/-- The value of an operand, which has to have one. -/
def valueOf (s : State) (o : Operand) : Except Fault Value :=
  match o with
  | .const value => .ok value
  | .var v       =>
    match s.lookup v with
    | .error fault       => .error fault
    | .ok (some value)   => .ok value
    | .ok none           => .error (.uninitialized v)

def value (s : State) (i : Instruction) (k : Nat) : Except Fault Value := do
  s.valueOf (← i.operand k)

def int (s : State) (i : Instruction) (k : Nat) : Except Fault Int64 := do
  match ← s.value i k with
  | .int n => return n
  | other  => throw (i.typeFault "int" other)

def bool (s : State) (i : Instruction) (k : Nat) : Except Fault Bool := do
  match ← s.value i k with
  | .bool b => return b
  | other   => throw (i.typeFault "bool" other)

def text (s : State) (i : Instruction) (k : Nat) : Except Fault Text := do
  match ← s.value i k with
  | .text t => return t
  | other   => throw (i.typeFault "string" other)

end State

end IppCode
