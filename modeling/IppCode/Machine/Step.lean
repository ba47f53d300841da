import IppCode.Machine.Action
import IppCode.Machine.Compute
import IppCode.Machine.Labels
/-!
# Step — running one instruction

A machine is a program with its label map, possibly a limit on the number of
instructions, and the sink for its output.  Performing an instruction is an action that
comes to where the run goes on; a variable that it assigns is looked for before anything
else is.
-/
namespace IppCode

structure Machine where
  code   : Array Instruction
  labels : Labels
  limit  : Option Nat
  sink   : Sink

inductive Outcome
  /-- There was no further instruction. -/
  | completed
  /-- The program ended itself. -/
  | exited (code : Fin 10)
deriving DecidableEq

namespace Outcome

def exitCode : Outcome → Nat
  | completed   => 0
  | exited code => code

end Outcome

inductive Status
  | running
  | ended (how : Outcome)
  | failed (why : RuntimeError)
deriving DecidableEq

inductive Flow
  | next
  | jump (target : Nat)
  | exit (code : Fin 10)
deriving DecidableEq

namespace State

/-- The variable that is the first operand, which has to be there. -/
def destination (s : State) (i : Instruction) : Except Fault Variable := do
  let v ← i.var 0
  let _ ← s.lookup v
  return v

def equalOperands (s : State) (i : Instruction) : Except Fault Bool := do
  let a ← s.value i 1
  let b ← s.value i 2
  Compute.equal i a b

def replaced (s : State) (i : Instruction) : Except Fault Value := do
  let t ← s.text i 0
  let index ← s.int i 1
  let new ← s.text i 2
  return .text (← Compute.setChar i t index new)

/-- The name of the type of an operand, empty if it has no value. -/
def typeOf (s : State) (i : Instruction) : Except Fault Value := do
  match ← s.value? (← i.operand 1) with
  | some value => return .text value.typeName
  | none       => return .text []

/-- The text that `DPRINT` shows, empty if the operand has no value. -/
def shown (s : State) (i : Instruction) : Except Fault Text := do
  match ← s.value? (← i.operand 0) with
  | some value => return value.shown
  | none       => return []

def summary (s : State) (i : Instruction) : Text :=
  "BREAK at instruction " ++ Numeral.ofNat s.ip ++ " (order " ++ Numeral.ofInt i.order ++ "): " ++
    Numeral.ofNat s.steps ++ " executed, " ++ Numeral.ofNat s.frames.global.size ++
    " global variable(s), " ++ Numeral.ofNat s.frames.locals.length ++
    " local frame(s), temporary frame " ++
    (if s.frames.temporary.isSome then "present" else "absent") ++
    ", data stack " ++ Numeral.ofNat s.data.length ++ ", call stack " ++
    Numeral.ofNat s.calls.length

end State

namespace Action

def proceed (a : Action Unit) : Action Flow := do
  a
  return .next

/-- Stores a value in the variable that is the first operand.  The variable has to be
there before the value is looked at. -/
def store (i : Instruction) (value : State → Except Fault Value) : Action Flow := do
  let v ← look fun s => s.destination i
  let value ← look value
  proceed (change (.assign v value))

def arithmetic (i : Instruction) (op : Int64 → Int64 → Except Fault Int64) : Action Flow :=
  store i fun s => do
    let a ← s.int i 1
    let b ← s.int i 2
    return .int (← op a b)

/-- Whether the first value stands in the given order to the second. -/
def relation (i : Instruction) (wanted : Ordering) : Action Flow :=
  store i fun s => do
    let a ← s.value i 1
    let b ← s.value i 2
    return .bool ((← Compute.order i a b) == wanted)

def logic (i : Instruction) (op : Bool → Bool → Bool) : Action Flow :=
  store i fun s => do
    let a ← s.bool i 1
    let b ← s.bool i 2
    return .bool (op a b)

def popTo (i : Instruction) : Action Flow := do
  let v ← look fun s => s.destination i
  let value ← popData
  proceed (change (.assign v value))

def readTo (i : Instruction) : Action Flow := do
  let v ← look fun s => s.destination i
  let n ← look fun _ => i.typeName 1
  let value ← takeValue n
  proceed (change (.assign v value))

end Action

namespace Machine

def load (p : Program) (limit : Option Nat) (sink : Sink) : Except RuntimeError Machine :=
  match Labels.ofProgram p with
  | .ok labels => .ok ⟨p.instructions.toArray, labels, limit, sink⟩
  | .error e   => .error e

/-- The position of a label that has to be defined. -/
def target (m : Machine) (name : Text) : Except Fault Nat :=
  match m.labels.target? name with
  | some k => .ok k
  | none   => .error (.undefinedLabel name)

def destination (m : Machine) (i : Instruction) : Except Fault Nat := do
  m.target (← i.label 0)

/-- Jumps if the comparison of the operands comes out as wanted; only then does the
label have to be defined. -/
def branch (m : Machine) (i : Instruction) (wanted : Bool) (s : State) : Except Fault Flow := do
  let name ← i.label 0
  let equal ← s.equalOperands i
  if equal = wanted then return .jump (← m.target name) else return .next

open IppCode.Action in
/-- What an instruction does, and where the run goes on. -/
def perform (m : Machine) (i : Instruction) : Action Flow :=
  match i.opcode with
  | .move        => store i fun s => s.value i 1
  | .createFrame => proceed (change (modify Frames.create))
  | .pushFrame   => proceed (change .push)
  | .popFrame    => proceed (change .pop)
  | .defVar      => do
    let v ← look fun _ => i.var 0
    proceed (change (.declare v))
  | .call        => do
    let target ← look fun _ => m.destination i
    pushCall
    return .jump target
  | .ret         => return .jump (← popCall)
  | .pushs       => do
    let value ← look fun s => s.value i 0
    proceed (pushData value)
  | .pops        => popTo i
  | .add         => arithmetic i fun a b => .ok (a + b)
  | .sub         => arithmetic i fun a b => .ok (a - b)
  | .mul         => arithmetic i fun a b => .ok (a * b)
  | .idiv        => arithmetic i Compute.quotient
  | .lt          => relation i .lt
  | .gt          => relation i .gt
  | .eq          => store i fun s => do return .bool (← s.equalOperands i)
  | .and         => logic i (· && ·)
  | .or          => logic i (· || ·)
  | .not         => store i fun s => do return .bool (!(← s.bool i 1))
  | .int2char    => store i fun s => do return .text [← Compute.charOf (← s.int i 1)]
  | .stri2int    => store i fun s => do
    let t ← s.text i 1
    let index ← s.int i 2
    return .int (Compute.codeOf (← Compute.charAt i t index))
  | .read        => readTo i
  | .write       => do
    let value ← look fun s => s.value i 0
    proceed (send m.sink (.output value))
  | .concat      => store i fun s => do
    let a ← s.text i 1
    let b ← s.text i 2
    return .text (a ++ b)
  | .strlen      => store i fun s => do return .int (Int64.ofNat (← s.text i 1).length)
  | .getchar     => store i fun s => do
    let t ← s.text i 1
    let index ← s.int i 2
    return .text [← Compute.charAt i t index]
  | .setchar     => store i fun s => s.replaced i
  | .type        => store i fun s => s.typeOf i
  | .label       => return .next
  | .jump        => return .jump (← look fun _ => m.destination i)
  | .jumpIfEq    => look (m.branch i true)
  | .jumpIfNeq   => look (m.branch i false)
  | .exit        => return .exit (← look fun s => do Compute.exitCode (← s.int i 0))
  | .dprint      => do
    let t ← look fun s => s.shown i
    proceed (send m.sink (.diagnostic t))
  | .brk         => do
    let t ← look fun s => .ok (s.summary i)
    proceed (send m.sink (.diagnostic t))

/-- The limit, if as many instructions have been started. -/
def exhausted? (m : Machine) (s : State) : Option Nat := m.limit.filter fun n => n ≤ s.steps

/-- Goes where an instruction sends the run. -/
def follow (s : State) : Flow → State × Status
  | .next        => ({ s with ip := s.ip + 1 }, .running)
  | .jump target => ({ s with ip := target }, .running)
  | .exit code   => (s, .ended (.exited code))

/-- Runs one instruction.  Past the last one the run is complete, whatever the limit;
an instruction that is started counts, also if it fails. -/
def step (m : Machine) (s : State) : State × Status :=
  match m.code[s.ip]? with
  | none   => (s, .ended .completed)
  | some i =>
    match m.exhausted? s with
    | some limit => (s, .failed ⟨s.ip, .stepLimit limit⟩)
    | none       =>
      match m.perform i { s with steps := s.steps + 1 } with
      | .ok flow s'     => follow s' flow
      | .error fault s' => (s', .failed ⟨s'.ip, fault⟩)

/-- Runs until the program ends or fails, at most the given number of steps. -/
def run (m : Machine) : Nat → State → State × Status
  | 0,     s => (s, .running)
  | n + 1, s =>
    match m.step s with
    | (s', .running) => run m n s'
    | done           => done

end Machine

end IppCode
