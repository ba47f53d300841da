import IppCode.Machine.State
/-!
# Compute — what the operations make of values

Comparison, characters of a text, and codes of characters.  Equality is defined between
values of one type and with nil, the order between values of one ordered type; both
name the opcode in the fault they raise.
-/
namespace IppCode.Compute

/-- Nil equals nil only; two other values have to be of one type. -/
def equal (i : Instruction) (a b : Value) : Except Fault Bool :=
  if a.isNil || b.isNil then .ok (a.isNil && b.isNil)
  else if a.sameType b then .ok (a = b)
  else .error (i.typeFault a.typeName b)

/-- The order of two values of one type that has an order. -/
def order (i : Instruction) (a b : Value) : Except Fault Ordering :=
  if a.isNil then .error (i.typeFault "non-nil" a)
  else if b.isNil then .error (i.typeFault "non-nil" b)
  else match Value.order? a b with
    | some o => .ok o
    | none   => .error (i.typeFault a.typeName b)

/-- Division toward zero. -/
def quotient (a b : Int64) : Except Fault Int64 :=
  if b = 0 then .error .divisionByZero else .ok (a / b)

/-- The position that an index names, if the text has it. -/
def position (i : Instruction) (t : Text) (index : Int64) : Except Fault Nat :=
  if 0 ≤ index.toInt ∧ index.toInt < t.length then .ok index.toInt.toNat
  else .error (.outOfRange i.opcode index t.length)

def charAt (i : Instruction) (t : Text) (index : Int64) : Except Fault Char :=
  match position i t index with
  | .error fault => .error fault
  | .ok k        =>
    match t[k]? with
    | some c => .ok c
    | none   => .error (.outOfRange i.opcode index t.length)

/-- The text with another character at a position: the first one of `new`. -/
def setChar (i : Instruction) (t : Text) (index : Int64) (new : Text) : Except Fault Text :=
  match position i t index with
  | .error fault => .error fault
  | .ok k        =>
    match new with
    | []     => .error .emptyReplacement
    | c :: _ => .ok (t.set k c)

def charOf (code : Int64) : Except Fault Char :=
  if 0 ≤ code.toInt ∧ code.toInt.toNat.isValidChar then .ok (Char.ofNat code.toInt.toNat)
  else .error (.codePoint code)

def codeOf (c : Char) : Int64 := Int64.ofNat c.toNat

/-- The exit codes of programs are 0 to 9. -/
def exitCode (code : Int64) : Except Fault (Fin 10) :=
  if h : 0 ≤ code.toInt ∧ code.toInt < 10 then .ok ⟨code.toInt.toNat, by omega⟩
  else .error (.exitCode code)

end IppCode.Compute
