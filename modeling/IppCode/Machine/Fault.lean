import IppCode.Machine.Frame
import IppCode.Opcode
/-!
# Fault — why a run ends without completing

A fault says what went wrong, an error also at which instruction, counted from zero in
the order in which the program runs.
-/
namespace IppCode

inductive Fault
  | duplicateLabel (label : Text)
  | undefinedLabel (label : Text)
  | frame (why : FrameError)
  | uninitialized (v : Variable)
  | emptyCallStack
  | emptyDataStack
  | operandType (opcode : Opcode) (expected found : Text)
  | divisionByZero
  | exitCode (code : Int64)
  | codePoint (code : Int64)
  | outOfRange (opcode : Opcode) (index : Int64) (length : Nat)
  | emptyReplacement
  | output (why : Text)
  | stepLimit (limit : Nat)
  | malformedOperand (index : Nat) (opcode : Opcode)
deriving DecidableEq

structure RuntimeError where
  position : Nat
  fault    : Fault
deriving DecidableEq

namespace Fault

def kind : Fault → ErrorKind
  | duplicateLabel _ | undefinedLabel _                  => .semantic
  | frame why                                            => why.kind
  | uninitialized _ | emptyCallStack | emptyDataStack    => .value
  | operandType _ _ _                                    => .operandType
  | divisionByZero | exitCode _                          => .operandValue
  | codePoint _ | outOfRange _ _ _ | emptyReplacement    => .stringOperation
  | output _                                             => .outputFile
  | stepLimit _                                          => .internal
  | malformedOperand _ _                                 => .sourceStructure

end Fault

namespace RuntimeError

def kind (e : RuntimeError) : ErrorKind := e.fault.kind

def message (e : RuntimeError) : Text :=
  let place := " at instruction " ++ Numeral.ofNat e.position
  match e.fault with
  | .duplicateLabel label =>
    "label '" ++ label ++ "' defined twice (second definition" ++ place ++ ")"
  | .undefinedLabel label => "undefined label '" ++ label ++ "'" ++ place
  | .frame why            => why.message ++ place
  | .uninitialized v      => "read of uninitialized variable " ++ v.text ++ place
  | .emptyCallStack       => "RETURN with empty call stack" ++ place
  | .emptyDataStack       => "POPS with empty data stack" ++ place
  | .operandType opcode expected found =>
    opcode.mnemonic ++ " expects " ++ expected ++ " operand, found " ++ found ++ place
  | .divisionByZero       => "division by zero" ++ place
  | .exitCode code        =>
    "exit code " ++ Numeral.ofInt code.toInt ++ " out of range 0..=9" ++ place
  | .codePoint code       =>
    Numeral.ofInt code.toInt ++ " is not a valid code point" ++ place
  | .outOfRange opcode index length =>
    opcode.mnemonic ++ " index " ++ Numeral.ofInt index.toInt ++ " out of range (length " ++
      Numeral.ofNat length ++ ")" ++ place
  | .emptyReplacement     => "SETCHAR with empty replacement string" ++ place
  | .output why           => "output failed" ++ place ++ ": " ++ why
  | .stepLimit limit      => "step limit " ++ Numeral.ofNat limit ++ " exceeded" ++ place
  | .malformedOperand index opcode =>
    "malformed operand " ++ Numeral.ofNat index ++ " for " ++ opcode.mnemonic ++ place

end RuntimeError

end IppCode
