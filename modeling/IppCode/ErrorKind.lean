/-!
# ErrorKind — the classes of failure and their exit codes

Every error of the library belongs to one class, and the class fixes the exit code
of the process.  The codes 0 to 9 are left to programs.
-/
namespace IppCode

inductive ErrorKind
  /-- Bad use of the command line. -/
  | parameter
  /-- A source or input file that cannot be opened. -/
  | inputFile
  /-- Output that cannot be written. -/
  | outputFile
  /-- Source, records or markup that cannot be read at all. -/
  | sourceFormat
  /-- A malformed operation, argument, literal or frame selector. -/
  | sourceStructure
  /-- A label that is undefined or defined twice, a variable defined twice. -/
  | semantic
  /-- Operands of the wrong type. -/
  | operandType
  /-- An undeclared variable in a frame that exists. -/
  | variableAccess
  /-- A frame that does not exist. -/
  | frameAccess
  /-- An uninitialized variable, an empty call stack or data stack. -/
  | value
  /-- A value outside the domain of the operation. -/
  | operandValue
  /-- A position outside a string, or a code that is no character. -/
  | stringOperation
  /-- A failure of the machine itself. -/
  | internal
deriving DecidableEq

namespace ErrorKind

def all : List ErrorKind :=
  [parameter, inputFile, outputFile, sourceFormat, sourceStructure, semantic, operandType,
   variableAccess, frameAccess, value, operandValue, stringOperation, internal]

def exitCode : ErrorKind → Nat
  | parameter       => 10
  | inputFile       => 11
  | outputFile      => 12
  | sourceFormat    => 31
  | sourceStructure => 32
  | semantic        => 52
  | operandType     => 53
  | variableAccess  => 54
  | frameAccess     => 55
  | value           => 56
  | operandValue    => 57
  | stringOperation => 58
  | internal        => 99

theorem mem_all (k : ErrorKind) : k ∈ all := by cases k <;> decide

/-- No class takes a code that a program may exit with. -/
theorem nine_lt_exitCode (k : ErrorKind) : 9 < k.exitCode := by cases k <;> decide

end ErrorKind

end IppCode
