import IppCode.Text
/-!
# Opcode — the operations and the arguments they take

A mnemonic is read in either case of its letters and written in capitals.  The
signature of an operation lists, slot by slot, what its arguments have to be.
-/
namespace IppCode

inductive Slot
  | var
  | symb
  | label
  | type
deriving DecidableEq

namespace Slot

def describe : Slot → Text
  | var   => "a variable"
  | symb  => "a variable or constant"
  | label => "a label"
  | type  => "a type"

end Slot

inductive Opcode
  | move | createFrame | pushFrame | popFrame | defVar | call | ret
  | pushs | pops
  | add | sub | mul | idiv
  | lt | gt | eq | and | or | not
  | int2char | stri2int
  | read | write
  | concat | strlen | getchar | setchar
  | type
  | label | jump | jumpIfEq | jumpIfNeq | exit
  | dprint | brk
deriving DecidableEq

namespace Opcode

def all : List Opcode :=
  [move, createFrame, pushFrame, popFrame, defVar, call, ret, pushs, pops, add, sub, mul, idiv,
   lt, gt, eq, and, or, not, int2char, stri2int, read, write, concat, strlen, getchar, setchar, type,
   label, jump, jumpIfEq, jumpIfNeq, exit, dprint, brk]

def mnemonic : Opcode → Text
  | move        => "MOVE"
  | createFrame => "CREATEFRAME"
  | pushFrame   => "PUSHFRAME"
  | popFrame    => "POPFRAME"
  | defVar      => "DEFVAR"
  | call        => "CALL"
  | ret         => "RETURN"
  | pushs       => "PUSHS"
  | pops        => "POPS"
  | add         => "ADD"
  | sub         => "SUB"
  | mul         => "MUL"
  | idiv        => "IDIV"
  | lt          => "LT"
  | gt          => "GT"
  | eq          => "EQ"
  | and         => "AND"
  | or          => "OR"
  | not         => "NOT"
  | int2char    => "INT2CHAR"
  | stri2int    => "STRI2INT"
  | read        => "READ"
  | write       => "WRITE"
  | concat      => "CONCAT"
  | strlen      => "STRLEN"
  | getchar     => "GETCHAR"
  | setchar     => "SETCHAR"
  | type        => "TYPE"
  | label       => "LABEL"
  | jump        => "JUMP"
  | jumpIfEq    => "JUMPIFEQ"
  | jumpIfNeq   => "JUMPIFNEQ"
  | exit        => "EXIT"
  | dprint      => "DPRINT"
  | brk         => "BREAK"

def ofText? (t : Text) : Option Opcode := all.find? fun op => Text.sameLetters op.mnemonic t

def signature : Opcode → List Slot
  | createFrame | pushFrame | popFrame | ret | brk => []
  | defVar | pops                                  => [.var]
  | call | label | jump                            => [.label]
  | pushs | write | exit | dprint                  => [.symb]
  | move | not | int2char | strlen | type          => [.var, .symb]
  | read                                           => [.var, .type]
  | add | sub | mul | idiv | lt | gt | eq | and | or
  | stri2int | concat | getchar | setchar          => [.var, .symb, .symb]
  | jumpIfEq | jumpIfNeq                           => [.label, .symb, .symb]

/-- The operations after which another instruction than the next one may run. -/
def transfersControl : Opcode → Bool
  | call | ret | jump | jumpIfEq | jumpIfNeq => true
  | _                                        => false

theorem mem_all (op : Opcode) : op ∈ all := by cases op <;> decide

end Opcode

end IppCode
