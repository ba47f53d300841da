import IppCode.Program
import IppCode.Source.Line
/-!
# Disassemble — a program in its canonical source form

The header, then one line an instruction: the mnemonic in capitals and the operands,
each after one space.  Numbers are decimal and strings escaped, so every operand is
one token.
-/
namespace IppCode.Source

def operandText : Operand → Text
  | .var v               => v.text
  | .const (.int n)      => "int@" ++ Numeral.ofInt n.toInt
  | .const (.bool b)     => "bool@" ++ Value.boolText b
  | .const (.text t)     => "string@" ++ Escape.encode t
  | .const .nil          => "nil@nil"
  | .const (.label name) => name
  | .const (.type n)     => n.text

def instructionText (i : Instruction) : Text :=
  i.opcode.mnemonic ++ i.args.flatMap fun a => ' ' :: operandText a

def disassemble (p : Program) : Text :=
  header ++ '\n' :: p.instructions.flatMap fun i => instructionText i ++ ['\n']

end IppCode.Source
