import IppCode.Machine.Fault
import IppCode.Program
/-!
# Labels — where jumps and calls go

The label map is built once, before the program runs; no label may be defined twice.
-/
namespace IppCode

/-- The labels with the positions of the instructions that define them. -/
abbrev Labels := List (Text × Nat)

namespace Labels

/-- Adds the labels of the instructions from a position on. -/
def collect (known : Labels) : Nat → List Instruction → Except RuntimeError Labels
  | _, []      => .ok known
  | k, i :: is =>
    if i.opcode = .label then
      match i.args with
      | .const (.label name) :: _ =>
        if (known.lookup name).isSome then .error ⟨k, .duplicateLabel name⟩
        else collect ((name, k) :: known) (k + 1) is
      | _ => .error ⟨k, .malformedOperand 0 .label⟩
    else collect known (k + 1) is

def ofProgram (p : Program) : Except RuntimeError Labels := collect [] 0 p.instructions

def target? (ls : Labels) (name : Text) : Option Nat := ls.lookup name

end Labels

end IppCode
