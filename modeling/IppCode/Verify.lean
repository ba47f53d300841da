import IppCode.ErrorKind
import IppCode.Numeral
import IppCode.Opcode
import IppCode.Record
import IppCode.Sort
import IppCode.Unicode.WhiteSpace
/-!
# Verify — what is wrong with the records of a program, taken together

Before records are bound, everything that concerns their shape is reported: blank
operations and the order numbers, record by record; then the slots of the arguments;
then the labels, in the order in which the program will have them.
-/
namespace IppCode

inductive VerifyFault
  | emptyOpcode
  | nonPositiveOrder
  | duplicateOrder (first : Nat)
  | slotOutOfRange (slot : Int)
  | duplicateSlot (slot : Int)
  | missingSlot (slot : Int)
  | duplicateLabel (label : Text)
deriving DecidableEq

/-- The position of the record at fault, from zero, its order number, and what is wrong. -/
structure VerifyError where
  position : Nat
  order    : Int
  fault    : VerifyFault
deriving DecidableEq

namespace VerifyError

def message (e : VerifyError) : Text :=
  let record := "record " ++ Numeral.ofNat e.position
  let order := "order " ++ Numeral.ofInt e.order
  let place := " in " ++ record ++ " (" ++ order ++ ")"
  match e.fault with
  | .emptyOpcode          => "empty opcode" ++ place
  | .nonPositiveOrder     => order ++ " in " ++ record ++ " is not positive"
  | .duplicateOrder first =>
    order ++ " in " ++ record ++ " already used by record " ++ Numeral.ofNat first
  | .slotOutOfRange slot  =>
    "argument slot " ++ Numeral.ofInt slot ++ " out of range 1..=3" ++ place
  | .duplicateSlot slot   => "argument slot " ++ Numeral.ofInt slot ++ " used twice" ++ place
  | .missingSlot slot     => "argument slot " ++ Numeral.ofInt slot ++ " missing" ++ place
  | .duplicateLabel label =>
    "label '" ++ label ++ "' defined twice (" ++ record ++ ", " ++ order ++ ")"

def kind (e : VerifyError) : ErrorKind :=
  match e.fault with
  | .duplicateLabel _ => .semantic
  | _                 => .sourceStructure

end VerifyError

namespace Verify

/-! ## Operations and order numbers -/

def isBlank (t : Text) : Bool := t.all Unicode.isWhiteSpace

/-- The records from a position on; `seen` holds where each positive order number was
used first. -/
def recordErrors (seen : List (Int × Nat)) : Nat → List Record → List VerifyError
  | _, []      => []
  | k, r :: rs =>
    (if isBlank r.opcode then [⟨k, r.order, .emptyOpcode⟩] else []) ++
      if r.order < 1 then ⟨k, r.order, .nonPositiveOrder⟩ :: recordErrors seen (k + 1) rs
      else match seen.lookup r.order with
        | some first =>
          ⟨k, r.order, .duplicateOrder first⟩ :: recordErrors seen (k + 1) rs
        | none       => recordErrors ((r.order, k) :: seen) (k + 1) rs

/-! ## Slots -/

def inRange (slot : Int) : Bool := 1 ≤ slot && slot ≤ 3

/-- The slots, one after another; `used` holds those in range that came before. -/
def slotFaults (used : List Int) : List Int → List VerifyFault
  | []      => []
  | s :: ss =>
    if !inRange s then .slotOutOfRange s :: slotFaults used ss
    else if used.contains s then .duplicateSlot s :: slotFaults (s :: used) ss
    else slotFaults (s :: used) ss

/-- The unused slots below the highest one, unless some slot is out of range. -/
def missingFaults (slots : List Int) : List VerifyFault :=
  if slots.all inRange then
    ([1, 2, 3].filter fun s => !slots.contains s && slots.any (s < ·)).map .missingSlot
  else []

def argumentErrors : Nat → List Record → List VerifyError
  | _, []      => []
  | k, r :: rs =>
    let slots := r.args.map Arg.slot
    (slotFaults [] slots ++ missingFaults slots).map (⟨k, r.order, ·⟩) ++
      argumentErrors (k + 1) rs

/-! ## Labels -/

def definedLabel? (r : Record) : Option Text :=
  if Opcode.ofText? r.opcode = some .label then
    (r.args.find? fun a => a.slot = 1).map Arg.value
  else none

/-- The records with their positions, from the first of them on; `defined` holds the
labels of the records before. -/
def repeatedLabels (defined : List Text) : List (Record × Nat) → List VerifyError
  | []           => []
  | (r, k) :: rs =>
    match definedLabel? r with
    | none       => repeatedLabels defined rs
    | some label =>
      if defined.contains label then
        ⟨k, r.order, .duplicateLabel label⟩ :: repeatedLabels defined rs
      else repeatedLabels (label :: defined) rs

def labelErrors (rs : List Record) : List VerifyError :=
  repeatedLabels [] (Sort.ascending (fun p => p.1.order) rs.zipIdx)

end Verify

/-- Everything that is wrong with the records; nothing if they pass. -/
def verify (rs : List Record) : List VerifyError :=
  Verify.recordErrors [] 0 rs ++ Verify.argumentErrors 0 rs ++ Verify.labelErrors rs

end IppCode
