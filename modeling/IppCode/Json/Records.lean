import IppCode.Json.Value
import IppCode.Record
/-!
# Records — the JSON form of a program

A program is an object with the member `instructions`, an array of records; a record
has the members `order`, `opcode` and `args`, an argument `slot`, `type` and `value`.
`args` and `value` may be missing, other members are ignored, and every one of the
three may be an array of its parts instead.

Which members there are is the program's part of reading JSON; how a record is found among
them, and how it is laid out when it is written, is derived by the library from that.
-/
namespace IppCode.Json

def arg? (v : Json) : Option Arg :=
  match fields? ["slot", "type", "value"] v with
  | some [some slot, some kind, value] => do
    let slot ← slot.word?
    let kind ← kind.text?
    let value ← match value with
      | some value => value.text?
      | none       => some []
    return ⟨slot, kind, value⟩
  | _ => none

def args? (v : Json) : Option (List Arg) := do (← v.items?).mapM arg?

def record? (v : Json) : Option Record :=
  match fields? ["order", "opcode", "args"] v with
  | some [some order, some opcode, args] => do
    let order ← order.word?
    let opcode ← opcode.text?
    let args ← match args with
      | some args => args? args
      | none      => some []
    return ⟨order, opcode, args⟩
  | _ => none

def records? (v : Json) : Option (List Record) :=
  match fields? ["instructions"] v with
  | some [some records] => do (← records.items?).mapM record?
  | _                   => none

def readRecords (t : Text) : Option (List Record) := (parse t).bind records?

/-! ## Writing -/

def named (name : Text) (v : Json) : Units × Json := (Units.ofText name, v)

def ofArg (a : Arg) : Json :=
  object [named "slot" (ofInt a.slot), named "type" (ofText a.kind), named "value" (ofText a.value)]

def ofRecord (r : Record) : Json :=
  object [named "order" (ofInt r.order), named "opcode" (ofText r.opcode),
    named "args" (array (r.args.map ofArg))]

def ofRecords (rs : List Record) : Json := object [named "instructions" (array (rs.map ofRecord))]

def writeRecords (rs : List Record) : Text := pretty (ofRecords rs)

end IppCode.Json
