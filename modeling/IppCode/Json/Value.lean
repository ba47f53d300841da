import IppCode.Json.Token
/-!
# Value — JSON values, read from tokens and written with indentation

The reader keeps the arrays and objects that are still open, innermost first, so its
depth is not limited.  Numbers keep the text they were written with and objects the
order, and the repetitions, of their members.

Here the library's part of JSON ends: what the program itself asks of a value, that it has the
shape of records, is in `Records`.
-/
namespace IppCode

inductive Json
  | null
  | bool (b : Bool)
  | number (literal : Text)
  | string (units : Json.Units)
  | array (items : List Json)
  | object (members : List (Json.Units × Json))

namespace Json

/-! ## Reading -/

/-- An array or object that is still open, its latest part first. -/
inductive Open
  | array (items : List Json)
  | object (members : List (Units × Json))
  | member (members : List (Units × Json)) (key : Units)

/-- What has to come next. -/
inductive Expect
  | value
  /-- A value, or the end of an array just opened. -/
  | item
  /-- A key, or the end of an object just opened. -/
  | firstKey
  | key
  | colon
  /-- A comma, or the end of the innermost array or object. -/
  | next

inductive Reader
  | pending (expect : Expect) (stack : List Open)
  | complete (value : Json)

namespace Reader

/-- Puts a complete value where it belongs: into the innermost open array or object,
or, if nothing is open, at the end of the reading. -/
def place (value : Json) : List Open → Option Reader
  | []                          => some (complete value)
  | .array items :: outer       => some (pending .next (.array (value :: items) :: outer))
  | .member members key :: outer => some (pending .next (.object ((key, value) :: members) :: outer))
  | .object _ :: _              => none

/-- Reads the first token of a value. -/
def start (stack : List Open) : Token → Option Reader
  | .null        => place null stack
  | .bool b      => place (bool b) stack
  | .number t    => place (number t) stack
  | .string us   => place (string us) stack
  | .openBracket => some (pending .item (.array [] :: stack))
  | .openBrace   => some (pending .firstKey (.object [] :: stack))
  | _            => none

def key (stack : List Open) (units : Units) : Option Reader :=
  match stack with
  | .object members :: outer => some (pending .colon (.member members units :: outer))
  | _                        => none

def closeArray : List Open → Option Reader
  | .array items :: outer => place (array items.reverse) outer
  | _                     => none

def closeObject : List Open → Option Reader
  | .object members :: outer => place (object members.reverse) outer
  | _                        => none

def comma : List Open → Option Reader
  | .array items :: outer    => some (pending .value (.array items :: outer))
  | .object members :: outer => some (pending .key (.object members :: outer))
  | _                        => none

/-- Reads one token; nothing may follow a complete value. -/
def step : Reader → Token → Option Reader
  | pending .value stack,    t             => start stack t
  | pending .item stack,     .closeBracket => closeArray stack
  | pending .item stack,     t             => start stack t
  | pending .firstKey stack, .closeBrace   => closeObject stack
  | pending .firstKey stack, .string us    => key stack us
  | pending .key stack,      .string us    => key stack us
  | pending .colon stack,    .colon        => some (pending .value stack)
  | pending .next stack,     .comma        => comma stack
  | pending .next stack,     .closeBracket => closeArray stack
  | pending .next stack,     .closeBrace   => closeObject stack
  | _,                       _             => none

def run (r : Reader) : List Token → Option Reader
  | []      => some r
  | t :: ts =>
    match r.step t with
    | some r' => run r' ts
    | none    => none

end Reader

def parse (t : Text) : Option Json :=
  match Token.ofText? t with
  | none    => none
  | some ts =>
    match (Reader.pending .value []).run ts with
    | some (.complete v) => some v
    | _                  => none

/-! ## Writing -/

/-- A new line, two spaces deep for every open array or object. -/
def newLine (depth : Nat) : Text := '\n' :: List.replicate (2 * depth) ' '

mutual

def print (depth : Nat) : Json → Text
  | null          => "null"
  | bool b        => if b then "true" else "false"
  | number t      => t
  | string units  => units.quoted
  | array []      => "[]"
  | array (v :: vs) =>
    '[' :: newLine (depth + 1) ++ print (depth + 1) v ++ printItems (depth + 1) vs ++
      newLine depth ++ [']']
  | object []     => ['\x7b', '\x7d']
  | object ((key, v) :: ms) =>
    '\x7b' :: newLine (depth + 1) ++ key.quoted ++ ": " ++ print (depth + 1) v ++
      printMembers (depth + 1) ms ++ newLine depth ++ ['\x7d']

def printItems (depth : Nat) : List Json → Text
  | []      => []
  | v :: vs => ',' :: newLine depth ++ print depth v ++ printItems depth vs

def printMembers (depth : Nat) : List (Units × Json) → Text
  | []             => []
  | (key, v) :: ms =>
    ',' :: newLine depth ++ key.quoted ++ ": " ++ print depth v ++ printMembers depth ms

end

/-- The value over several lines, indented by two spaces. -/
def pretty (v : Json) : Text := print 0 v

/-! ## Parts of a value -/

def text? : Json → Option Text
  | string units => units.text?
  | _            => none

def items? : Json → Option (List Json)
  | array vs => some vs
  | _        => none

/-- A number without fraction and exponent that fits a 64-bit word; minus zero is not one. -/
def word? : Json → Option Int
  | number t =>
    if t = "-0" then none
    else (Numeral.integer? t).filter fun n => decide (Numeral.FitsWord n)
  | _ => none

def ofText (t : Text) : Json := string (Units.ofText t)

def ofInt (n : Int) : Json := number (Numeral.ofInt n)

def keyed? : List (Units × Json) → Option (List (Text × Json))
  | []          => some []
  | (k, v) :: r =>
    match k.text?, keyed? r with
    | some key, some ms => some ((key, v) :: ms)
    | _, _              => none

/-- The member called `name`: at most one, or the object is refused. -/
def member? (ms : List (Text × Json)) (name : Text) : Option (Option Json) :=
  match ms.filter fun m => m.1 == name with
  | []  => some none
  | [m] => some (some m.2)
  | _   => none

/-- The parts of a record that is written as an object with the given names, or as an
array of its parts in that order, where the last ones may be missing. -/
def fields? (names : List Text) : Json → Option (List (Option Json))
  | object ms =>
    match keyed? ms with
    | some keyed => names.mapM (member? keyed)
    | none       => none
  | array vs =>
    if vs.length ≤ names.length then
      some (vs.map some ++ List.replicate (names.length - vs.length) none)
    else none
  | _ => none

end Json

end IppCode
