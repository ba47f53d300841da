import IppCode.IntLiteral
import IppCode.Unicode.WhiteSpace
import IppCode.Utf8
import IppCode.Value
/-!
# Input — where `READ` gets values from

An input is a reader with the bytes that it has not read.  How many of these a read takes, and
what it makes of them, is up to the reader.  One reader takes lines: each read takes one whole
line, whatever becomes of it, and at the end of the input there is nothing to take.
-/
namespace IppCode

/-- What a read of a type makes of the unread bytes, and those that it leaves unread. -/
abbrev Reader := TypeName → Utf8.Bytes → Option Value × Utf8.Bytes

structure Input where
  reader : Reader
  unread : Utf8.Bytes

namespace Input

def read (n : TypeName) (input : Input) : Option Value × Input :=
  ((input.reader n input.unread).1, { input with unread := (input.reader n input.unread).2 })

/-- The input in which there is never anything. -/
def nothing : Input := ⟨fun _ bytes => (none, bytes), []⟩

/-! ## Lines -/

/-- The bytes before the first line feed, and those after it. -/
def cutLine : Utf8.Bytes → Option (Utf8.Bytes × Utf8.Bytes)
  | []     => none
  | b :: r => if b = 0x0A then some ([], r) else (cutLine r).map fun p => (b :: p.1, p.2)

def dropReturn (t : Text) : Text := if t.getLast? = some '\r' then t.dropLast else t

/-- The next line, without its end, and the bytes after it.  A line that is not UTF-8 is
taken but has no text; the last line may lack a line feed and then keeps a carriage
return. -/
def line (bytes : Utf8.Bytes) : Option Text × Utf8.Bytes :=
  match cutLine bytes with
  | some (first, rest) => ((Utf8.decode? first).map dropReturn, rest)
  | none               => (if bytes.isEmpty then none else Utf8.decode? bytes, [])

/-- What a line means as a value of the type: an integer literal with blanks around it,
true or any other word, or the line itself. -/
def valueOf? (n : TypeName) (line : Text) : Option Value :=
  match n with
  | .int    => (IntLiteral.parse (Text.trim Unicode.isWhiteSpace line)).map .int
  | .bool   => some (.bool (Text.sameLetters (Text.trim Unicode.isWhiteSpace line) "true"))
  | .string => some (.text line)

/-- Takes the next line. -/
def readLine : Reader := fun n bytes => ((line bytes).1.bind (valueOf? n), (line bytes).2)

/-- The input that is read line by line. -/
def lines (bytes : Utf8.Bytes) : Input := ⟨readLine, bytes⟩

theorem read_lines (n : TypeName) (bytes : Utf8.Bytes) :
    read n (lines bytes) = ((line bytes).1.bind (valueOf? n), lines (line bytes).2) := rfl

end Input

end IppCode
