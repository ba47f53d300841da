import IppCode.Xml.Reference
/-!
# Tag — names and attributes

What a tag holds: a name, which may have a prefix, and attributes, each after a blank.

This is the library's part of reading a document, not the program's.
-/
namespace IppCode.Xml

/-- A name with the prefix that selects its namespace; without one the prefix is empty. -/
structure QName where
  scope : Text
  name  : Text
deriving DecidableEq

structure Attribute where
  key   : QName
  value : Text

structure Tag where
  key        : QName
  attributes : List Attribute
  /-- The element ends where it begins. -/
  closed     : Bool

def startsAsName : Text → Bool
  | []     => false
  | c :: _ => beginsName c

namespace QName

/-- At most one colon; what precedes it may be empty, what follows may not. -/
def ofText? (t : Text) : Option QName :=
  match Text.cutAt ':' t with
  | none               => if startsAsName t then some ⟨[], t⟩ else none
  | some (scope, name) =>
    if (scope.isEmpty || startsAsName scope) && startsAsName name && !name.contains ':' then
      some ⟨scope, name⟩
    else none

/-- The name at the beginning of a text, and the text after it. -/
def read? (t : Text) : Option (QName × Text) :=
  (ofText? (t.takeWhile continuesName)).map fun q => (q, t.dropWhile continuesName)

end QName

def skipSpaces (t : Text) : Text := t.dropWhile isSpace

/-- Cuts a text after a quoted value: the value between the quotes, which has no `<`. -/
def quoted? : Text → Option (Text × Text)
  | []     => none
  | q :: r =>
    if q = '"' || q = '\'' then
      match Text.cutAt q r with
      | some (value, rest) => if value.contains '<' then none else some (value, rest)
      | none               => none
    else none

/-- A name, an equals sign and a quoted value, as it is written. -/
def rawAttribute? (t : Text) : Option (QName × Text × Text) :=
  match QName.read? t with
  | none        => none
  | some (q, r) =>
    match skipSpaces r with
    | '=' :: s => (quoted? (skipSpaces s)).map fun p => (q, p.1, p.2)
    | _        => none

/-- The attributes, and whether a slash ends the tag.  Each attribute takes at least one
character, so `fuel` attributes are enough for a text of that length. -/
def attributes? : (fuel : Nat) → Text → Option (List Attribute × Bool)
  | 0,        _ => none
  | fuel + 1, t =>
    match skipSpaces t with
    | []    => some ([], false)
    | ['/'] => some ([], true)
    | c :: r =>
      if (t.head?.map isSpace).getD false then
        match rawAttribute? (c :: r) with
        | none              => none
        | some (key, raw, rest) =>
          match attributeText? raw, attributes? fuel rest with
          | some value, some (as, closed) => some (⟨key, value⟩ :: as, closed)
          | _, _                          => none
      else none

namespace Tag

def ofText? (t : Text) : Option Tag :=
  match QName.read? t with
  | none        => none
  | some (q, r) => (attributes? (r.length + 1) r).map fun p => ⟨q, p.1, p.2⟩

end Tag

/-- The name in the tag that closes an element, with nothing but blanks after it. -/
def closingName? (t : Text) : Option QName :=
  match QName.read? t with
  | some (q, r) => if r.all isSpace then some q else none
  | none        => none

/-! ## Declarations -/

/-- Passes over the blank after an attribute of a declaration; at the end of the
declaration there need not be one. -/
def passGap? : Text → Option Text
  | []     => some []
  | c :: r =>
    if isSpace c then some (skipSpaces r)
    else if (Text.after? "?>" (c :: r)).isSome then some (c :: r)
    else none

/-- Passes over an attribute whose name begins with the given letters. -/
def passAttribute? (letters : Text) (t : Text) : Option Text :=
  if (Text.after? letters t).isSome then (rawAttribute? t).map fun a => a.2.2 else none

/-- Passes over such an attribute and the blank after it, if it is there. -/
def passOptional? (letters : Text) (t : Text) : Option Text :=
  if (Text.after? letters t).isSome then (passAttribute? letters t).bind passGap? else some t

/-- Passes over the version, and then possibly the encoding and whether the document
stands alone, up to the end of the declaration. -/
def passDeclaration? (t : Text) : Option Text := do
  let t ← passAttribute? "version" (skipSpaces t)
  let t ← passOptional? "encoding" (← passGap? t)
  let t ← if (Text.after? "standalone" t).isSome then passAttribute? "standalone" t else some t
  Text.after? "?>" (skipSpaces t)

/-- The rest of a document after its declaration, if it has one. -/
def afterDeclaration? (t : Text) : Option Text :=
  match Text.after? "<?xml " t with
  | some r => passDeclaration? r
  | none   => some t

end IppCode.Xml
