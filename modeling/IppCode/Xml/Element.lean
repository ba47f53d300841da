import IppCode.Xml.Piece
import IppCode.Xml.Tag
/-!
# Element — the tree of a document

Elements are nested; an element has a name, attributes, and inside it elements and
text.  Prefixes are resolved while the tree is built: a prefix has to be declared, no
two attributes of an element may be the same, and the tree keeps the local names and
only the attributes without a namespace.  Comments and processing instructions are
checked and left out.

Here the library's part of reading a document ends: of its tree there is no more than the
program looks at, which is what `Records` does.
-/
namespace IppCode.Xml

inductive Node
  | text (t : Text)
  | element (name : Text) (attributes : List (Text × Text)) (children : List Node)

structure Element where
  name       : Text
  attributes : List (Text × Text)
  children   : List Node

namespace Element

def attribute? (e : Element) (name : Text) : Option Text := e.attributes.lookup name

def elements (e : Element) : List Element :=
  e.children.filterMap fun
    | .text _              => none
    | .element name as cs => some ⟨name, as, cs⟩

def text (e : Element) : Text :=
  e.children.flatMap fun
    | .text t        => t
    | .element _ _ _ => []

end Element

/-! ## Namespaces -/

/-- The namespace of the prefix `xml`, which needs no declaration. -/
def xmlSpace : Text := "http://www.w3.org/XML/1998/namespace"

def xmlnsSpace : Text := "http://www.w3.org/2000/xmlns/"

/-- The namespaces in scope by prefix, the innermost declaration first; the empty prefix
is the default namespace. -/
abbrev Scopes := List (Text × Text)

/-- Adds the declarations among the attributes to those of the same element. -/
def declare (own : Scopes) : List Attribute → Option Scopes
  | []      => some own
  | a :: as =>
    if a.key.scope = "xmlns" then
      if a.value = xmlnsSpace then none
      else if a.key.name = "xml" then if a.value = xmlSpace then declare own as else none
      else if a.value = xmlSpace then none
      else if (own.lookup a.key.name).isSome then none
      else declare ((a.key.name, a.value) :: own) as
    else if a.key.name = "xmlns" then
      if a.value = xmlSpace || a.value = xmlnsSpace then none
      else declare (([], a.value) :: own) as
    else declare own as

def isDeclaration (a : Attribute) : Bool := a.key.scope = "xmlns" || a.key.name = "xmlns"

/-- The namespace of an attribute, if it has one. -/
def attributeSpace? (scopes : Scopes) (a : Attribute) : Option (Option Text) :=
  if a.key.scope = [] then some none
  else if a.key.scope = "xml" then some (some xmlSpace)
  else (scopes.lookup a.key.scope).map some

/-- The attributes with their namespaces, no two of them equal. -/
def spaced? (scopes : Scopes) : List Attribute → Option (List ((Option Text × Text) × Text))
  | []      => some []
  | a :: as =>
    match attributeSpace? scopes a, spaced? scopes as with
    | some space, some rest =>
      if (rest.lookup (space, a.key.name)).isSome then none
      else some (((space, a.key.name), a.value) :: rest)
    | _, _ => none

/-! ## Building -/

/-- An element that is still open, the latest of its children first. -/
structure OpenElement where
  key        : QName
  scopes     : Scopes
  attributes : List (Text × Text)
  children   : List Node

namespace OpenElement

def ofTag? (outer : Scopes) (tag : Tag) : Option OpenElement :=
  if tag.key.scope = "xmlns" then none
  else
    match declare [] tag.attributes with
    | none     => none
    | some own =>
      let scopes := own ++ outer
      match spaced? scopes (tag.attributes.filter fun a => !isDeclaration a) with
      | none        => none
      | some spaced =>
        if tag.key.scope = [] || (scopes.lookup tag.key.scope).isSome then
          some ⟨tag.key, scopes,
            spaced.filterMap fun p => if p.1.1.isNone then some (p.1.2, p.2) else none, []⟩
        else none

def node (o : OpenElement) : Node := .element o.key.name o.attributes o.children.reverse

def add (o : OpenElement) (child : Node) : OpenElement := { o with children := child :: o.children }

end OpenElement

/-- How far a document has been read. -/
inductive Builder
  | before
  | inside (top : OpenElement) (outer : List OpenElement)
  | after (root : Element)

namespace Builder

def scopes : Builder → Scopes
  | inside top _ => top.scopes
  | _            => []

def finish (done : OpenElement) : List OpenElement → Builder
  | []           => after ⟨done.key.name, done.attributes, done.children.reverse⟩
  | top :: outer => inside (top.add done.node) outer

def addText (t : Text) : Builder → Option Builder
  | inside top outer => some (inside (top.add (.text t)) outer)
  | _                => none

/-- Opens an element, and closes it at once if its tag says so. -/
def openTag (tag : Tag) (outer : List OpenElement) (scopes : Scopes) : Option Builder :=
  (OpenElement.ofTag? scopes tag).map fun o =>
    if tag.closed then finish o outer else inside o outer

def start (b : Builder) (tag : Tag) : Option Builder :=
  match b with
  | before           => openTag tag [] []
  | inside top outer => openTag tag (top :: outer) top.scopes
  | after _          => none

/-- Two hyphens may not stand inside a comment, nor one at its end. -/
def isComment : Text → Bool
  | []              => true
  | ['-']           => false
  | '-' :: '-' :: _ => false
  | _ :: r          => isComment r

/-- `]]>` may not stand in text. -/
def isPlain : Text → Bool
  | []                     => true
  | ']' :: ']' :: '>' :: _ => false
  | _ :: r                 => isPlain r

/-- A processing instruction begins with a name; `xml` and a space begin a declaration,
which stands at the very beginning of a document only. -/
def isInstruction (t : Text) : Bool := startsAsName t && (Text.after? "xml " t).isNone

def step (b : Builder) : Piece → Option Builder
  | .comment t     => if isComment t then some b else none
  | .instruction t => if isInstruction t then some b else none
  | .text t        =>
    match b with
    | inside _ _ => if isPlain t then (contentText? t).bind fun s => b.addText s else none
    | _          => if t.all isSpace then some b else none
  | .literal t => b.addText (literalText t)
  | .opening t => (Tag.ofText? t).bind b.start
  | .closing t =>
    match b, closingName? t with
    | inside top outer, some q => if q = top.key then some (finish top outer) else none
    | _, _                     => none

def run (b : Builder) : List Piece → Option Builder
  | []      => some b
  | p :: ps => (b.step p).bind fun b' => b'.run ps

end Builder

/-- Drops the mark that some writers put in front of a text. -/
def afterMark : Text → Text
  | '\uFEFF' :: r => r
  | t             => t

def parse (t : Text) : Option Element :=
  let t := afterMark t
  if t.all isDocumentChar then
    match (afterDeclaration? t).bind Piece.ofText? with
    | none    => none
    | some ps =>
      match Builder.before.run ps with
      | some (.after root) => some root
      | _                  => none
  else none

end IppCode.Xml
