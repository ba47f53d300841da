import IppCode.Unicode.Ranges
/-!
# Chars — the character classes of XML

This module, `Reference`, `Piece`, `Tag` and `Element` stand for the XML library that the
program calls: they make a tree of a text, or find that it is no document.  The program's own
part, which walks that tree, begins with `Records`.
-/
namespace IppCode.Xml

/-- The characters that a document may contain: of the control characters only tab, line
feed and carriage return, and no noncharacter of the basic plane's end. -/
def isDocumentChar (c : Char) : Bool :=
  if c.toNat < 0x20 then c = '\t' || c = '\n' || c = '\r'
  else c.toNat ≠ 0xFFFE && c.toNat ≠ 0xFFFF

def isSpace (c : Char) : Bool := c = ' ' || c = '\t' || c = '\n' || c = '\r'

/-- The code points beyond ASCII at which a name may begin. -/
def nameStart : List Unicode.Interval :=
  [(0xC0, 0xD6), (0xD8, 0xF6), (0xF8, 0x2FF), (0x370, 0x37D), (0x37F, 0x1FFF), (0x200C, 0x200D),
   (0x2070, 0x218F), (0x2C00, 0x2FEF), (0x3001, 0xD7FF), (0xF900, 0xFDCF), (0xFDF0, 0xFFFD),
   (0x10000, 0xEFFFF)]

/-- The code points beyond ASCII with which a name may go on, apart from those. -/
def nameExtra : List Unicode.Interval := [(0xB7, 0xB7), (0x300, 0x36F), (0x203F, 0x2040)]

/-- A name begins with a letter or an underscore; a colon counts as a letter. -/
def beginsName (c : Char) : Bool :=
  c.isAlpha || c = ':' || c = '_' || Unicode.inTable c.toNat nameStart

def continuesName (c : Char) : Bool :=
  beginsName c || c.isDigit || c = '-' || c = '.' || Unicode.inTable c.toNat nameExtra

end IppCode.Xml
