import IppCode.Text
/-!
# Piece — a document cut at its markup

A document is a sequence of stretches of text and of markup.  The scanner reads one
character at a time; it looks inside markup only for where it ends, which a `>` inside
a quoted value is not.

This is the library's part of reading a document, not the program's.
-/
namespace IppCode.Xml

inductive Piece
  /-- Text outside all markup. -/
  | text (t : Text)
  /-- What a character data section holds. -/
  | literal (t : Text)
  /-- What a comment holds. -/
  | comment (t : Text)
  /-- What a processing instruction holds. -/
  | instruction (t : Text)
  /-- What the tag that opens an element holds. -/
  | opening (t : Text)
  /-- What the tag that closes an element holds, after the slash. -/
  | closing (t : Text)
deriving DecidableEq

namespace Piece

/-- What the scanner is in the middle of, the latest character first. -/
inductive Mode
  | text (seen : Text)
  | angle
  | comment (seen : Text)
  | literal (seen : Text)
  | instruction (seen : Text)
  | opening (quote : Option Char) (seen : Text)
  | closing (seen : Text)

/-- Leaves out a stretch of no text. -/
def consText (seen : Text) (ps : List Piece) : List Piece :=
  if seen.isEmpty then ps else text seen.reverse :: ps

/-- Cuts the rest of a document; nothing but text may be unfinished at its end. -/
def scan : Mode → Text → Option (List Piece)
  | .text seen, [] => some (consText seen [])
  | _,          [] => none
  | .text seen, c :: r =>
    if c = '<' then (scan .angle r).map (consText seen) else scan (.text (c :: seen)) r
  | .angle, '!' :: '-' :: '-' :: r => scan (.comment []) r
  | .angle, '!' :: '[' :: 'C' :: 'D' :: 'A' :: 'T' :: 'A' :: '[' :: r => scan (.literal []) r
  | .angle, c :: r =>
    if c = '!' || c = '>' then none
    else if c = '?' then scan (.instruction []) r
    else if c = '/' then scan (.closing []) r
    else scan (.opening none [c]) r
  | .comment seen, c :: r =>
    match c, seen with
    | '>', '-' :: '-' :: s => (scan (.text []) r).map (comment s.reverse :: ·)
    | _, _                 => scan (.comment (c :: seen)) r
  | .literal seen, c :: r =>
    match c, seen with
    | '>', ']' :: ']' :: s => (scan (.text []) r).map (literal s.reverse :: ·)
    | _, _                 => scan (.literal (c :: seen)) r
  | .instruction seen, c :: r =>
    match c, seen with
    | '>', '?' :: s => (scan (.text []) r).map (instruction s.reverse :: ·)
    | _, _          => scan (.instruction (c :: seen)) r
  | .opening none seen, c :: r =>
    if c = '>' then (scan (.text []) r).map (opening seen.reverse :: ·)
    else if c = '"' || c = '\'' then scan (.opening (some c) (c :: seen)) r
    else scan (.opening none (c :: seen)) r
  | .opening (some quote) seen, c :: r =>
    scan (.opening (if c = quote then none else some quote) (c :: seen)) r
  | .closing seen, c :: r =>
    if c = '>' then (scan (.text []) r).map (closing seen.reverse :: ·)
    else scan (.closing (c :: seen)) r

def ofText? (t : Text) : Option (List Piece) := scan (.text []) t

end Piece

end IppCode.Xml
