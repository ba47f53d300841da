/-!
# Text — what programs, names and records are written in

A text is the list of its characters, so that every reader and printer of this
library is a recursion over a list.  A string literal stands for its characters.
The operations here are the cuts that several formats share: cutting at a mark,
splitting at every separator, trimming both ends, and comparing up to the case of
ASCII letters.
-/
namespace IppCode

abbrev Text := List Char

instance : Coe String Text := ⟨String.toList⟩

namespace Text

/-- The text before the first `mark` and the text after it. -/
def cutAt (mark : Char) : Text → Option (Text × Text)
  | []     => none
  | c :: r => if c = mark then some ([], r) else (cutAt mark r).map fun p => (c :: p.1, p.2)

/-- The pieces between separators: one more than there are separators. -/
def pieces (sep : Char → Bool) : Text → List Text
  | []     => [[]]
  | c :: r =>
    if sep c then [] :: pieces sep r
    else match pieces sep r with
      | []      => [[c]]
      | p :: ps => (c :: p) :: ps

/-- The lines of a text, without their line feeds; a text that ends in a line feed
has an empty last line. -/
def lines (t : Text) : List Text := pieces (· = '\n') t

/-- Space, tab, line feed, form feed and carriage return. -/
def isBlank (c : Char) : Bool :=
  c = ' ' || c = '\t' || c = '\n' || c = '\x0c' || c = '\r'

/-- The maximal runs of characters that are not blank. -/
def words (t : Text) : List Text := (pieces isBlank t).filter fun w => !w.isEmpty

/-- Drops the characters in `p` from both ends. -/
def trim (p : Char → Bool) (t : Text) : Text :=
  ((t.dropWhile p).reverse.dropWhile p).reverse

/-- Equality up to the case of ASCII letters. -/
def sameLetters (a b : Text) : Bool := a.map Char.toLower == b.map Char.toLower

/-- The rest of the text after `start`, if it begins with it. -/
def after? (start : Text) (t : Text) : Option Text :=
  if start.isPrefixOf t then some (t.drop start.length) else none

theorem pieces_ne_nil (sep : Char → Bool) : ∀ t : Text, pieces sep t ≠ []
  | []     => by simp [pieces]
  | c :: r => by
    unfold pieces
    split
    · simp
    · split <;> simp

theorem cutAt_eq_some : ∀ {mark : Char} {t a b : Text}, cutAt mark t = some (a, b) →
    t = a ++ mark :: b ∧ mark ∉ a
  | mark, [], a, b, h => by simp [cutAt] at h
  | mark, c :: r, a, b, h => by
    unfold cutAt at h
    split at h
    · rename_i hc
      simp only [Option.some.injEq, Prod.mk.injEq] at h
      obtain ⟨rfl, rfl⟩ := h
      simp [hc]
    · rename_i hc
      obtain ⟨⟨a', b'⟩, hr, he⟩ := Option.map_eq_some_iff.1 h
      simp only [Prod.mk.injEq] at he
      obtain ⟨rfl, rfl⟩ := he
      obtain ⟨rfl, hn⟩ := cutAt_eq_some hr
      exact ⟨rfl, by simp [hn, Ne.symm hc]⟩

theorem cutAt_append {mark : Char} : ∀ {a b : Text}, mark ∉ a →
    cutAt mark (a ++ mark :: b) = some (a, b)
  | [], b, _ => by simp [cutAt]
  | c :: a, b, h => by
    have hc : c ≠ mark := fun e => h (by simp [e])
    have ha : mark ∉ a := fun m => h (by simp [m])
    simp [cutAt, hc, cutAt_append ha]

end Text

end IppCode
