import Mathlib.Data.List.Basic
import IppCode.Xml.Element
/-!
# Outlines — what of a document comes into its tree

An outline of a tree is without the text on its uppermost levels, and has the other text one character
after another.  The builder makes the outline of a tree from what counts of the pieces of the document
(`absorb_substance`): not from comments, not from processing instructions, and not from text that
has too few elements around it.  So documents in which the same counts have the same outline
(`outline_eq_of_parse`).
-/
namespace IppCode.Xml

/-! ## Outlines of trees -/

mutual

/-- The node with its text cut into characters. -/
def Node.spelled : Node → List Node
  | .text t             => t.map fun c => .text [c]
  | .element name as cs => [.element name as (spelledAll cs)]

def Node.spelledAll : List Node → List Node
  | []      => []
  | n :: ns => n.spelled ++ spelledAll ns

end

/-- Nodes without the text on the uppermost levels, so many of them, and the other text spelled. -/
def Node.outline : Nat → List Node → List Node
  | 0,          ns => spelledAll ns
  | levels + 1, ns => ns.filterMap fun
    | .text _             => none
    | .element name as cs => some (.element name as (outline levels cs))

def Element.outline (levels : Nat) (e : Element) : Element := { e with children := Node.outline levels e.children }

variable {levels : Nat}

namespace Node

variable {name t : Text} {as : List (Text × Text)} {cs : List Node}

theorem spelledAll_append : ∀ ns ms : List Node, spelledAll (ns ++ ms) = spelledAll ns ++ spelledAll ms
  | [],      _  => rfl
  | n :: ns, ms => by
    rw [List.cons_append, spelledAll, spelledAll, spelledAll_append ns ms, List.append_assoc]

theorem outline_append (ns ms : List Node) : outline levels (ns ++ ms) = outline levels ns ++ outline levels ms := by
  cases levels with
  | zero => exact spelledAll_append ns ms
  | succ levels => exact List.filterMap_append

theorem outline_element : outline levels [.element name as cs] = [.element name as (outline (levels - 1) cs)] := by
  cases levels with
  | zero => rfl
  | succ levels => rfl

/-- Text is spelled below the levels that are left out. -/
theorem outline_text : outline levels [.text t] = if levels = 0 then t.map fun c => .text [c] else [] := by
  cases levels with
  | zero => exact List.append_nil _
  | succ levels => rfl

end Node

namespace Element

variable {name : Text} {as : List (Text × Text)}

theorem elements_append (ns ms : List Node) :
    elements ⟨name, as, ns ++ ms⟩ = elements ⟨name, as, ns⟩ ++ elements ⟨name, as, ms⟩ := List.filterMap_append

theorem text_append (ns ms : List Node) : text ⟨name, as, ns ++ ms⟩ = text ⟨name, as, ns⟩ ++ text ⟨name, as, ms⟩ :=
  List.flatMap_append

/-- The elements of an outline are outlines themselves, with one level less. -/
theorem elements_outline : ∀ e : Element, (e.outline levels).elements = e.elements.map (outline (levels - 1))
  | ⟨name, as, []⟩ => by
    cases levels with
    | zero => rfl
    | succ levels => rfl
  | ⟨name, as, n :: ns⟩ => by
    have hrest : (outline levels ⟨name, as, ns⟩).elements = (elements ⟨name, as, ns⟩).map (outline (levels - 1)) :=
      elements_outline ⟨name, as, ns⟩
    have hfirst : elements ⟨name, as, Node.outline levels [n]⟩ = (elements ⟨name, as, [n]⟩).map (outline (levels - 1)) := by
      cases n with
      | text t =>
        rw [Node.outline_text]
        split
        · simp [elements, List.filterMap_map]
        · rfl
      | element name as cs =>
        rw [Node.outline_element]
        rfl
    rw [← List.singleton_append, elements_append, List.map_append, ← hfirst, ← hrest, outline, Node.outline_append,
      elements_append]
    rfl

/-- The text of an element is not changed by spelling it. -/
theorem text_outline : ∀ e : Element, (e.outline 0).text = e.text
  | ⟨name, as, []⟩      => rfl
  | ⟨name, as, n :: ns⟩ => by
    have hrest : (outline 0 ⟨name, as, ns⟩).text = text ⟨name, as, ns⟩ := text_outline ⟨name, as, ns⟩
    have hfirst : text ⟨name, as, Node.outline 0 [n]⟩ = text ⟨name, as, [n]⟩ := by
      cases n with
      | text t =>
        rw [Node.outline_text, if_pos rfl]
        simp [text, List.flatMap_map]
      | element name as cs => rfl
    rw [← List.singleton_append, text_append, ← hfirst, ← hrest, outline, Node.outline_append, text_append]
    rfl

end Element

/-! ## Outlines of what is being built -/

/-- The children of an open element are there in reverse. -/
def OpenElement.outline (levels : Nat) (o : OpenElement) : OpenElement :=
  { o with children := (Node.outline levels o.children.reverse).reverse }

/-- Open elements, each inside of those behind it. -/
def OpenElement.outlines (levels : Nat) : List OpenElement → List OpenElement
  | []         => []
  | o :: outer => o.outline (levels - outer.length) :: outlines levels outer

def Builder.outline (levels : Nat) : Builder → Builder
  | before           => before
  | inside top outer => inside (top.outline (levels - outer.length)) (OpenElement.outlines levels outer)
  | after root       => after (root.outline levels)

/-- How many elements are open. -/
def Builder.depth : Builder → Nat
  | inside _ outer => outer.length + 1
  | _              => 0

/-! ## What counts of a document -/

/-- A tag, or a character of a text. -/
inductive Item
  | char (c : Char)
  | opening (tag : Text)
  | closing (tag : Text)
deriving DecidableEq

namespace Piece

/-- The tag leaves its element open. -/
def opens (tag : Text) : Bool := (Tag.ofText? tag).any fun t => !t.closed

def depthAfter (depth : Nat) : Piece → Nat
  | opening tag => if opens tag then depth + 1 else depth
  | closing _   => depth - 1
  | _           => depth

/-- **What counts of a piece** inside of so many elements: all tags, but text only below the levels
that are left out. -/
def items (levels depth : Nat) : Piece → List Item
  | comment _ | instruction _ => []
  | text t                    => if levels < depth then ((contentText? t).getD []).map .char else []
  | literal t                 => if levels < depth then (literalText t).map .char else []
  | opening tag               => [.opening tag]
  | closing tag               => [.closing tag]

/-- **What counts of a document**, from a depth on. -/
def substance (levels : Nat) : Nat → List Piece → List Item
  | _,     []      => []
  | depth, p :: ps => p.items levels depth ++ substance levels (p.depthAfter depth) ps

end Piece

/-- The builder after an item. -/
def Builder.take (b : Builder) : Item → Option Builder
  | .char c      => b.addText [c]
  | .opening tag => (Tag.ofText? tag).bind b.start
  | .closing tag => b.step (.closing tag)

def Builder.absorb (b : Builder) : List Item → Option Builder
  | []      => some b
  | i :: is => (b.take i).bind fun b' => b'.absorb is

/-! ## Steps -/

namespace OpenElement

variable {o top : OpenElement} {scopes : Scopes} {tag : Tag} {t : Text}

theorem outline_add_node :
    (top.add o.node).outline levels = (top.outline levels).add (o.outline (levels - 1)).node := by
  simp only [outline, add, node, List.reverse_cons, Node.outline_append, Node.outline_element, List.reverse_append,
    List.reverse_reverse, List.reverse_nil, List.nil_append, List.singleton_append]

theorem outline_add_text : (top.add (.text t)).outline levels =
    if levels = 0 then { top.outline 0 with children := (t.map fun c => Node.text [c]).reverse ++ (top.outline 0).children }
    else top.outline levels := by
  simp only [outline, add, List.reverse_cons, Node.outline_append, Node.outline_text, List.reverse_append]
  split
  · rename_i hzero
    rw [hzero]
  · rfl

theorem children_of_ofTag? (h : ofTag? scopes tag = some o) : o.children = [] := by
  unfold ofTag? at h
  split at h
  · cases h
  · split at h
    · cases h
    · simp only at h
      split at h
      · cases h
      · split at h <;> cases h
        rfl

/-- An element that has just been opened has nothing to leave out. -/
theorem outline_of_ofTag? (h : ofTag? scopes tag = some o) : o.outline levels = o := by
  have hchildren := children_of_ofTag? h
  rw [outline, hchildren]
  cases o
  cases hchildren
  cases levels with
  | zero => rfl
  | succ levels => rfl

end OpenElement

namespace Builder

/-- The elements inside of which the next one begins, if there may be one. -/
def around? : Builder → Option (List OpenElement)
  | before           => some []
  | inside top outer => some (top :: outer)
  | after _          => none

/-- The builder after an element was opened inside of others. -/
def opened (tag : Tag) (o : OpenElement) (outer : List OpenElement) : Builder :=
  if tag.closed then finish o outer else inside o outer

/-- **What a piece does to a builder**, if it may stand where it stands. -/
inductive Moves : Builder → Piece → Builder → Prop
  | comment {b : Builder} {t : Text} (h : isComment t = true) : Moves b (.comment t) b
  | instruction {b : Builder} {t : Text} (h : isInstruction t = true) : Moves b (.instruction t) b
  | blank {b : Builder} {t : Text} (hdepth : b.depth = 0) (h : t.all isSpace = true) : Moves b (.text t) b
  | text {top : OpenElement} {outer : List OpenElement} {t s : Text} (hplain : isPlain t = true)
      (h : contentText? t = some s) : Moves (inside top outer) (.text t) (inside (top.add (.text s)) outer)
  | literal {top : OpenElement} {outer : List OpenElement} {t : Text} :
      Moves (inside top outer) (.literal t) (inside (top.add (.text (literalText t))) outer)
  | opening {b : Builder} {outer : List OpenElement} {t : Text} {tag : Tag} {o : OpenElement}
      (haround : b.around? = some outer) (htag : Tag.ofText? t = some tag)
      (h : OpenElement.ofTag? b.scopes tag = some o) : Moves b (.opening t) (opened tag o outer)
  | closing {top : OpenElement} {outer : List OpenElement} {t : Text} (h : closingName? t = some top.key) :
      Moves (inside top outer) (.closing t) (finish top outer)

variable {b b' : Builder} {p : Piece} {t : Text} {tag : Tag}

theorem start_eq_some : b.start tag = some b' ↔
    ∃ outer o, b.around? = some outer ∧ OpenElement.ofTag? b.scopes tag = some o ∧ opened tag o outer = b' := by
  cases b with
  | before | inside =>
    simp only [start, openTag, around?, scopes, opened, Option.map_eq_some_iff, Option.some.injEq, exists_and_left,
      exists_eq_left']
  | after root => simp [start, around?]

theorem step_eq_some : b.step p = some b' ↔ Moves b p b' := by
  constructor
  · intro h
    cases p with
    | comment t =>
      rw [step, Option.ite_none_right_eq_some] at h
      obtain ⟨hcomment, ⟨⟩⟩ := h
      exact .comment hcomment
    | instruction t =>
      rw [step, Option.ite_none_right_eq_some] at h
      obtain ⟨hinstruction, ⟨⟩⟩ := h
      exact .instruction hinstruction
    | text t =>
      cases b with
      | inside top outer =>
        simp only [step, Option.ite_none_right_eq_some, Option.bind_eq_some_iff] at h
        obtain ⟨hplain, s, hs, ⟨⟩⟩ := h
        exact .text hplain hs
      | before | after =>
        simp only [step, Option.ite_none_right_eq_some] at h
        obtain ⟨hall, ⟨⟩⟩ := h
        exact .blank rfl hall
    | literal t =>
      cases b with
      | inside top outer =>
        cases h
        exact .literal
      | before | after => cases h
    | opening t =>
      obtain ⟨tag, htag, hstart⟩ := Option.bind_eq_some_iff.1 h
      obtain ⟨outer, o, haround, ho, rfl⟩ := start_eq_some.1 hstart
      exact .opening haround htag ho
    | closing t =>
      cases b with
      | inside top outer =>
        cases hname : closingName? t with
        | none => simp [step, hname] at h
        | some q =>
          simp only [step, hname, Option.ite_none_right_eq_some] at h
          obtain ⟨rfl, ⟨⟩⟩ := h
          exact .closing hname
      | before | after => cases h
  · intro h
    cases h with
    | comment h => exact if_pos h
    | instruction h => exact if_pos h
    | blank hdepth h =>
      cases b with
      | inside top outer => cases hdepth
      | before | after => exact if_pos h
    | text hplain h => simp only [step, hplain, if_true, h, Option.bind_some, addText]
    | literal => rfl
    | opening haround htag h =>
      rw [step, htag, Option.bind_some]
      exact start_eq_some.2 ⟨_, _, haround, h, rfl⟩
    | closing h => simp only [step, h, if_true]

theorem outline_finish (o : OpenElement) (outer : List OpenElement) :
    (finish o outer).outline levels =
      finish (o.outline (levels - outer.length)) (OpenElement.outlines levels outer) := by
  cases outer with
  | nil =>
    simp only [finish, outline, Element.outline, OpenElement.outlines, OpenElement.outline, List.reverse_reverse,
      List.length_nil, Nat.sub_zero]
  | cons top outer =>
    rw [finish, outline, OpenElement.outline_add_node, Nat.sub_sub]
    rfl

theorem outline_opened {o : OpenElement} {outer : List OpenElement} {scopes : Scopes}
    (h : OpenElement.ofTag? scopes tag = some o) :
    (opened tag o outer).outline levels = opened tag o (OpenElement.outlines levels outer) := by
  have hsame (n : Nat) : o.outline n = o := OpenElement.outline_of_ofTag? h
  unfold opened
  split
  · rw [outline_finish, hsame]
  · rw [outline, hsame]

theorem depth_finish (o : OpenElement) (outer : List OpenElement) : (finish o outer).depth = outer.length := by
  cases outer <;> rfl

theorem length_of_around? {outer : List OpenElement} (h : b.around? = some outer) : outer.length = b.depth := by
  cases b <;> cases h <;> rfl

theorem around?_outline {outer : List OpenElement} (h : b.around? = some outer) :
    (b.outline levels).around? = some (OpenElement.outlines levels outer) := by
  cases b <;> cases h <;> rfl

theorem scopes_outline (b : Builder) : (b.outline levels).scopes = b.scopes := by
  cases b <;> rfl

theorem Moves.depth (h : Moves b p b') : b'.depth = p.depthAfter b.depth := by
  cases h with
  | comment | instruction | blank | text | literal => rfl
  | @opening b outer t tag o haround htag h =>
    rw [Piece.depthAfter, Piece.opens, htag, ← length_of_around? haround, opened, Option.any_some]
    cases tag.closed with
    | false => rfl
    | true => exact depth_finish o outer
  | closing => exact depth_finish _ _

theorem absorb_append {b : Builder} {is js : List Item} :
    b.absorb (is ++ js) = (b.absorb is).bind fun b' => b'.absorb js := by
  induction is generalizing b with
  | nil => rfl
  | cons i is ih =>
    rw [List.cons_append, absorb, absorb, Option.bind_assoc]
    simp only [ih]

/-- Characters become texts of one character. -/
theorem absorb_chars {top : OpenElement} {outer : List OpenElement} (t : Text) : (inside top outer).absorb (t.map .char) =
    some (inside { top with children := (t.map fun c => Node.text [c]).reverse ++ top.children } outer) := by
  induction t generalizing top with
  | nil => rfl
  | cons c t ih =>
    rw [List.map_cons, absorb, take, addText, Option.bind_some, ih, OpenElement.add]
    simp

theorem absorb_text {top : OpenElement} {outer : List OpenElement} :
    ((inside top outer).outline levels).absorb (if levels < outer.length + 1 then t.map .char else []) =
      some ((inside (top.add (.text t)) outer).outline levels) := by
  rw [outline, outline, OpenElement.outline_add_text]
  by_cases h : levels < outer.length + 1
  · have hzero : levels - outer.length = 0 := Nat.sub_eq_zero_of_le (Nat.le_of_lt_succ h)
    rw [if_pos h, if_pos hzero, absorb_chars, hzero]
  · have hsome : levels - outer.length ≠ 0 := Nat.sub_ne_zero_of_lt (Nat.lt_of_succ_le (Nat.le_of_not_lt h))
    rw [if_neg h, if_neg hsome]
    rfl

/-- **What counts of a piece** does to the outline what the piece does. -/
theorem Moves.outline (h : Moves b p b') :
    (b.outline levels).absorb (p.items levels b.depth) = some (b'.outline levels) := by
  cases h with
  | comment | instruction => rfl
  | blank hdepth =>
    rw [Piece.items, hdepth, if_neg (Nat.not_lt_zero levels)]
    rfl
  | text hplain h =>
    rw [Piece.items, h]
    exact absorb_text
  | literal => exact absorb_text
  | opening haround htag h =>
    rw [outline_opened h, Piece.items, absorb, take, htag, Option.bind_some,
      start_eq_some.2 ⟨_, _, around?_outline haround, b.scopes_outline ▸ h, rfl⟩]
    rfl
  | @closing top outer t h =>
    have hclosing : ((inside top outer).outline levels).step (.closing t) = some ((finish top outer).outline levels) := by
      rw [outline_finish]
      exact step_eq_some.2 (.closing h)
    rw [Piece.items, absorb, take, hclosing]
    rfl

/-- **The outline is built from what counts.** -/
theorem absorb_substance : ∀ {b b' : Builder} {ps : List Piece}, b.run ps = some b' →
    (b.outline levels).absorb (Piece.substance levels b.depth ps) = some (b'.outline levels)
  | b, _, [], h => by
    cases h
    rfl
  | b, b', p :: ps, h => by
    obtain ⟨c, hc, hrest⟩ := Option.bind_eq_some_iff.1 h
    have hmoves := step_eq_some.1 hc
    rw [Piece.substance, absorb_append, hmoves.outline, Option.bind_some, ← hmoves.depth]
    exact absorb_substance hrest

end Builder

/-! ## Documents -/

/-- The pieces of a document after its declaration. -/
def pieces? (t : Text) : Option (List Piece) := (afterDeclaration? (afterMark t)).bind Piece.ofText?

variable {t u : Text} {root root' : Element}

theorem run_of_parse (h : parse t = some root) :
    ∃ ps, pieces? t = some ps ∧ Builder.before.run ps = some (.after root) := by
  unfold parse at h
  simp only [Option.ite_none_right_eq_some] at h
  obtain ⟨-, h⟩ := h
  split at h
  · cases h
  · rename_i ps hps
    split at h
    · rename_i root' hrun
      cases h
      exact ⟨ps, hps, hrun⟩
    · cases h

/-- **Documents in which the same counts** have the same outline. -/
theorem outline_eq_of_parse (ht : parse t = some root) (hu : parse u = some root')
    (h : (pieces? t).map (Piece.substance levels 0) = (pieces? u).map (Piece.substance levels 0)) :
    root.outline levels = root'.outline levels := by
  obtain ⟨ps, hps, hrun⟩ := run_of_parse ht
  obtain ⟨qs, hqs, hrun'⟩ := run_of_parse hu
  rw [hps, hqs, Option.map_some, Option.map_some, Option.some.injEq] at h
  have hroot : Builder.before.absorb (Piece.substance levels 0 ps) = some (.after (root.outline levels)) :=
    Builder.absorb_substance hrun
  have hroot' : Builder.before.absorb (Piece.substance levels 0 qs) = some (.after (root'.outline levels)) :=
    Builder.absorb_substance hrun'
  rw [h] at hroot
  exact Builder.after.inj (Option.some.inj (hroot.symm.trans hroot'))

end IppCode.Xml
