import Mathlib.Data.List.TakeWhile
import IppCode.Source.Line
/-!
# Tokens — words that a line is cut into again

Blanks cut a text into words, however many there are (`words_across`).  A token has no blank and no
`#` in it, in upper or in lower case.  Wherever it is put into the code of a line it is one of its words
(`words_around_token`), and tokens that are written one after another, each after one space, are all
the words of their line (`words_spaced`).  Texts that are written with a line feed after each, or between
them, are the lines of the whole (`lines_terminated`, `lines_intercalate`).
-/
namespace IppCode

namespace Text

/-- The character ends no token and begins no comment. -/
def Plain (c : Char) : Prop := isBlank c = false ∧ c ≠ '#'

instance (c : Char) : Decidable (Plain c) := inferInstanceAs (Decidable (_ ∧ _))

/-- **One word of a line**, and nothing of it is a comment. -/
def Token (w : Text) : Prop := w ≠ [] ∧ ∀ c ∈ w, Plain c

instance (w : Text) : Decidable (Token w) := @instDecidableAnd _ _ _ (List.decidableBAll Plain w)

def enders : Text := [' ', '\t', '\n', '\x0c', '\r', '#']

/-- A class of characters that has none of the enders in it is plain. -/
theorem plain_of_class {p : Char → Bool} (hp : enders.any p = false) {c : Char} (h : p c = true) :
    Plain c := by
  have hne : ∀ b ∈ enders, c ≠ b := fun b hb e => by
    rw [e] at h
    exact List.any_eq_false.1 hp b hb h
  simp only [enders, List.forall_mem_cons] at hne
  obtain ⟨hspace, htab, hfeed, hform, hreturn, hmark, -⟩ := hne
  unfold Plain isBlank
  simp [hspace, htab, hfeed, hform, hreturn, hmark]

theorem token_append {a b : Text} (ha : Token a) (hb : ∀ c ∈ b, Plain c) : Token (a ++ b) := by
  refine ⟨fun e => ha.1 (List.append_eq_nil_iff.1 e).1, fun c hc => ?_⟩
  rcases List.mem_append.1 hc with hc | hc
  · exact ha.2 c hc
  · exact hb c hc

/-! ## Cutting at separators -/

variable {sep : Char → Bool}

theorem pieces_of_forall : ∀ {t : Text}, (∀ c ∈ t, sep c = false) → pieces sep t = [t]
  | [], _ => rfl
  | c :: r, h => by
    have hr : pieces sep r = [r] := pieces_of_forall fun x hx => h x (List.mem_cons_of_mem c hx)
    unfold pieces
    rw [h c List.mem_cons_self, hr]
    rfl

/-- A separator cuts a text in two, wherever it stands. -/
theorem pieces_append_sep {b : Text} {s : Char} (hs : sep s = true) : ∀ {a : Text},
    pieces sep (a ++ s :: b) = pieces sep a ++ pieces sep b
  | [] => by
    change pieces sep (s :: b) = [] :: pieces sep b
    rw [pieces, if_pos hs]
  | c :: r => by
    obtain ⟨p, ps, hr⟩ := List.exists_cons_of_ne_nil (pieces_ne_nil sep r)
    rw [List.cons_append, pieces, pieces, pieces_append_sep hs, hr]
    by_cases hc : sep c = true
    · rw [if_pos hc, if_pos hc]
      rfl
    · rw [if_neg hc, if_neg hc]
      rfl

theorem pieces_append {a b : Text} {s : Char} (hs : sep s = true) (ha : ∀ c ∈ a, sep c = false) :
    pieces sep (a ++ s :: b) = a :: pieces sep b := by
  rw [pieces_append_sep hs, pieces_of_forall ha]
  rfl

theorem forall_pieces_iff : ∀ {t : Text}, (∀ w ∈ pieces sep t, w = []) ↔ ∀ c ∈ t, sep c = true
  | [] => by simp [pieces]
  | c :: r => by
    unfold pieces
    rw [List.forall_mem_cons]
    split
    · rename_i hc
      rw [List.forall_mem_cons, forall_pieces_iff]
      simp [hc]
    · rename_i hc
      split <;> simp [hc]

theorem not_sep_of_mem_pieces : ∀ {t p : Text}, p ∈ pieces sep t → ∀ c ∈ p, sep c = false
  | [], p, hp, c, hc => by
    rw [pieces, List.mem_singleton] at hp
    rw [hp] at hc
    cases hc
  | x :: r, p, hp, c, hc => by
    obtain ⟨q, qs, hr⟩ := List.exists_cons_of_ne_nil (pieces_ne_nil sep r)
    have hrest : ∀ p ∈ q :: qs, ∀ c ∈ p, sep c = false := hr ▸ fun p hp => not_sep_of_mem_pieces hp
    rw [pieces, hr] at hp
    by_cases hx : sep x = true
    · rw [if_pos hx] at hp
      rcases List.mem_cons.1 hp with rfl | hp
      · cases hc
      · exact hrest p hp c hc
    · rw [if_neg hx] at hp
      rcases List.mem_cons.1 hp with rfl | hp
      · rcases List.mem_cons.1 hc with rfl | hc
        · exact Bool.eq_false_iff.2 hx
        · exact hrest q List.mem_cons_self c hc
      · exact hrest p (List.mem_cons_of_mem q hp) c hc

/-! ## Words -/

variable {a b gap t w : Text} {ws : List Text}

/-- Nothing but blanks. -/
def Blank (t : Text) : Prop := ∀ c ∈ t, isBlank c = true

instance (t : Text) : Decidable (Blank t) := List.decidableBAll (fun c => isBlank c = true) t

theorem words_eq_nil_iff : words t = [] ↔ Blank t := by
  unfold words Blank
  rw [List.filter_eq_nil_iff, ← forall_pieces_iff]
  simp

theorem words_append_blank {s : Char} (hs : isBlank s = true) : words (a ++ s :: b) = words a ++ words b := by
  unfold words
  rw [pieces_append_sep hs, List.filter_append]

theorem words_blank_append : ∀ {gap : Text}, Blank gap → words (gap ++ b) = words b
  | [], _ => rfl
  | c :: gap, h => by
    have hc : words ([] ++ c :: (gap ++ b)) = words [] ++ words (gap ++ b) :=
      words_append_blank (h c List.mem_cons_self)
    rw [words_blank_append fun x hx => h x (List.mem_cons_of_mem c hx)] at hc
    exact hc

/-- **Blanks cut words**, however many there are. -/
theorem words_across (hgap : Blank gap) (hne : gap ≠ []) : words (a ++ gap ++ b) = words a ++ words b := by
  obtain ⟨c, gap, rfl⟩ := List.exists_cons_of_ne_nil hne
  rw [List.append_assoc, List.cons_append, words_append_blank (hgap c List.mem_cons_self),
    words_blank_append fun x hx => hgap x (List.mem_cons_of_mem c hx)]

theorem words_append_of_blank (hb : Blank b) : words (a ++ b) = words a := by
  cases b with
  | nil => rw [List.append_nil]
  | cons c b =>
    rw [words_append_blank (hb c List.mem_cons_self), words_eq_nil_iff.2 fun x hx => hb x (List.mem_cons_of_mem c hx),
      List.append_nil]

/-- The words of a text that ends in a blank end with it. -/
theorem words_append_of_getLast? (hgap : ∀ c ∈ a.getLast?, isBlank c = true) : words (a ++ b) = words a ++ words b := by
  cases hlast : a.getLast? with
  | none =>
    rw [List.getLast?_eq_none_iff.1 hlast]
    rfl
  | some s =>
    obtain ⟨front, rfl⟩ := List.getLast?_eq_some_iff.1 hlast
    have hs : isBlank s = true := hgap s hlast
    have hfront : words (front ++ [s]) = words front := words_append_of_blank fun c hc => List.mem_singleton.1 hc ▸ hs
    rw [hfront, List.append_assoc, List.singleton_append, words_append_blank hs]

theorem words_token (hw : Token w) : words w = [w] := by
  unfold words
  rw [pieces_of_forall fun c hc => (hw.2 c hc).1, List.filter_eq_self]
  intro v hv
  rw [List.mem_singleton.1 hv]
  simpa using hw.1

/-- A word ends before a blank, or at the end. -/
theorem words_token_append (hw : Token w) (hend : ∀ c ∈ b.head?, isBlank c = true) : words (w ++ b) = w :: words b := by
  cases b with
  | nil =>
    rw [List.append_nil, words_token hw]
    rfl
  | cons c b =>
    have hc := hend c rfl
    have hskip : words ([c] ++ b) = words b := words_blank_append fun x hx => List.mem_singleton.1 hx ▸ hc
    rw [words_append_blank hc, words_token hw, ← hskip]
    rfl

/-- The first word and the others, each after one space. -/
def spaced (w : Text) (ws : List Text) : Text := w ++ ws.flatMap fun v => ' ' :: v

/-- **Tokens are the words of the line that they make.** -/
theorem words_spaced : ∀ {w : Text} {ws : List Text}, (∀ v ∈ w :: ws, Token v) → words (spaced w ws) = w :: ws
  | w, [], h => by
    rw [spaced, List.flatMap_nil, List.append_nil]
    exact words_token (h w List.mem_cons_self)
  | w, v :: ws, h => by
    have hrest : words (spaced v ws) = v :: ws := words_spaced fun x hx => h x (List.mem_cons_of_mem w hx)
    have hfirst : words (w ++ ' ' :: spaced v ws) = w :: v :: ws := by
      rw [words_append_blank (by decide), words_token (h w List.mem_cons_self), hrest]
      rfl
    rwa [spaced, List.flatMap_cons, List.cons_append]

theorem mem_spaced {c : Char} (h : c ∈ spaced w ws) :
    c = ' ' ∨ ∃ v ∈ w :: ws, c ∈ v := by
  rcases List.mem_append.1 h with hw | hws
  · exact .inr ⟨w, List.mem_cons_self, hw⟩
  · obtain ⟨v, hv, hc⟩ := List.mem_flatMap.1 hws
    rcases List.mem_cons.1 hc with rfl | hc
    · exact .inl rfl
    · exact .inr ⟨v, List.mem_cons_of_mem w hv, hc⟩

/-! ## Case of letters -/

/-- Lower case makes letters of letters, and leaves everything else. -/
theorem toLower_cases (c : Char) : c.toLower = c ∨ c.isAlpha = true ∧ c.toLower.isAlpha = true := by
  unfold Char.toLower
  split
  · rename_i hupper
    have hlower : 'a'.val ≤ c.val + ('a'.val - 'A'.val) ∧ c.val + ('a'.val - 'A'.val) ≤ 'z'.val := by
      simp only [ge_iff_le, UInt32.le_iff_toNat_le] at hupper ⊢
      simp at hupper ⊢
      omega
    have hbelow := Bool.and_eq_true_iff.2 ⟨decide_eq_true hlower.1, decide_eq_true hlower.2⟩
    exact .inr ⟨Bool.or_eq_true_iff.2 (.inl (decide_eq_true hupper)), Bool.or_eq_true_iff.2 (.inr hbelow)⟩
  · exact .inl rfl

theorem toLower_eq_iff {c e : Char} (he : e.isAlpha = false) : c.toLower = e ↔ c = e := by
  rcases toLower_cases c with hsame | ⟨hc, hlower⟩
  · rw [hsame]
  · refine iff_of_false ?_ ?_
    · rintro rfl
      exact Bool.noConfusion (he.symm.trans hlower)
    · rintro rfl
      exact Bool.noConfusion (he.symm.trans hc)

theorem plain_toLower {c : Char} : Plain c.toLower ↔ Plain c := by
  unfold Plain isBlank
  simp (disch := decide) only [toLower_eq_iff, ne_eq]

/-- A token in other letters is a token. -/
theorem token_of_sameLetters {v : Text} (hw : Token w) (h : w.map Char.toLower = v.map Char.toLower) : Token v := by
  refine ⟨?_, fun c hc => ?_⟩
  · rintro rfl
    exact hw.1 (List.map_eq_nil_iff.1 h)
  · have hlower : c.toLower ∈ w.map Char.toLower := h ▸ List.mem_map_of_mem hc
    obtain ⟨d, hd, hdc⟩ := List.mem_map.1 hlower
    rw [← plain_toLower, ← hdc, plain_toLower]
    exact hw.2 d hd

/-! ## Lines -/

/-- The first line ends before the first line feed. -/
theorem lines_append {l t : Text} (hl : '\n' ∉ l) : lines (l ++ '\n' :: t) = l :: lines t :=
  pieces_append (by decide) fun _ hc => decide_eq_false fun e => hl (e ▸ hc)

/-- **A text is cut into the lines that it was made from**, and an empty last one. -/
theorem lines_terminated : ∀ {ls : List Text}, (∀ l ∈ ls, '\n' ∉ l) →
    lines (ls.flatMap fun l => l ++ ['\n']) = ls ++ [[]]
  | [], _ => rfl
  | l :: ls, h => by
    rw [List.flatMap_cons, List.append_assoc, List.singleton_append, lines_append (h l List.mem_cons_self),
      lines_terminated fun x hx => h x (List.mem_cons_of_mem l hx)]
    rfl

theorem lineFeed_not_mem_of_mem_lines {t l : Text} (h : l ∈ lines t) : '\n' ∉ l := by
  intro hc
  have hsep := not_sep_of_mem_pieces h '\n' hc
  cases hsep

/-- **Lines that are joined are cut again**, if there are any. -/
theorem lines_intercalate : ∀ {ls : List Text}, ls ≠ [] → (∀ l ∈ ls, '\n' ∉ l) → lines (['\n'].intercalate ls) = ls
  | [l], _, h => by
    rw [List.intercalate_singleton]
    exact pieces_of_forall fun c hc => decide_eq_false fun e => h l List.mem_cons_self (e ▸ hc)
  | l :: k :: ls, _, h => by
    rw [List.intercalate_cons_cons, List.append_assoc, List.singleton_append, lines_append (h l List.mem_cons_self),
      lines_intercalate (List.cons_ne_nil k ls) fun x hx => h x (List.mem_cons_of_mem l hx)]

end Text

namespace Source.Line

open Text (Token spaced)

variable {a b w operation : Text} {ws tokens : List Text}

theorem uncommented_append (h : '#' ∉ a) : uncommented (a ++ b) = a ++ uncommented b := by
  unfold uncommented
  rw [List.takeWhile_append_of_pos]
  intro x hx
  exact decide_eq_true fun e => h (e ▸ hx)

theorem uncommented_eq (h : '#' ∉ a) : uncommented a = a := by
  have happend : uncommented (a ++ []) = a ++ [] := uncommented_append h
  rwa [List.append_nil] at happend

theorem not_mark_of_token (h : Token w) : '#' ∉ w := fun hc => (h.2 '#' hc).2 rfl

/-- Where a token ends the code ends as well, or has a blank. -/
theorem isBlank_head_uncommented (hend : ∀ c ∈ b.head?, ¬ Text.Plain c) :
    ∀ c ∈ (uncommented b).head?, Text.isBlank c = true := by
  cases b with
  | nil => nofun
  | cons c b =>
    intro d hd
    have hc := hend c rfl
    by_cases hmark : c = '#'
    · rw [hmark] at hd
      cases hd
    · have hkept : uncommented (c :: b) = c :: uncommented b := List.takeWhile_cons_of_pos (decide_eq_true hmark)
      rw [hkept] at hd
      cases hd
      exact Bool.not_eq_false _ ▸ fun hplain => hc ⟨hplain, hmark⟩

/-- **A token in the code of a line is one of its words**, between those before it and those behind it. -/
theorem words_around_token (ha : '#' ∉ a) (hgap : ∀ c ∈ a.getLast?, Text.isBlank c = true) (hw : Token w)
    (hend : ∀ c ∈ b.head?, ¬ Text.Plain c) :
    Text.words (uncommented (a ++ w ++ b)) = Text.words a ++ w :: Text.words (uncommented b) := by
  rw [List.append_assoc, uncommented_append ha, uncommented_append (not_mark_of_token hw),
    Text.words_append_of_getLast? hgap, Text.words_token_append hw (isBlank_head_uncommented hend)]

/-! ## One more argument -/

/-- **A line has room for one more argument** between two texts: an instruction without a comment is in front,
and ends in a blank; behind it is a blank or a comment, or nothing. -/
structure Room (a b operation : Text) (tokens : List Text) : Prop where
  instruction : read a = .instruction operation tokens
  code        : '#' ∉ a
  gap         : ∀ c ∈ a.getLast?, Text.isBlank c = true
  ends        : ∀ c ∈ b.head?, ¬ Text.Plain c
  oneLine     : '\n' ∉ a ++ b

theorem ofWords_append_of_instruction (h : ofWords ws = .instruction operation tokens) (more : List Text) :
    ofWords (ws ++ more) = .instruction operation (tokens ++ more) := by
  cases ws with
  | nil => cases h
  | cons v ws =>
    rw [ofWords] at h
    split at h
    · cases h
    · rename_i hdot
      cases h
      exact if_neg hdot

/-- **A token in the room for an argument is that argument.** -/
theorem Room.read_token (h : Room a b operation tokens) (hw : Token w) :
    read (a ++ w ++ b) = .instruction operation (tokens ++ w :: Text.words (uncommented b)) := by
  have hfront : ofWords (Text.words a) = .instruction operation tokens := by
    rw [← uncommented_eq h.code]
    exact h.instruction
  unfold read
  rw [words_around_token h.code h.gap hw h.ends]
  exact ofWords_append_of_instruction hfront _

theorem Room.lineFeed_not_mem (h : Room a b operation tokens) (hw : Token w) : '\n' ∉ a ++ w ++ b := by
  have hfeed : '\n' ∉ w := fun hc => absurd (hw.2 '\n' hc).1 (by decide)
  have hline := h.oneLine
  simp only [List.mem_append, not_or] at hline ⊢
  exact ⟨⟨hline.1, hfeed⟩, hline.2⟩

/-! ## Lines of tokens -/

theorem read_spaced {w : Text} {ws : List Text} (h : ∀ v ∈ w :: ws, Token v) :
    read (spaced w ws) = ofWords (w :: ws) := by
  have hmark : '#' ∉ spaced w ws := fun hc => by
    rcases Text.mem_spaced hc with e | ⟨v, hv, hc⟩
    · cases e
    · exact ((h v hv).2 '#' hc).2 rfl
  unfold read
  rw [uncommented_eq hmark, Text.words_spaced h]

theorem line_feed_not_mem {w : Text} {ws : List Text} (h : ∀ v ∈ w :: ws, Token v) : '\n' ∉ spaced w ws := by
  intro hc
  rcases Text.mem_spaced hc with e | ⟨v, hv, hc⟩
  · cases e
  · have hblank := ((h v hv).2 '\n' hc).1
    cases hblank

end Source.Line

end IppCode
