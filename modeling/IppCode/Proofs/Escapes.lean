import IppCode.Escape
import IppCode.Proofs.Digits
import IppCode.Proofs.Tokens
/-!
# Escapes — every text is one token, and is read back

An escape is a backslash and three digits, which are those of a code below 1000 (`exists_spell_of_coded`);
every other character stands for itself.  So what is written has an escape at every backslash
(`escaped_encode`), nothing in it ends a token (`code_of_mem_encode`), and reading gives the text
again (`decode_encode`).  Written as a constant it is one more token of the line that it is
put in (`encode_lossless`).
-/
namespace IppCode

theorem Numeral.plain_of_mem_ofInt (n : Int) : ∀ c ∈ ofInt n, Text.Plain c := by
  have hdigits : ∀ k, ∀ c ∈ ofNat k, Text.Plain c := fun k c hc =>
    Text.plain_of_class (by decide) (isDigit_of_mem_ofNat k c hc)
  unfold ofInt
  by_cases h : n < 0
  · rw [if_pos h, List.forall_mem_cons]
    exact ⟨by decide, hdigits _⟩
  · rw [if_neg h]
    exact hdigits _

/-! ## Marks with digits behind them -/

section Marks

variable {α : Type} {mark x : α} {digit : α → Bool} {l : List α}

/-- **A code is in front**: three digits. -/
inductive Coded (digit : α → Bool) : List α → Prop
  | digits {a b c : α} {r : List α} (ha : digit a = true) (hb : digit b = true) (hc : digit c = true) :
      Coded digit (a :: b :: c :: r)

/-- **Every mark begins an escape**: a code is behind it. -/
def Escaped (mark : α) (digit : α → Bool) (l : List α) : Prop := ∀ r, mark :: r <:+ l → Coded digit r

theorem coded_iff : Coded digit l ↔ 3 ≤ l.length ∧ (l.take 3).all digit = true := by
  constructor
  · rintro ⟨ha, hb, hc⟩
    simp [ha, hb, hc]
  · rintro ⟨hlength, hall⟩
    match l, hlength, hall with
    | a :: b :: c :: r, _, hall =>
      simp only [List.take_succ_cons, List.take_zero, List.all_cons, List.all_nil, Bool.and_true, Bool.and_eq_true] at hall
      exact .digits hall.1 hall.2.1 hall.2.2

theorem escaped_nil : Escaped mark digit [] := by simp [Escaped]

theorem escaped_cons : Escaped mark digit (x :: l) ↔ (mark = x → Coded digit l) ∧ Escaped mark digit l := by
  unfold Escaped
  simp only [List.suffix_cons_iff, List.cons.injEq]
  constructor
  · intro h
    exact ⟨fun hx => h l (.inl ⟨hx, rfl⟩), fun r hr => h r (.inr hr)⟩
  · rintro ⟨hfirst, hrest⟩ r (⟨hx, rfl⟩ | hr)
    · exact hfirst hx
    · exact hrest r hr

end Marks

namespace Escape

variable {c : Char} {n : Nat} {r t : Text}

/-- **The check finds a code behind every backslash.** -/
theorem wellFormed_iff : ∀ {t : Text}, wellFormed t = true ↔ Escaped '\\' (Numeral.isDigit 10) t
  | [] => iff_of_true rfl escaped_nil
  | c :: r => by
    rw [escaped_cons, coded_iff, ← wellFormed_iff, wellFormed, Bool.and_eq_true]
    by_cases h : c = '\\'
    · simp [h]
    · simp [h, Ne.symm h]

theorem wellFormed_cons (hc : c ≠ '\\') (r : Text) : wellFormed (c :: r) = wellFormed r := by
  simp [wellFormed, hc]

/-! ## Three digits -/

theorem digitChar_ne_backslash : ∀ d < 10, Nat.digitChar d ≠ '\\' := by decide

/-- The code that three digits spell. -/
theorem natural?_digitChar {a b c : Nat} (ha : a < 10) (hb : b < 10) (hc : c < 10) :
    Numeral.natural? 10 [Nat.digitChar a, Nat.digitChar b, Nat.digitChar c] = some (10 * (10 * a + b) + c) := by
  have hdigit {d : Nat} (hd : d < 10) : Numeral.Digit 10 (Nat.digitChar d) d := Numeral.digit_digitChar hd (by decide)
  exact (Numeral.natural?_eq_some (by decide)).2 (((Numeral.Denotes.digit (hdigit ha)).snoc (hdigit hb)).snoc (hdigit hc))

/-- **The digits of an escape are read as its code.** -/
theorem natural?_spelled (h : n < 1000) :
    Numeral.natural? 10 [Nat.digitChar (n / 100), Nat.digitChar (n / 10 % 10), Nat.digitChar (n % 10)] = some n := by
  rw [natural?_digitChar (by omega) (by omega) (by omega), Option.some.injEq]
  omega

/-- What is no code in front of a text spells none. -/
theorem natural?_eq_none_of_not_coded {a b : Char} (h : ¬ Coded (Numeral.isDigit 10) (a :: b :: c :: r)) :
    Numeral.natural? 10 [a, b, c] = none := by
  rw [coded_iff] at h
  simp only [List.length_cons, List.take_succ_cons, List.take_zero, Nat.le_add_left, true_and] at h
  unfold Numeral.natural?
  simp [h]

theorem coded_spelled (h : n < 1000) (r : Text) : Coded (Numeral.isDigit 10)
    (Nat.digitChar (n / 100) :: Nat.digitChar (n / 10 % 10) :: Nat.digitChar (n % 10) :: r) :=
  .digits (Numeral.isDigit_digitChar (by omega)) (Numeral.isDigit_digitChar (by omega))
    (Numeral.isDigit_digitChar (by omega))

/-- **A backslash and three digits are the escape of a code.** -/
theorem exists_spell_of_coded (h : Coded (Numeral.isDigit 10) r) : ∃ n < 1000, ∃ rest, '\\' :: r = spell n ++ rest := by
  have hdigit {d : Char} (hd : Numeral.isDigit 10 d = true) : ∃ k < 10, d = Nat.digitChar k := by
    obtain ⟨k, hk⟩ := (Numeral.isDigit_iff (by decide)).1 hd
    exact ⟨k, hk.1, hk.eq_digitChar⟩
  obtain ⟨ha, hb, hc⟩ := h
  rename_i r
  obtain ⟨a, hlta, rfl⟩ := hdigit ha
  obtain ⟨b, hltb, rfl⟩ := hdigit hb
  obtain ⟨c, hltc, rfl⟩ := hdigit hc
  have hvalues : (10 * (10 * a + b) + c) / 100 = a ∧ (10 * (10 * a + b) + c) / 10 % 10 = b ∧
      (10 * (10 * a + b) + c) % 10 = c := by omega
  refine ⟨10 * (10 * a + b) + c, by omega, r, ?_⟩
  rw [spell, hvalues.1, hvalues.2.1, hvalues.2.2]
  rfl

/-! ## Escapes -/

theorem spell_append (n : Nat) (r : Text) : spell n ++ r =
    '\\' :: Nat.digitChar (n / 100) :: Nat.digitChar (n / 10 % 10) :: Nat.digitChar (n % 10) :: r := rfl

/-- **An escape is read as the character that it names.** -/
theorem decode_spell (h : n < 1000) (r : Text) : decode (spell n ++ r) = Char.ofNat n :: decode r := by
  rw [spell_append, decode, named?, natural?_spelled h]
  rfl

/-- **A character stands for itself**, also a backslash that no code is behind. -/
theorem decode_kept (h : c = '\\' → ¬ Coded (Numeral.isDigit 10) r) : decode (c :: r) = c :: decode r := by
  rw [decode.eq_def]
  split
  · rename_i heq
    cases heq
    rw [named?, natural?_eq_none_of_not_coded (h rfl)]
    rfl
  · rename_i heq
    cases heq
    rfl
  · contradiction

theorem decode_cons (hc : c ≠ '\\') (r : Text) : decode (c :: r) = c :: decode r :=
  decode_kept fun h => absurd h hc

theorem wellFormed_spell (h : n < 1000) (r : Text) : wellFormed (spell n ++ r) = wellFormed r := by
  have hcode := coded_iff.1 (coded_spelled h r)
  rw [spell_append, wellFormed, decide_eq_true hcode.1, hcode.2, wellFormed_cons (digitChar_ne_backslash _ (by omega)),
    wellFormed_cons (digitChar_ne_backslash _ (by omega)), wellFormed_cons (digitChar_ne_backslash _ (by omega))]
  rfl

theorem code_of_mem_spell (h : n < 1000) : ∀ c ∈ spell n, 32 < c.toNat ∧ c ≠ '#' := by
  have hdigits : ∀ d < 10, 32 < (Nat.digitChar d).toNat ∧ Nat.digitChar d ≠ '#' := by decide
  unfold spell
  simp only [List.forall_mem_cons]
  exact ⟨by decide, hdigits _ (by omega), hdigits _ (by omega), hdigits _ (by omega), by simp⟩

/-! ## Characters -/

theorem lt_of_mustEscape (h : mustEscape c = true) : c.toNat < 1000 := by
  unfold mustEscape at h
  simp only [Bool.or_eq_true, decide_eq_true_eq] at h
  rcases h with (h | rfl) | rfl
  · omega
  · decide
  · decide

/-- A character that stands for itself ends no token and begins no escape. -/
theorem code_of_not_mustEscape (h : mustEscape c = false) : (32 < c.toNat ∧ c ≠ '#') ∧ c ≠ '\\' := by
  simpa [mustEscape, and_assoc] using h

theorem decode_encodeChar (c : Char) (r : Text) : decode (encodeChar c ++ r) = c :: decode r := by
  unfold encodeChar
  by_cases h : mustEscape c = true
  · rw [if_pos h, decode_spell (lt_of_mustEscape h), Char.ofNat_toNat]
  · rw [if_neg h]
    exact decode_cons (code_of_not_mustEscape (Bool.eq_false_iff.2 h)).2 r

theorem wellFormed_encodeChar (c : Char) (r : Text) : wellFormed (encodeChar c ++ r) = wellFormed r := by
  unfold encodeChar
  by_cases h : mustEscape c = true
  · rw [if_pos h, wellFormed_spell (lt_of_mustEscape h)]
  · rw [if_neg h]
    exact wellFormed_cons (code_of_not_mustEscape (Bool.eq_false_iff.2 h)).2 r

/-! ## Whole texts -/

/-- **A text that is written is read back.** -/
theorem decode_encode : ∀ t : Text, decode (encode t) = t
  | [] => rfl
  | c :: r => by
    rw [encode, List.flatMap_cons, decode_encodeChar]
    exact congrArg (c :: ·) (decode_encode r)

/-- **An escape is at every backslash of what is written.** -/
theorem wellFormed_encode : ∀ t : Text, wellFormed (encode t) = true
  | [] => rfl
  | c :: r => by
    rw [encode, List.flatMap_cons, wellFormed_encodeChar]
    exact wellFormed_encode r

theorem escaped_encode (t : Text) : Escaped '\\' (Numeral.isDigit 10) (encode t) := wellFormed_iff.1 (wellFormed_encode t)

/-- **Nothing that is written is a blank, a control character or a mark.** -/
theorem code_of_mem_encode (h : c ∈ encode t) : 32 < c.toNat ∧ c ≠ '#' := by
  obtain ⟨d, -, hc⟩ := List.mem_flatMap.1 h
  unfold encodeChar at hc
  by_cases hd : mustEscape d = true
  · rw [if_pos hd] at hc
    exact code_of_mem_spell (lt_of_mustEscape hd) c hc
  · rw [if_neg hd, List.mem_singleton] at hc
    rw [hc]
    exact (code_of_not_mustEscape (Bool.eq_false_iff.2 hd)).1

theorem plain_of_mem_encode (h : c ∈ encode t) : Text.Plain c :=
  Text.plain_of_class (p := fun d => 32 < d.toNat && d ≠ '#') (by decide) (by simp [code_of_mem_encode h])

theorem token_encode (t : Text) : Text.Token ("string@" ++ encode t) :=
  Text.token_append (by decide) fun _ hc => plain_of_mem_encode hc

/-- **Escapes lose nothing, and keep a text in one token.**  What is written is read as the text again.
It has no blank, no control character and no mark in it, and a code behind every backslash, as the check
wants it.  So wherever a line has room for an argument, a constant that is written there is one of the words
that come back from cutting the whole text into lines and this line into words. -/
theorem encode_lossless (t : Text) :
    decode (encode t) = t ∧ (∀ c ∈ encode t, 32 < c.toNat ∧ c ≠ '#') ∧
    Escaped '\\' (Numeral.isDigit 10) (encode t) ∧ wellFormed (encode t) = true ∧
    ∀ (a b operation : Text) (tokens before after : List Text), Source.Line.Room a b operation tokens →
      (∀ l ∈ before ++ after, '\n' ∉ l) →
      let l := a ++ ("string@" ++ encode t) ++ b
      Text.lines (['\n'].intercalate (before ++ l :: after)) = before ++ l :: after ∧
      Source.Line.uncommented l = a ++ ("string@" ++ encode t) ++ Source.Line.uncommented b ∧
      Source.Line.read l = .instruction operation
        (tokens ++ ("string@" ++ encode t) :: Text.words (Source.Line.uncommented b)) := by
  refine ⟨decode_encode t, fun _ => code_of_mem_encode, escaped_encode t, wellFormed_encode t,
    fun a b operation tokens before after hroom hlines => ?_⟩
  have hfeed := hroom.lineFeed_not_mem (token_encode t)
  refine ⟨Text.lines_intercalate (by simp) fun l hl => ?_, ?_, hroom.read_token (token_encode t)⟩
  · rcases List.mem_append.1 hl with hl | hl
    · exact hlines l (List.mem_append_left after hl)
    · rcases List.mem_cons.1 hl with rfl | hl
      · exact hfeed
      · exact hlines l (List.mem_append_right before hl)
  · rw [List.append_assoc a, Source.Line.uncommented_append hroom.code,
      Source.Line.uncommented_append (Source.Line.not_mark_of_token (token_encode t)), List.append_assoc a]

/-- A text that looks like an escape, with a mark and a line feed, in front of another constant and a comment. -/
theorem encode_lossless_of_marks :
    let t : Text := "\\032 #\nž\\"
    let a : Text := "\tConcat GF@x "
    let b : Text := "\tstring@\\035#x"
    let before : List Text := [".IPPcode24", "DEFVAR GF@x"]
    let after : List Text := ["# end", ""]
    let l : Text := "\tConcat GF@x string@\\092032\\032\\035\\010ž\\092\tstring@\\035#x"
    let tokens : List Text := ["GF@x", "string@\\092032\\032\\035\\010ž\\092", "string@\\035"]
    Source.Line.Room a b "Concat" ["GF@x"] ∧ (∀ k ∈ before ++ after, '\n' ∉ k) ∧ decode (encode t) = t ∧
      a ++ ("string@" ++ encode t) ++ b = l ∧
      Text.lines (['\n'].intercalate (before ++ l :: after)) = before ++ l :: after ∧
      Source.Line.read l = .instruction "Concat" tokens := by
  intro t a b before after l tokens
  have hends : a.getLast? = some ' ' ∧ b.head? = some '\t' := by decide +kernel
  have hroom : Source.Line.Room a b "Concat" ["GF@x"] := by
    refine ⟨by decide +kernel, by decide +kernel, ?_, ?_, by decide +kernel⟩
    · rw [hends.1]
      rintro c ⟨⟩
      decide
    · rw [hends.2]
      rintro c ⟨⟩
      decide
  have hlines : ∀ k ∈ before ++ after, '\n' ∉ k := by decide +kernel
  have hl : a ++ ("string@" ++ encode t) ++ b = l := by decide +kernel
  have hwords : [("GF@x" : Text)] ++ ("string@" ++ encode t) :: Text.words (Source.Line.uncommented b) = tokens := by
    decide +kernel
  obtain ⟨hdecode, -, -, -, hline⟩ := encode_lossless t
  obtain ⟨hcut, -, hread⟩ := hline a b "Concat" ["GF@x"] before after hroom hlines
  simp only [hl] at hcut
  rw [hl, hwords] at hread
  exact ⟨hroom, hlines, hdecode, hl, hcut, hread⟩

end Escape

end IppCode
