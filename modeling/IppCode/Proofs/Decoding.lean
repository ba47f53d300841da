import Mathlib.Data.List.TakeWhile
import IppCode.Proofs.Bytes
import IppCode.Proofs.Escapes
/-!
# Decoding — what reading makes of each backslash

Reading takes a text in parts, from the left: an escape where a code is behind a backslash, and every
other character as it is (`parts`).  The check instead looks behind every backslash, at whatever place,
and may do so among the bytes of the text (`wellFormedBytes_encode`).  As no code has a backslash in it,
reading skips none, so that the check finds no fault iff no backslash stays what it is, which the length
of what is read shows as well (`check_exact`).
-/
namespace IppCode

/-! ## Marks at places -/

section Marks

variable {α : Type} {mark : α} {digit : α → Bool} {l front : List α}

theorem escaped_iff_getElem? : Escaped mark digit l ↔ ∀ i, l[i]? = some mark → Coded digit (l.drop (i + 1)) := by
  constructor
  · intro h i hi
    obtain ⟨hlt, hmark⟩ := List.getElem?_eq_some_iff.1 hi
    refine h _ ?_
    rw [← hmark, ← List.drop_eq_getElem_cons hlt]
    exact List.drop_suffix i l
  · rintro h r ⟨front, rfl⟩
    have hcode := h front.length (by simp)
    rwa [← List.drop_drop, List.drop_left, List.drop_one, List.tail_cons] at hcode

theorem escaped_append (hfront : mark ∉ front) : Escaped mark digit (front ++ l) ↔ Escaped mark digit l := by
  induction front with
  | nil => rfl
  | cons x front ih =>
    obtain ⟨hx, hrest⟩ := not_or.1 (List.mem_cons.not.1 hfront)
    rw [List.cons_append, escaped_cons, ih hrest]
    exact and_iff_right fun h => absurd h hx

/-- A code is in front iff at least three digits are. -/
theorem coded_iff_takeWhile : Coded digit l ↔ 3 ≤ (l.takeWhile digit).length := by
  constructor
  · rintro ⟨ha, hb, hc⟩
    simp [ha, hb, hc]
  · intro h
    have hprefix : l.takeWhile digit <+: l := List.takeWhile_prefix digit
    have htake : l.take 3 = (l.takeWhile digit).take 3 := (List.prefix_iff_eq_take.1 hprefix ▸ by
      rw [List.take_take, Nat.min_eq_left h])
    rw [coded_iff, htake]
    exact ⟨Nat.le_trans h hprefix.length_le, List.all_eq_true.2 fun x hx =>
      List.mem_takeWhile_imp (List.mem_of_mem_take hx)⟩

end Marks

namespace Escape

/-! ## The check on bytes -/

def isDigitByte (b : UInt8) : Bool := 0x30 ≤ b && b ≤ 0x39

/-- **The check on bytes**: at every place with a backslash the next three bytes are there, and are digits. -/
def wellFormedBytes (bytes : Utf8.Bytes) : Bool :=
  bytes.zipIdx.all fun q =>
    q.1 != 0x5C || (q.2 + 4 ≤ bytes.length && ((bytes.drop (q.2 + 1)).take 3).all isDigitByte)

variable {bytes : Utf8.Bytes} {c : Char} {b : UInt8} {n : Nat} {r t : Text}

theorem wellFormedBytes_iff : wellFormedBytes bytes = true ↔ Escaped 0x5C isDigitByte bytes := by
  unfold wellFormedBytes
  rw [escaped_iff_getElem?, List.all_eq_true, Prod.forall, forall_comm]
  refine forall_congr' fun i => ?_
  have hlength : i + 4 ≤ bytes.length ↔ 3 ≤ (bytes.drop (i + 1)).length := by
    rw [List.length_drop]
    omega
  simp only [List.mk_mem_zipIdx_iff_getElem?, coded_iff, ← hlength]
  constructor
  · intro h hi
    simpa using h 0x5C hi
  · intro h b hi
    by_cases hb : b = 0x5C
    · subst hb
      simpa using h hi
    · simp [hb]

/-! ## Digits among bytes -/

/-- A digit is one byte, and a digit among bytes. -/
theorem encodeChar_of_isDigit (h : Numeral.isDigit 10 c = true) :
    ∃ b, String.utf8EncodeChar c = [b] ∧ isDigitByte b = true := by
  have hbytes : ∀ d < 10, String.utf8EncodeChar (Nat.digitChar d) = [UInt8.ofNat (48 + d)] ∧
      isDigitByte (UInt8.ofNat (48 + d)) = true := by decide
  obtain ⟨d, hd⟩ := (Numeral.isDigit_iff (by decide)).1 h
  rw [hd.eq_digitChar]
  exact ⟨_, hbytes d hd.1⟩

theorem isDigit_of_mem_encodeChar (hb : isDigitByte b = true) (h : b ∈ String.utf8EncodeChar c) :
    Numeral.isDigit 10 c = true := by
  have hcodes : ∀ k < 58, 48 ≤ k → Numeral.isDigit 10 (Char.ofNat k) = true := by decide
  unfold isDigitByte at hb
  simp only [Bool.and_eq_true, decide_eq_true_eq, UInt8.le_iff_toNat_le] at hb
  have hbounds : 48 ≤ b.toNat ∧ b.toNat ≤ 57 := hb
  rw [← Char.ofNat_toNat c, (Utf8.encodeChar_of_mem (by omega) h).2]
  exact hcodes _ (by omega) hbounds.1

/-- **As many digits are in front of the bytes as of the text.** -/
theorem length_takeWhile_encode : ∀ t : Text,
    ((Utf8.encode t).takeWhile isDigitByte).length = (t.takeWhile (Numeral.isDigit 10)).length
  | [] => rfl
  | c :: r => by
    rw [Utf8.encode_cons]
    by_cases h : Numeral.isDigit 10 c = true
    · obtain ⟨b, hbyte, hb⟩ := encodeChar_of_isDigit h
      rw [hbyte, List.singleton_append, List.takeWhile_cons_of_pos hb, List.takeWhile_cons_of_pos h,
        List.length_cons, List.length_cons, length_takeWhile_encode r]
    · obtain ⟨b, bs, hbytes⟩ := List.exists_cons_of_ne_nil (Utf8.encodeChar_ne_nil c)
      have hb : ¬ isDigitByte b = true := fun hb => h (isDigit_of_mem_encodeChar hb (hbytes ▸ List.mem_cons_self))
      rw [hbytes, List.cons_append, List.takeWhile_cons_of_neg hb, List.takeWhile_cons_of_neg h]
      rfl

theorem coded_encode_iff : Coded isDigitByte (Utf8.encode t) ↔ Coded (Numeral.isDigit 10) t := by
  rw [coded_iff_takeWhile, coded_iff_takeWhile, length_takeWhile_encode]

/-- **Backslashes have codes behind them in a text iff they have in its bytes.** -/
theorem escaped_encode_iff : ∀ {t : Text},
    Escaped 0x5C isDigitByte (Utf8.encode t) ↔ Escaped '\\' (Numeral.isDigit 10) t
  | [] => iff_of_true escaped_nil escaped_nil
  | c :: r => by
    rw [Utf8.encode_cons, escaped_cons, ← escaped_encode_iff]
    by_cases h : '\\' = c
    · have hbyte : String.utf8EncodeChar '\\' = [0x5C] := by decide
      rw [← h, hbyte, List.singleton_append, escaped_cons, coded_encode_iff]
      simp
    · have hnone : 0x5C ∉ String.utf8EncodeChar c := fun hc =>
        h (Utf8.eq_of_mem_encodeChar (by decide) (by decide) hc).symm
      rw [escaped_append hnone]
      exact (and_iff_right fun hc => absurd hc h).symm

/-- **The check on bytes is the check on characters.** -/
theorem wellFormedBytes_encode (t : Text) : wellFormedBytes (Utf8.encode t) = wellFormed t := by
  rw [Bool.eq_iff_iff, wellFormedBytes_iff, wellFormed_iff, escaped_encode_iff]

/-! ## Parts -/

/-- **What reading takes at once**: the escape of a code, or a character that stays what it is. -/
inductive Part
  | escape (code : Fin 1000)
  | kept (c : Char)
deriving DecidableEq

namespace Part

/-- How the part is written. -/
def text : Part → Text
  | escape n => spell n
  | kept c   => [c]

/-- What the part is read as. -/
def read : Part → Char
  | escape n => Char.ofNat n
  | kept c   => c

end Part

/-- **The parts in which a text is read**, one after another. -/
def parts : Text → List Part
  | '\\' :: a :: b :: c :: r =>
    match Numeral.natural? 10 [a, b, c] with
    | some n => .escape (Fin.ofNat 1000 n) :: parts r
    | none   => .kept '\\' :: parts (a :: b :: c :: r)
  | c :: r => .kept c :: parts r
  | []     => []

theorem parts_spell (n : Fin 1000) (r : Text) : parts (spell n ++ r) = .escape n :: parts r := by
  rw [spell_append, parts, natural?_spelled n.isLt]
  exact congrArg (Part.escape · :: parts r) (Fin.ofNat_val_eq_self n)

theorem parts_kept (h : c = '\\' → ¬ Coded (Numeral.isDigit 10) r) : parts (c :: r) = .kept c :: parts r := by
  rw [parts.eq_def]
  split
  · rename_i heq
    cases heq
    rw [natural?_eq_none_of_not_coded (h rfl)]
  · rename_i heq
    cases heq
    rfl
  · contradiction

/-- **Induction along a reading**: from the left a text is an escape and a rest, or a character and a rest. -/
theorem reading_induction {P : Text → Prop} (nil : P []) (escape : ∀ (n : Fin 1000) r, P r → P (spell n ++ r))
    (kept : ∀ c r, (c = '\\' → ¬ Coded (Numeral.isDigit 10) r) → P r → P (c :: r)) : ∀ t, P t
  | [] => nil
  | c :: r => by
    by_cases h : c = '\\' ∧ Coded (Numeral.isDigit 10) r
    · obtain ⟨n, hn, rest, hrest⟩ := exists_spell_of_coded h.2
      have hlength : rest.length < (c :: r).length := by
        rw [h.1, hrest, List.length_append]
        exact Nat.lt_add_of_pos_left (Nat.succ_pos 3)
      rw [h.1, hrest]
      exact escape ⟨n, hn⟩ rest (reading_induction nil escape kept rest)
    · exact kept c r (not_and.1 h) (reading_induction nil escape kept r)
termination_by t => t.length
decreasing_by
  · exact hlength
  · exact Nat.lt_succ_self r.length

/-- **Nothing is left out** when a text is read in parts. -/
theorem text_parts (t : Text) : (parts t).flatMap Part.text = t := by
  induction t using reading_induction with
  | nil => rfl
  | escape n r ih =>
    rw [parts_spell, List.flatMap_cons, ih]
    rfl
  | kept c r h ih =>
    rw [parts_kept h, List.flatMap_cons, ih]
    rfl

/-- **Each part is read as one character.** -/
theorem read_parts (t : Text) : (parts t).map Part.read = decode t := by
  induction t using reading_induction with
  | nil => rfl
  | escape n r ih =>
    rw [parts_spell, List.map_cons, ih, decode_spell n.isLt]
    rfl
  | kept c r h ih =>
    rw [parts_kept h, List.map_cons, ih, decode_kept h]
    rfl

/-- **The check finds no fault iff no backslash stays what it is.** -/
theorem wellFormed_iff_parts (t : Text) : wellFormed t = true ↔ Part.kept '\\' ∉ parts t := by
  induction t using reading_induction with
  | nil => exact iff_of_true rfl List.not_mem_nil
  | escape n r ih =>
    rw [parts_spell, wellFormed_spell n.isLt, ih]
    simp
  | kept c r h ih =>
    rw [parts_kept h]
    by_cases hc : c = '\\'
    · subst hc
      refine iff_of_false (fun hformed => h rfl ?_) (fun hnone => hnone List.mem_cons_self)
      exact (escaped_cons.1 (wellFormed_iff.1 hformed)).1 rfl
    · rw [wellFormed_cons hc, ih]
      simp [Ne.symm hc]

/-! ## Lengths -/

theorem count_spell (n : Fin 1000) : (spell n).count '\\' = 1 := by
  have hdigit (d : Nat) (h : d < 10) : '\\' ≠ Nat.digitChar d := (digitChar_ne_backslash d h).symm
  unfold spell
  rw [List.count_cons_self, Nat.add_eq_right, List.count_eq_zero]
  simp only [List.mem_cons, List.not_mem_nil, or_false, not_or]
  exact ⟨hdigit _ (by omega), hdigit _ (by omega), hdigit _ (by omega)⟩

/-- **Three characters go with every backslash** but those that stay what they are. -/
theorem length_add_kept (t : Text) :
    t.length + 3 * (parts t).count (.kept '\\') = (decode t).length + 3 * t.count '\\' := by
  induction t using reading_induction with
  | nil => rfl
  | escape n r ih =>
    have hlength : (spell n).length = 4 := rfl
    have hpart : Part.escape n ≠ .kept '\\' := Part.noConfusion
    rw [parts_spell, decode_spell n.isLt, List.count_cons_of_ne hpart, List.count_append, count_spell,
      List.length_append, hlength, List.length_cons]
    omega
  | kept c r h ih =>
    rw [parts_kept h, decode_kept h, List.length_cons, List.length_cons, List.count_cons, List.count_cons]
    by_cases hc : c = '\\'
    · simp only [hc, beq_self_eq_true, if_true]
      omega
    · simp only [beq_iff_eq, Part.kept.injEq, hc, if_false]
      omega

/-- **The check and the reading agree.**  A text is read in parts, each of which is an escape or a character that
stays what it is.  The check, which is made on the bytes of the text and at all places of it, finds no fault iff no
backslash stays what it is; and what is read then, and only then, has three characters less for each backslash. -/
theorem check_exact (t : Text) :
    ((parts t).flatMap Part.text = t ∧ (parts t).map Part.read = decode t) ∧
    wellFormedBytes (Utf8.encode t) = wellFormed t ∧
    (wellFormedBytes (Utf8.encode t) = true ↔ Part.kept '\\' ∉ parts t) ∧
    (wellFormedBytes (Utf8.encode t) = true ↔ (decode t).length + 3 * t.count '\\' = t.length) := by
  have hlength := length_add_kept t
  rw [wellFormedBytes_encode, wellFormed_iff_parts]
  refine ⟨⟨text_parts t, read_parts t⟩, rfl, Iff.rfl, ?_⟩
  rw [← List.count_eq_zero]
  omega

/-- A code that breaks off, two escapes side by side, and a backslash at the end. -/
example : parts "\\03\\035\\092\\" = [.kept '\\', .kept '0', .kept '3', .escape 35, .escape 92, .kept '\\'] := by
  decide +kernel

end Escape

end IppCode
