import Mathlib.Tactic.SplitIfs
import IppCode.Utf8
/-!
# Bytes — texts as UTF-8

A text is written character by character, and what is written can be read (`decode?_eq_some`).  The
characters below 128 are bytes of their own, which are no part of any other character
(`encodeChar_of_mem`): a separator can be looked for among the bytes as well.
-/
namespace IppCode.Utf8

variable {c : Char} {b : UInt8} {bytes : Bytes} {t : Text}

theorem encode_eq_flatMap (t : Text) : encode t = t.flatMap String.utf8EncodeChar := by
  simp [encode, List.utf8Encode]

theorem encode_append (t u : Text) : encode (t ++ u) = encode t ++ encode u := by
  rw [encode_eq_flatMap, encode_eq_flatMap, encode_eq_flatMap, List.flatMap_append]

theorem encode_cons (c : Char) (t : Text) : encode (c :: t) = String.utf8EncodeChar c ++ encode t := by
  rw [encode_eq_flatMap, encode_eq_flatMap, List.flatMap_cons]

theorem encodeChar_ne_nil (c : Char) : String.utf8EncodeChar c ≠ [] := by
  unfold String.utf8EncodeChar
  simp only
  split_ifs <;> exact List.cons_ne_nil _ _

theorem decode?_eq_some : decode? bytes = some t ↔ encode t = bytes := by
  constructor
  · exact encode_of_decode
  · rintro rfl
    exact decode_encode t

/-- **A byte below 128 is a character of its own**, and no part of another one. -/
theorem encodeChar_of_mem (hb : b.toNat < 128) (h : b ∈ String.utf8EncodeChar c) :
    String.utf8EncodeChar c = [b] ∧ c.toNat = b.toNat := by
  have hcode : c.toNat = c.val.toNat := rfl
  unfold String.utf8EncodeChar at h ⊢
  rw [hcode]
  generalize c.val.toNat = n at h ⊢
  have hother (m : Nat) (hlow : 128 ≤ m) (hhigh : m < 256) : ¬ b = UInt8.ofNat m := by
    rintro rfl
    rw [UInt8.toNat_ofNat_of_lt' hhigh] at hb
    omega
  simp only at h ⊢
  split_ifs at h ⊢ with hone
  · rw [List.mem_singleton] at h
    subst h
    exact ⟨rfl, (UInt8.toNat_ofNat_of_lt' (show n < 256 by omega)).symm⟩
  -- All bytes of a longer character are greater.
  all_goals simp (disch := omega) only [List.mem_cons, List.not_mem_nil, hother, or_false] at h

/-- A byte that is one of a character below 128 is written for this character only. -/
theorem eq_of_mem_encodeChar {d : Char} (hb : b.toNat < 128) (hd : d.toNat = b.toNat) (h : b ∈ String.utf8EncodeChar c) :
    c = d := by
  rw [← Char.ofNat_toNat c, ← Char.ofNat_toNat d, (encodeChar_of_mem hb h).2, hd]

end IppCode.Utf8
