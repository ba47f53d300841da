import Mathlib.Tactic.SplitIfs
import IppCode.Proofs.Bytes
/-!
# ByteOrder — texts compared byte by byte

Texts are ordered by their characters.  Written as bytes they are in the same order: characters of
more bytes begin with higher ones, and among those of equally many bytes the first byte that is
different decides (`encodeChar_lt`).  So comparing bytes is comparing code points
(`encode_lt_encode_iff`, `codes_lt_codes_iff`).
-/
namespace IppCode

/-! ## Codes that keep the order -/

section Codes

variable {α β : Type} [LT β]

theorem append_lt_append_iff [Std.Irrefl (α := β) (· < ·)] {x y : List β} :
    ∀ p : List β, p ++ x < p ++ y ↔ x < y
  | []     => Iff.rfl
  | b :: p => by
    rw [List.cons_append, List.cons_append, List.cons_lt_cons_iff, append_lt_append_iff p]
    simp [Std.Irrefl.irrefl (r := (· < · : β → β → Prop))]

/-- **What is written element by element keeps the order** if no element is written as nothing, and
what a smaller one is written as comes before what a greater one is written as, whatever follows. -/
theorem flatMap_lt_flatMap_iff [LT α] [Std.Asymm (α := α) (· < ·)] [Std.Trichotomous (α := α) (· < ·)]
    [Std.Asymm (α := β) (· < ·)] {code : α → List β} (hne : ∀ a, code a ≠ [])
    (hcode : ∀ a b, a < b → ∀ x y, code a ++ x < code b ++ y) :
    ∀ l r : List α, l.flatMap code < r.flatMap code ↔ l < r
  | [],     []     => by simp
  | [],     b :: r => by
    obtain ⟨c, cs, hc⟩ := List.exists_cons_of_ne_nil (hne b)
    rw [List.flatMap_cons, hc]
    simp
  | a :: l, []     => by simp
  | a :: l, b :: r => by
    rw [List.flatMap_cons, List.flatMap_cons, List.cons_lt_cons_iff]
    rcases Std.lt_trichotomy a b with hab | rfl | hba
    · exact iff_of_true (hcode a b hab _ _) (.inl hab)
    · rw [append_lt_append_iff, flatMap_lt_flatMap_iff hne hcode l r]
      simp [Std.Irrefl.irrefl (r := (· < · : α → α → Prop))]
    · refine iff_of_false (List.lt_asymm (hcode b a hba _ _)) ?_
      rintro (hab | ⟨rfl, -⟩)
      · exact Std.Asymm.asymm _ _ hab hba
      · exact Std.Irrefl.irrefl _ hba

end Codes

namespace Text

/-- **The order of texts is that of their code points**, one after another. -/
theorem codes_lt_codes_iff (t u : Text) : t.map Char.toNat < u.map Char.toNat ↔ t < u := by
  rw [List.map_eq_flatMap, List.map_eq_flatMap]
  refine flatMap_lt_flatMap_iff (fun _ => List.cons_ne_nil _ _) (fun c d h x y => ?_) t u
  exact List.cons_lt_cons_iff.2 (.inl h)

end Text

namespace Utf8

theorem cons_lt_cons {a b : Nat} (ha : a < 256) (hb : b < 256) {x y : Bytes} :
    UInt8.ofNat a :: x < UInt8.ofNat b :: y ↔ a < b ∨ a = b ∧ x < y := by
  rw [List.cons_lt_cons_iff, UInt8.ofNat_lt_iff_lt ha hb, ← UInt8.toNat_inj, UInt8.toNat_ofNat_of_lt' ha,
    UInt8.toNat_ofNat_of_lt' hb]

/-- **A character with a smaller code is written as bytes that come first**, whatever follows. -/
theorem encodeChar_lt {c d : Char} (h : c < d) (x y : Bytes) :
    String.utf8EncodeChar c ++ x < String.utf8EncodeChar d ++ y := by
  have hlt : c.val.toNat < d.val.toNat := h
  have hd : d.val.toNat < 0x110000 := by rcases d.valid with h | h <;> omega
  -- The bytes after the first hold six bits each: all divisions are repeated ones by 64.
  have hdigits (n : Nat) : n / 4096 = n / 64 / 64 ∧ n / 262144 = n / 64 / 64 / 64 := by omega
  unfold String.utf8EncodeChar
  generalize c.val.toNat = n at hlt ⊢
  generalize d.val.toNat = m at hlt hd ⊢
  simp only [(hdigits _).1, (hdigits _).2]
  -- One case for each pair of lengths.
  split_ifs <;> simp (disch := omega) only [List.cons_append, List.nil_append, cons_lt_cons] <;> omega

/-- **The order of texts is that of the bytes they are written as.** -/
theorem encode_lt_encode_iff (t u : Text) : encode t < encode u ↔ t < u := by
  rw [encode_eq_flatMap, encode_eq_flatMap]
  exact flatMap_lt_flatMap_iff encodeChar_ne_nil (fun _ _ h => encodeChar_lt h) t u

end Utf8

end IppCode
