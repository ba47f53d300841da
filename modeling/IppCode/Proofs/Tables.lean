import IppCode.Name
import IppCode.Unicode.WhiteSpace
import IppCode.Xml.Chars
/-!
# Tables — a search in a table finds what is in it

A code point is looked up in a table up to the first interval beyond it, which misses nothing if
the table is ascending (`inTable_iff`).  All tables are, so each property of characters holds of
just the characters in the intervals of its table; that the alphabetic ones are cut in two makes
no difference (`isAlphabetic_iff`).  So what two properties have in common is seen from their
tables: there is no white space in names (`Name.not_white_of_continues`).
-/
namespace IppCode

namespace Unicode

variable {lo hi code : Nat} {table upper : List Interval} {c : Char}

/-- The code point is in one of the intervals. -/
def Covers (table : List Interval) (code : Nat) : Prop := ∃ i ∈ table, i.1 ≤ code ∧ code ≤ i.2

theorem covers_append : Covers (table ++ upper) code ↔ Covers table code ∨ Covers upper code := by
  simp only [Covers, List.mem_append, or_and_right, exists_or]

theorem covers_cons : Covers ((lo, hi) :: table) code ↔ (lo ≤ code ∧ code ≤ hi) ∨ Covers table code := by
  simp only [Covers, List.mem_cons, or_and_right, exists_or, exists_eq_left]

/-- **What comes first in an ascending table is below all that follows.** -/
theorem ascending_cons (h : ascending ((lo, hi) :: table) = true) :
    lo ≤ hi ∧ (∀ i ∈ table, hi < i.1) ∧ ascending table = true := by
  induction table generalizing lo hi with
  | nil => exact ⟨by simpa [ascending] using h, fun _ hmem => absurd hmem List.not_mem_nil, rfl⟩
  | cons next rest ih =>
    obtain ⟨lo', hi'⟩ := next
    simp only [ascending, Bool.and_eq_true, decide_eq_true_eq] at h
    obtain ⟨⟨hle, hlt⟩, hnext⟩ := h
    obtain ⟨hle', habove, -⟩ := ih hnext
    refine ⟨hle, List.forall_mem_cons.2 ⟨hlt, fun i hmem => ?_⟩, hnext⟩
    exact Nat.lt_of_lt_of_le hlt (Nat.le_trans hle' (Nat.le_of_lt (habove i hmem)))

theorem not_covers_of_below (habove : ∀ i ∈ table, hi < i.1) (hcode : code ≤ hi) : ¬ Covers table code := by
  rintro ⟨i, hmem, hle, -⟩
  exact Nat.not_lt.2 (Nat.le_trans hle hcode) (habove i hmem)

/-- **The search finds all that is in an ascending table.** -/
theorem inTable_iff (h : ascending table = true) : inTable code table = true ↔ Covers table code := by
  induction table with
  | nil => exact ⟨nofun, fun ⟨_, hmem, _⟩ => absurd hmem List.not_mem_nil⟩
  | cons first rest ih =>
    obtain ⟨lo, hi⟩ := first
    obtain ⟨hle, habove, hrest⟩ := ascending_cons h
    rw [inTable, covers_cons, ← ih hrest]
    by_cases hbelow : code < lo
    · -- The code point is below the first interval, and so it is below the other ones.
      have hnone : ¬ inTable code rest = true := by
        rw [ih hrest]
        exact not_covers_of_below habove (Nat.le_trans (Nat.le_of_lt hbelow) hle)
      rw [if_pos hbelow]
      exact iff_of_false Bool.false_ne_true (not_or.2 ⟨fun hin => Nat.not_lt.2 hin.1 hbelow, hnone⟩)
    · simp [hbelow, Nat.not_lt.1 hbelow]

/-! ## The tables -/

theorem ascending_whiteSpace : ascending whiteSpace = true := by decide

theorem ascending_alphabetic : ascending (alphabeticBasic ++ alphabeticSupplementary) = true := by decide +kernel

theorem ascending_numeric : ascending numeric = true := by decide +kernel

theorem isWhiteSpace_iff : isWhiteSpace c = true ↔ Covers whiteSpace c.toNat := inTable_iff ascending_whiteSpace

theorem isNumeric_iff : isNumeric c = true ↔ Covers numeric c.toNat := inTable_iff ascending_numeric

theorem ascending_of_append (h : ascending (table ++ upper) = true) : ascending table = true ∧ ascending upper = true := by
  induction table with
  | nil => exact ⟨rfl, h⟩
  | cons first rest ih =>
    obtain ⟨lo, hi⟩ := first
    obtain ⟨hle, -, htail⟩ := ascending_cons h
    obtain ⟨hrest, hupper⟩ := ih htail
    refine ⟨?_, hupper⟩
    cases rest with
    | nil => simpa [ascending] using hle
    | cons next rest =>
      simp only [List.cons_append, ascending, Bool.and_eq_true] at h ⊢
      exact ⟨h.1, hrest⟩

/-- **The alphabetic characters are those of both tables**, though only one of them is searched. -/
theorem isAlphabetic_iff :
    isAlphabetic c = true ↔ Covers (alphabeticBasic ++ alphabeticSupplementary) c.toNat := by
  obtain ⟨hbasic, hsupplementary⟩ := ascending_of_append ascending_alphabetic
  have hbelow : ∀ i ∈ alphabeticBasic, i.2 < 0x10000 := by decide +kernel
  have habove : ∀ i ∈ alphabeticSupplementary, 0xFFFF < i.1 := by decide +kernel
  rw [covers_append]
  unfold isAlphabetic
  by_cases hplane : c.toNat < 0x10000
  · rw [if_pos hplane, inTable_iff hbasic, or_iff_left]
    exact not_covers_of_below habove (Nat.le_of_lt_succ hplane)
  · rw [if_neg hplane, inTable_iff hsupplementary, or_iff_right]
    rintro ⟨i, hmem, -, hcode⟩
    exact hplane (Nat.lt_of_le_of_lt hcode (hbelow i hmem))

theorem not_covers_of_apart (h : ∀ i ∈ table, ∀ j ∈ upper, i.2 < j.1 ∨ j.2 < i.1) (hcode : Covers table code) :
    ¬ Covers upper code := by
  obtain ⟨i, hi, hlo, hhi⟩ := hcode
  rintro ⟨j, hj, hlo', hhi'⟩
  have hapart := h i hi j hj
  omega

end Unicode

open Unicode in
/-- **No character of a name is white space**, beyond ASCII either. -/
theorem Name.not_white_of_continues {c : Char} (h : continues c = true) : isWhiteSpace c = false := by
  have halphabetic : ∀ i ∈ alphabeticBasic ++ alphabeticSupplementary, ∀ j ∈ whiteSpace, i.2 < j.1 ∨ j.2 < i.1 := by
    decide +kernel
  have hnumeric : ∀ i ∈ numeric, ∀ j ∈ whiteSpace, i.2 < j.1 ∨ j.2 < i.1 := by decide +kernel
  have hsigns : signs.all (fun d => !isWhiteSpace d) = true := rfl
  unfold continues isAlphanumeric at h
  rw [Bool.or_eq_true, Bool.or_eq_true, isAlphabetic_iff, isNumeric_iff] at h
  rcases h with (hletter | hdigit) | hsign
  · exact eq_false_of_ne_true (mt isWhiteSpace_iff.1 (not_covers_of_apart halphabetic hletter))
  · exact eq_false_of_ne_true (mt isWhiteSpace_iff.1 (not_covers_of_apart hnumeric hdigit))
  · have hother := List.all_eq_true.1 hsigns c (List.contains_iff_mem.1 hsign)
    rwa [Bool.not_eq_true'] at hother

/-- The tables of the names of a document are ascending as well. -/
theorem Xml.ascending_names : Unicode.ascending nameStart = true ∧ Unicode.ascending nameExtra = true := by decide

end IppCode
