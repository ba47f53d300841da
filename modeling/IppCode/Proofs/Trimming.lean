import Mathlib.Data.List.TakeWhile
import IppCode.Text
/-!
# Trimming — what is left of a text without its margins

A text without its margins begins and ends with characters that are not trimmed, and nothing but
trimmed ones is missing at both ends (`Trims`).  There is just one such text (`trims_iff`).
-/
namespace IppCode.Text

/-- **What is left between the margins of a text.** -/
structure Trims (p : Char → Bool) (t w : Text) : Prop where
  margins : ∃ before after, t = before ++ w ++ after ∧ (∀ c ∈ before, p c = true) ∧ ∀ c ∈ after, p c = true
  first   : ∀ c ∈ w.head?, p c = false
  last    : ∀ c ∈ w.getLast?, p c = false

variable {p : Char → Bool} {t w : Text}

theorem head?_dropWhile : ∀ c ∈ (t.dropWhile p).head?, p c = false := by
  intro c hc
  have h := List.head?_dropWhile_not p t
  rw [Option.mem_def.1 hc] at h
  exact h

theorem trims_trim (p : Char → Bool) (t : Text) : Trims p t (trim p t) := by
  have hback : t.dropWhile p = trim p t ++ ((t.dropWhile p).reverse.takeWhile p).reverse := by
    rw [trim, ← List.reverse_append, List.takeWhile_append_dropWhile, List.reverse_reverse]
  refine ⟨⟨t.takeWhile p, ((t.dropWhile p).reverse.takeWhile p).reverse, ?_, fun c hc => ?_, fun c hc => ?_⟩, ?_, ?_⟩
  · rw [List.append_assoc, ← hback, List.takeWhile_append_dropWhile]
  · exact List.mem_takeWhile_imp hc
  · exact List.mem_takeWhile_imp (List.mem_reverse.1 hc)
  · intro c hc
    have hmem : c ∈ (t.dropWhile p).head? := by
      rw [hback, List.head?_append, Option.mem_def.1 hc]
      rfl
    exact head?_dropWhile c hmem
  · intro c hc
    rw [trim, List.getLast?_reverse] at hc
    exact head?_dropWhile c hc

/-- **There is one way to trim a text.** -/
theorem trims_iff : Trims p t w ↔ w = trim p t := by
  constructor
  · rintro ⟨⟨before, after, rfl, hbefore, hafter⟩, hfirst, hlast⟩
    have hfront : (before ++ w ++ after).dropWhile p = (w ++ after).dropWhile p := by
      rw [List.append_assoc, List.dropWhile_append_of_pos hbefore]
    cases w with
    | nil =>
      rw [trim, hfront, List.nil_append, List.dropWhile_eq_nil_iff.2 hafter]
      rfl
    | cons c w =>
      have hc : ¬ p c = true := by rw [hfirst c rfl]; decide
      obtain ⟨d, v, hd⟩ := List.exists_cons_of_ne_nil (List.reverse_ne_nil_iff.2 (List.cons_ne_nil c w))
      have hdlast : ¬ p d = true := by
        rw [hlast d (by rw [← List.head?_reverse, hd]; rfl)]
        decide
      have hback : (c :: w ++ after).reverse.dropWhile p = (c :: w).reverse := by
        rw [List.reverse_append, List.dropWhile_append_of_pos (fun x hx => hafter x (List.mem_reverse.1 hx)), hd,
          List.dropWhile_cons_of_neg hdlast]
      rw [trim, hfront, List.cons_append, List.dropWhile_cons_of_neg hc, ← List.cons_append, hback, List.reverse_reverse]
  · rintro rfl
    exact trims_trim p t

/-- A text without margins stays as it is. -/
theorem trim_eq_self (h : ∀ c ∈ t, p c = false) : trim p t = t := by
  refine (trims_iff.1 ⟨⟨[], [], by simp, nofun, nofun⟩, fun c hc => h c ?_, fun c hc => h c ?_⟩).symm
  · exact List.mem_of_mem_head? hc
  · exact List.mem_of_mem_getLast? hc

end IppCode.Text
