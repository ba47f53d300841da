import Mathlib.Data.List.Induction
import Mathlib.Tactic.SplitIfs
import IppCode.Numeral
/-!
# Digits — a number that is written is read back

A run of digits denotes a number in each base, and this is what reading it gives
(`natural?_eq_some`).  Writing gives a run that denotes the number (`denotes_toDigits`), and begins
with a zero only for zero itself (`ofNat_cons`).  A decimal number may have a minus sign in front
(`integer?_eq_some`), and where a word is expected a plus sign as well (`signedWord?_eq_some`).
-/
namespace IppCode

namespace Numeral

def lowerDigits : Text := "0123456789abcdef"

def upperDigits : Text := "0123456789ABCDEF"

/-- **The character is a digit** of a base up to sixteen, in either case of its letters, and has a
value. -/
def Digit (base : Nat) (c : Char) (d : Nat) : Prop :=
  d < base ∧ (lowerDigits[d]? = some c ∨ upperDigits[d]? = some c)

instance (base : Nat) (c : Char) (d : Nat) : Decidable (Digit base c d) := inferInstanceAs (Decidable (_ ∧ _))

/-- **The text denotes a number**: a digit its value, and what ends in a digit that value and the
multiple of what is before it. -/
inductive Denotes (base : Nat) : Text → Nat → Prop
  | digit {c : Char} {d : Nat} (h : Digit base c d) : Denotes base [c] d
  | snoc {t : Text} {n : Nat} {c : Char} {d : Nat} (ht : Denotes base t n) (h : Digit base c d) :
      Denotes base (t ++ [c]) (base * n + d)

variable {base n d : Nat} {c : Char} {t : Text}

/-! ## Digits -/

/-- All characters that have a value come early. -/
theorem toNat_lt_of_digit? (h : digit? c = some d) : c.toNat < 103 := by
  have hle {a b : Char} : a ≤ b ↔ a.toNat ≤ b.toNat := Iff.rfl
  have hends : '9'.toNat = 57 ∧ 'f'.toNat = 102 ∧ 'F'.toNat = 70 := by decide
  unfold digit? at h
  simp only [hle] at h
  split_ifs at h <;> omega

theorem digit_of_code : ∀ m < 103, ∀ d ∈ digit? (Char.ofNat m), Digit 16 (Char.ofNat m) d := by decide

theorem digit?_of_place :
    ∀ d < 16, lowerDigits[d]?.bind digit? = some d ∧ upperDigits[d]?.bind digit? = some d := by decide

theorem digit?_eq_some : digit? c = some d ↔ Digit 16 c d := by
  constructor
  · intro h
    have hcode := digit_of_code c.toNat (toNat_lt_of_digit? h) d
    rw [Char.ofNat_toNat] at hcode
    exact hcode h
  · rintro ⟨hd, hc⟩
    obtain ⟨hlower, hupper⟩ := digit?_of_place d hd
    rcases hc with hc | hc
    · rwa [hc] at hlower
    · rwa [hc] at hupper

theorem Digit.digit? (h : Digit base c d) (hbase : base ≤ 16) : digit? c = some d :=
  digit?_eq_some.2 ⟨Nat.lt_of_lt_of_le h.1 hbase, h.2⟩

theorem isDigit_iff (hbase : base ≤ 16) : isDigit base c = true ↔ ∃ d, Digit base c d := by
  unfold isDigit
  constructor
  · intro h
    split at h
    · cases h
    · rename_i d hd
      exact ⟨d, of_decide_eq_true h, (digit?_eq_some.1 hd).2⟩
  · rintro ⟨d, h⟩
    rw [h.digit? hbase]
    exact decide_eq_true h.1

theorem digit_digitChar (hd : d < base) (hbase : base ≤ 16) : Digit base (Nat.digitChar d) d := by
  have hplace : ∀ d < 16, lowerDigits[d]? = some (Nat.digitChar d) := by decide
  exact ⟨hd, .inl (hplace d (Nat.lt_of_lt_of_le hd hbase))⟩

/-- Only one character is a decimal digit with a value. -/
theorem Digit.eq_digitChar (h : Digit 10 c d) : c = Nat.digitChar d := by
  have hplace : ∀ d < 10, lowerDigits[d]? = some (Nat.digitChar d) ∧ upperDigits[d]? = some (Nat.digitChar d) := by decide
  obtain ⟨hlower, hupper⟩ := hplace d h.1
  rcases h.2 with hc | hc
  · exact Option.some.inj (hc.symm.trans hlower)
  · exact Option.some.inj (hc.symm.trans hupper)

theorem isDigit_digitChar (h : d < 10) : isDigit 10 (Nat.digitChar d) = true :=
  (isDigit_iff (by decide)).2 ⟨d, digit_digitChar h (by decide)⟩

/-! ## Runs of digits -/

theorem value_snoc (base : Nat) (t : Text) (c : Char) :
    value base (t ++ [c]) = base * value base t + (digit? c).getD 0 := by
  simp [value]

theorem Denotes.run (h : Denotes base t n) (hbase : base ≤ 16) :
    t ≠ [] ∧ (∀ c ∈ t, isDigit base c = true) ∧ value base t = n := by
  induction h with
  | digit h => simp [(isDigit_iff hbase).2 ⟨_, h⟩, value, h.digit? hbase]
  | snoc ht h ih =>
    obtain ⟨-, hall, hvalue⟩ := ih
    refine ⟨List.append_ne_nil_of_right_ne_nil _ (List.cons_ne_nil _ _), fun c hc => ?_, ?_⟩
    · rcases List.mem_append.1 hc with hc | hc
      · exact hall c hc
      · rw [List.mem_singleton.1 hc]
        exact (isDigit_iff hbase).2 ⟨_, h⟩
    · rw [value_snoc, hvalue, h.digit? hbase, Option.getD_some]

theorem Denotes.isDigit_of_mem (h : Denotes base t n) (hbase : base ≤ 16) (hc : c ∈ t) : isDigit base c = true :=
  (h.run hbase).2.1 c hc

theorem denotes_value (hbase : base ≤ 16) (hne : t ≠ []) (hall : ∀ c ∈ t, isDigit base c = true) :
    Denotes base t (value base t) := by
  induction t using List.reverseRecOn with
  | nil => exact absurd rfl hne
  | append_singleton t c ih =>
    obtain ⟨d, hd⟩ := (isDigit_iff hbase).1 (hall c (List.mem_append_right t (List.mem_singleton_self c)))
    rw [value_snoc, hd.digit? hbase, Option.getD_some]
    cases t with
    | nil => simpa [value] using Denotes.digit hd
    | cons b t => exact .snoc (ih (List.cons_ne_nil b t) fun x hx => hall x (List.mem_append_left [c] hx)) hd

/-- **A run of digits is read as the number that it denotes.** -/
theorem natural?_eq_some (hbase : base ≤ 16) : natural? base t = some n ↔ Denotes base t n := by
  unfold natural?
  constructor
  · intro h
    split at h
    · rename_i hrun
      cases h
      simp only [Bool.and_eq_true, Bool.not_eq_true', List.isEmpty_eq_false_iff, List.all_eq_true] at hrun
      exact denotes_value hbase hrun.1 hrun.2
    · cases h
  · intro h
    obtain ⟨hne, hall, rfl⟩ := h.run hbase
    rw [List.isEmpty_eq_false_iff.2 hne, List.all_eq_true.2 hall]
    rfl

/-- **A number that is written is denoted by its digits.** -/
theorem denotes_toDigits (htwo : 1 < base) (hbase : base ≤ 16) (n : Nat) : Denotes base (Nat.toDigits base n) n := by
  rw [Nat.toDigits_eq_if htwo]
  by_cases h : n < base
  · rw [if_pos h]
    exact .digit (digit_digitChar h hbase)
  · have hlast := Denotes.snoc (denotes_toDigits htwo hbase (n / base))
      (digit_digitChar (Nat.mod_lt n (Nat.zero_lt_of_lt htwo)) hbase)
    rw [if_neg h]
    rwa [Nat.div_add_mod] at hlast
termination_by n
decreasing_by exact Nat.div_lt_self (by omega) htwo

/-! ## Decimal numbers -/

/-- **A decimal number with an optional minus sign.** -/
inductive Signed : Text → Int → Prop
  | plain {t : Text} {n : Nat} (h : Denotes 10 t n) : Signed t n
  | minus {t : Text} {n : Nat} (h : Denotes 10 t n) : Signed ('-' :: t) (-n)

theorem isDigit_sign : isDigit 10 '-' = false := by decide

theorem not_denotes_sign : ¬ Denotes 10 ('-' :: t) n := by
  intro h
  have hsign := h.isDigit_of_mem (by decide) List.mem_cons_self
  rw [isDigit_sign] at hsign
  cases hsign

theorem integer?_eq_some {z : Int} : integer? t = some z ↔ Signed t z := by
  unfold integer?
  split
  · simp only [Option.map_eq_some_iff, natural?_eq_some (show 10 ≤ 16 by decide)]
    constructor
    · rintro ⟨n, h, rfl⟩
      exact .minus h
    · intro h
      cases h with
      | plain h => exact absurd h not_denotes_sign
      | minus h => exact ⟨_, h, rfl⟩
  · rename_i hsign
    simp only [Option.map_eq_some_iff, natural?_eq_some (show 10 ≤ 16 by decide)]
    constructor
    · rintro ⟨n, h, rfl⟩
      exact .plain h
    · intro h
      cases h with
      | plain h => exact ⟨_, h, rfl⟩
      | minus => exact absurd rfl (hsign _)

/-- **A decimal number with an optional sign, of either kind, that fits a word.** -/
inductive SignedWord : Text → Int → Prop
  | signed {t : Text} {z : Int} (h : Signed t z) (hfits : FitsWord z) : SignedWord t z
  | plus {t : Text} {n : Nat} (h : Denotes 10 t n) (hfits : FitsWord n) : SignedWord ('+' :: t) n

theorem signedWord?_eq_some {z : Int} : signedWord? t = some z ↔ SignedWord t z := by
  have hplus : isDigit 10 '+' = false := by decide
  unfold signedWord?
  rw [Option.filter_eq_some_iff, decide_eq_true_iff]
  split
  · rename_i t
    simp only [Option.map_eq_some_iff, natural?_eq_some (show 10 ≤ 16 by decide)]
    constructor
    · rintro ⟨⟨n, h, rfl⟩, hfits⟩
      exact .plus h hfits
    · intro h
      cases h with
      | plus h hfits => exact ⟨⟨_, h, rfl⟩, hfits⟩
      | signed h =>
        cases h with
        | plain h => exact absurd (h.isDigit_of_mem (by decide) List.mem_cons_self) (by rw [hplus]; decide)
  · rename_i hsign
    rw [integer?_eq_some]
    constructor
    · rintro ⟨h, hfits⟩
      exact .signed h hfits
    · intro h
      cases h with
      | signed h hfits => exact ⟨h, hfits⟩
      | plus => exact absurd rfl (hsign _)

theorem denotes_ofNat (n : Nat) : Denotes 10 (ofNat n) n := denotes_toDigits (by decide) (by decide) n

theorem isDigit_of_mem_ofNat (n : Nat) : ∀ c ∈ ofNat n, isDigit 10 c = true :=
  fun _ hc => (denotes_ofNat n).isDigit_of_mem (by decide) hc

theorem ofNat_ne_sign {n : Nat} {r : Text} : ofNat n ≠ '-' :: r := by
  intro h
  have hn := denotes_ofNat n
  rw [h] at hn
  exact not_denotes_sign hn

/-- **Only zero is written with a zero in front.** -/
theorem ofNat_cons (n : Nat) : ∃ c r, ofNat n = c :: r ∧ (c = '0' → n = 0 ∧ r = []) := by
  have hdigits : ofNat n = if n < 10 then [Nat.digitChar n] else ofNat (n / 10) ++ [Nat.digitChar (n % 10)] :=
    Nat.toDigits_eq_if (by decide)
  rw [hdigits]
  by_cases h : n < 10
  · rw [if_pos h]
    exact ⟨_, [], rfl, fun hc => ⟨Nat.digitChar_eq_zero.1 hc, rfl⟩⟩
  · rw [if_neg h]
    obtain ⟨c, r, hn, hzero⟩ := ofNat_cons (n / 10)
    refine ⟨c, r ++ [Nat.digitChar (n % 10)], by rw [hn, List.cons_append], fun hc => ?_⟩
    have htenth := (hzero hc).1
    omega
termination_by n

theorem signed_ofInt (n : Int) : Signed (ofInt n) n := by
  unfold ofInt
  by_cases h : n < 0
  · rw [if_pos h]
    have hminus := Signed.minus (denotes_ofNat n.natAbs)
    rwa [show -(n.natAbs : Int) = n by omega] at hminus
  · rw [if_neg h]
    have hplain := Signed.plain (denotes_ofNat n.natAbs)
    rwa [show (n.natAbs : Int) = n by omega] at hplain

theorem integer?_ofInt (n : Int) : integer? (ofInt n) = some n := integer?_eq_some.2 (signed_ofInt n)

end Numeral

end IppCode
