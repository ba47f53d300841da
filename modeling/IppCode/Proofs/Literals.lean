import IppCode.IntLiteral
import IppCode.Proofs.Digits
/-!
# Literals — which texts are integers

A literal is hexadecimal, octal or decimal; what is octal is nothing else, and what begins with a
zero and is not octal may still be decimal (`Says`).  The number that it says is read if it fits a
word, and all other texts are no integers (`parse_exact`).  So an integer that is written in one of
the three ways is read back.
-/
namespace IppCode.IntLiteral

open Numeral (Denotes Signed FitsWord natural?_eq_some integer?_eq_some)

/-- **What a literal says**, whatever its size.  A zero and octal digits are never decimal. -/
inductive Says : Text → Int → Prop
  | hexadecimal {x : Char} {r : Text} {n : Nat} (hx : x = 'x' ∨ x = 'X') (h : Denotes 16 r n) : Says ('0' :: x :: r) n
  | octal {r : Text} {n : Nat} (h : Denotes 8 r n) : Says ('0' :: r) n
  | decimal {t : Text} {z : Int} (h : Signed t z) (hoctal : ∀ r n, t = '0' :: r → ¬ Denotes 8 r n) : Says t z

variable {t r : Text} {x : Char} {n base : Nat} {z : Int}

/-! ## What each notation says -/

/-- The mark of a hexadecimal number is no digit of the other notations. -/
theorem not_denotes_of_mark (hx : x = 'x' ∨ x = 'X') (hbase : base ≤ 10) (h : x ∈ t) : ¬ Denotes base t n := by
  intro hdenotes
  obtain ⟨d, hd⟩ := (Numeral.isDigit_iff (by omega)).1 (hdenotes.isDigit_of_mem (by omega) h)
  have hvalue := hd.digit? (by omega)
  rcases hx with rfl | rfl <;> cases hvalue

theorem says_hexadecimal_iff (hx : x = 'x' ∨ x = 'X') : Says ('0' :: x :: r) z ↔ ∃ n : Nat, Denotes 16 r n ∧ z = n := by
  constructor
  · intro h
    cases h with
    | hexadecimal _ h => exact ⟨_, h, rfl⟩
    | octal h => exact absurd h (not_denotes_of_mark hx (by decide) List.mem_cons_self)
    | decimal h =>
      cases h with
      | plain h => exact absurd h (not_denotes_of_mark hx (by decide) (List.mem_cons_of_mem _ List.mem_cons_self))
  · rintro ⟨n, h, rfl⟩
    exact .hexadecimal hx h

theorem says_octal_iff (h : Denotes 8 r n) : Says ('0' :: r) z ↔ z = n := by
  constructor
  · intro hsays
    cases hsays with
    | hexadecimal hx => exact absurd h (not_denotes_of_mark hx (by decide) List.mem_cons_self)
    | octal h' =>
      have hn := (natural?_eq_some (by decide)).2 h
      rw [(natural?_eq_some (by decide)).2 h'] at hn
      cases hn
      rfl
    | decimal _ hoctal => exact absurd h (hoctal r n rfl)
  · rintro rfl
    exact .octal h

theorem says_decimal_iff (hx : ∀ x r, (x = 'x' ∨ x = 'X') → t ≠ '0' :: x :: r)
    (hoctal : ∀ r n, t = '0' :: r → ¬ Denotes 8 r n) : Says t z ↔ Signed t z := by
  constructor
  · intro h
    cases h with
    | hexadecimal hmark => exact absurd rfl (hx _ _ hmark)
    | octal h => exact absurd h (hoctal _ _ rfl)
    | decimal h => exact h
  · intro h
    exact .decimal h hoctal

/-! ## Reading -/

theorem word?_eq_some {w : Int64} : word? z = some w ↔ w.toInt = z := by
  unfold word?
  constructor
  · intro h
    split at h
    · rename_i hfits
      cases h
      exact Int64.toInt_ofInt_of_le hfits.1 hfits.2
    · cases h
  · rintro rfl
    rw [if_pos ⟨Int64.le_toInt w, Int64.toInt_lt w⟩, Int64.ofInt_toInt]

theorem decimal?_eq_some {w : Int64} : decimal? t = some w ↔ Signed t w.toInt := by
  simp only [decimal?, Option.bind_eq_some_iff, integer?_eq_some, word?_eq_some, exists_eq_right']

/-- **What a literal says is what is read**, if it fits a word. -/
theorem parse_eq_some {w : Int64} : parse t = some w ↔ Says t w.toInt := by
  unfold parse
  split
  · rw [says_hexadecimal_iff (.inl rfl)]
    simp only [Option.bind_eq_some_iff, natural?_eq_some (show 16 ≤ 16 by decide), word?_eq_some]
  · rw [says_hexadecimal_iff (.inr rfl)]
    simp only [Option.bind_eq_some_iff, natural?_eq_some (show 16 ≤ 16 by decide), word?_eq_some]
  · rename_i r hlower hupper
    split
    · rename_i n hn
      rw [word?_eq_some, says_octal_iff ((natural?_eq_some (by decide)).1 hn)]
    · rename_i hnone
      rw [decimal?_eq_some, says_decimal_iff]
      · rintro x r' (rfl | rfl) h
        · exact hlower r' (List.cons.inj h).2
        · exact hupper r' (List.cons.inj h).2
      · rintro r' n ⟨⟩ h
        cases hnone.symm.trans ((natural?_eq_some (by decide)).2 h)
  · rename_i hzero
    rw [decimal?_eq_some, says_decimal_iff]
    · exact fun x r _ => hzero (x :: r)
    · exact fun r n h => absurd h (hzero r)

theorem exists_toInt_eq_iff : (∃ w : Int64, w.toInt = z) ↔ FitsWord z := by
  constructor
  · rintro ⟨w, rfl⟩
    exact ⟨Int64.le_toInt w, Int64.toInt_lt w⟩
  · intro h
    exact ⟨Int64.ofInt z, Int64.toInt_ofInt_of_le h.1 h.2⟩

theorem parse_eq_none : parse t = none ↔ ∀ z, Says t z → ¬ FitsWord z := by
  simp only [Option.eq_none_iff_forall_ne_some, ne_eq, parse_eq_some, ← exists_toInt_eq_iff]
  constructor
  · rintro h z hz ⟨w, rfl⟩
    exact h w hz
  · intro h w hw
    exact h _ hw ⟨w, rfl⟩

/-! ## Writing -/

/-- No digits follow a zero that a decimal number begins with. -/
theorem says_ofInt (z : Int) : Says (Numeral.ofInt z) z := by
  refine .decimal (Numeral.signed_ofInt z) fun r n h hr => ?_
  unfold Numeral.ofInt at h
  split at h
  · cases h
  · obtain ⟨c, r', hn, hzero⟩ := Numeral.ofNat_cons z.natAbs
    cases hn.symm.trans h
    obtain ⟨-, rfl⟩ := hzero rfl
    exact (hr.run (by decide)).1 rfl

/-- **An integer that is written is the literal that denotes it.** -/
theorem parse_ofInt (w : Int64) : parse (Numeral.ofInt w.toInt) = some w := parse_eq_some.2 (says_ofInt w.toInt)

/-- **The integers are exactly the literals that fit a word**, and have the value that they say.  A
text that says no number, or only one that does not fit, is none; and what is written in decimal
notation is read back, and so is what is not negative in hexadecimal and octal notation. -/
theorem parse_exact (t : Text) :
    (∀ w : Int64, parse t = some w ↔ Says t w.toInt) ∧
    (parse t = none ↔ ∀ z, Says t z → ¬ FitsWord z) ∧
    ∀ w : Int64, parse (Numeral.ofInt w.toInt) = some w ∧
      (0 ≤ w.toInt → parse ('0' :: 'x' :: Nat.toDigits 16 w.toInt.toNat) = some w ∧
        parse ('0' :: Nat.toDigits 8 w.toInt.toNat) = some w) := by
  refine ⟨fun _ => parse_eq_some, parse_eq_none, fun w => ⟨parse_ofInt w, fun h => ?_⟩⟩
  have hnat : (w.toInt.toNat : Int) = w.toInt := Int.toNat_of_nonneg h
  have hexadecimal := Says.hexadecimal (.inl rfl) (Numeral.denotes_toDigits (by decide) (Nat.le_refl 16) w.toInt.toNat)
  have octal := Says.octal (Numeral.denotes_toDigits (by decide) (by decide) w.toInt.toNat)
  rw [hnat] at hexadecimal octal
  exact ⟨parse_eq_some.2 hexadecimal, parse_eq_some.2 octal⟩

/-- The greatest integer in all three notations; and octal digits that do not fit a word, though as a
decimal number they would. -/
theorem parse_exact_at_limit :
    let greatest : Int64 := 0x7FFFFFFFFFFFFFFF
    let large : Text := "01000000000000000000000"
    0 ≤ greatest.toInt ∧ parse ("9223372036854775807" : Text) = some greatest ∧
      parse ("0x7fffffffffffffff" : Text) = some greatest ∧ parse ("0777777777777777777777" : Text) = some greatest ∧
      (∀ z, Says large z → ¬ FitsWord z) ∧ parse large = none := by
  intro greatest large
  have hpos : 0 ≤ greatest.toInt := by decide
  obtain ⟨hdecimal, hothers⟩ := (parse_exact large).2.2 greatest
  obtain ⟨hexadecimal, hoctal⟩ := hothers hpos
  have htexts : Numeral.ofInt greatest.toInt = ("9223372036854775807" : Text) ∧
      '0' :: 'x' :: Nat.toDigits 16 greatest.toInt.toNat = ("0x7fffffffffffffff" : Text) ∧
      '0' :: Nat.toDigits 8 greatest.toInt.toNat = ("0777777777777777777777" : Text) := by decide +kernel
  rw [htexts.1] at hdecimal
  rw [htexts.2.1] at hexadecimal
  rw [htexts.2.2] at hoctal
  have hlarge : ∀ z, Says large z → ¬ FitsWord z := by
    intro z hz
    have hdigits : Denotes 8 ("1000000000000000000000" : Text) 0x8000000000000000 :=
      (natural?_eq_some (by decide)).1 (by decide +kernel)
    rw [(says_octal_iff hdigits).1 hz]
    decide
  exact ⟨hpos, hdecimal, hexadecimal, hoctal, hlarge, (parse_exact large).2.1.2 hlarge⟩

end IppCode.IntLiteral
