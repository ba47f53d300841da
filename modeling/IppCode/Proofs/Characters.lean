import IppCode.Proofs.Operations
/-!
# Characters — texts as arrays, and the codes of their elements

`GETCHAR` and `SETCHAR` read and write one place of a text, which are the places that `STRLEN` counts,
and `CONCAT` puts the places of a second text behind those of the first (`texts_are_arrays`).  Between
the characters and their codes there is one correspondence, and both ways of reading a place find the
same one (`codes_of_characters`).  Places are counted in characters, however many bytes these take.
-/
namespace IppCode

/-! ## Texts and indices -/

/-- The text has a character at the index. -/
def Text.Has (t : Text) (index : Int64) : Prop := 0 ≤ index.toInt ∧ index.toInt < t.length

instance (t : Text) (index : Int64) : Decidable (t.Has index) := inferInstanceAs (Decidable (_ ∧ _))

/-- The integer is the code of a character: a code point, but for the surrogates. -/
def Compute.IsCode (n : Int64) : Prop :=
  (0 ≤ n.toInt ∧ n.toInt ≤ 0xD7FF) ∨ (0xE000 ≤ n.toInt ∧ n.toInt ≤ 0x10FFFF)

instance (n : Int64) : Decidable (Compute.IsCode n) := inferInstanceAs (Decidable (_ ∨ _))

namespace Compute

variable {i : Instruction} {t u new : Text} {j k n : Int64} {c : Char}

theorem position_of_has (h : t.Has k) : position i t k = .ok k.toInt.toNat := if_pos h

theorem position_of_not_has (h : ¬ t.Has k) : position i t k = .error (.outOfRange i.opcode k t.length) := if_neg h

theorem exists_of_has (h : t.Has k) : ∃ c, t[k.toInt.toNat]? = some c := by
  have hlt : k.toInt.toNat < t.length := by
    have hnonneg := h.1
    have hlt := h.2
    omega
  exact ⟨_, List.getElem?_eq_getElem hlt⟩

theorem charAt_of_has (h : t.Has k) (hc : t[k.toInt.toNat]? = some c) : charAt i t k = .ok c := by
  unfold charAt
  rw [position_of_has h]
  simp only [hc]

theorem charAt_of_not_has (h : ¬ t.Has k) : charAt i t k = .error (.outOfRange i.opcode k t.length) := by
  unfold charAt
  rw [position_of_not_has h]

/-- An index is a place of its own. -/
theorem toNat_ne_of_ne (hj : t.Has j) (hk : t.Has k) (hne : j ≠ k) : k.toInt.toNat ≠ j.toInt.toNat := by
  have hint : j.toInt ≠ k.toInt := fun h => hne (Int64.toInt_inj.1 h)
  have hj := hj.1
  have hk := hk.1
  omega

theorem toInt_ofNat (h : (t.length : Int) ≤ k.toInt) : (Int64.ofNat t.length).toInt = t.length := by
  have hlt := k.toInt_lt
  exact Int64.toInt_ofNat_of_lt (by omega)

/-- An index behind the first text, counted in the second. -/
theorem toInt_sub_ofNat (h : (t.length : Int) ≤ k.toInt) :
    (k - Int64.ofNat t.length).toInt = k.toInt - t.length := by
  have hlt := k.toInt_lt
  rw [Int64.toInt_sub, toInt_ofNat h, Int.bmod_eq_of_le (by omega) (by omega)]

/-! ## Characters and codes -/

theorem isCode_iff : IsCode n ↔ 0 ≤ n.toInt ∧ n.toInt.toNat.isValidChar := by
  unfold IsCode Nat.isValidChar
  omega

theorem toInt_codeOf (c : Char) : (codeOf c).toInt = c.toNat := by
  have hvalid : c.toNat < 0x110000 := by
    rcases c.valid with h | h
    · exact Nat.lt_trans h (by decide)
    · exact h.2
  exact Int64.toInt_ofNat_of_lt (Nat.lt_trans hvalid (by decide))

theorem charOf_codeOf (c : Char) : charOf (codeOf c) = .ok c := by
  unfold charOf
  rw [toInt_codeOf, Int.toNat_natCast, if_pos ⟨Int.natCast_nonneg _, c.valid⟩, Char.ofNat_toNat]

theorem charOf_of_isCode (h : IsCode n) : ∃ c, charOf n = .ok c ∧ codeOf c = n := by
  have hcode := isCode_iff.1 h
  let c := Char.ofNatAux n.toInt.toNat hcode.2
  have hc : c.toNat = n.toInt.toNat := rfl
  refine ⟨c, ?_, ?_⟩
  · unfold charOf
    rw [if_pos hcode, ← hc, Char.ofNat_toNat]
  · rw [← Int64.toInt_inj, toInt_codeOf, hc, Int.toNat_of_nonneg hcode.1]

theorem charOf_of_not_isCode (h : ¬ IsCode n) : charOf n = .error (.codePoint n) :=
  if_neg fun hcode => h (isCode_iff.2 hcode)

end Compute

/-! ## Operations -/

namespace Machine

variable {m : Machine} {t u : Text} {i j : Int64} {c : Char} {op : Opcode}

section Reading

variable {g : Char → Value} (hperform : ∀ i : Instruction, i.opcode = op → m.perform i = Action.store i fun s => do
  let t ← s.text i 1
  let index ← s.int i 2
  return g (← Compute.charAt i t index))
include hperform

/-- Both operations that read one place of a text come to what they make of the character there. -/
theorem gives_of_charAt {r : Except Fault Value} (hr : ∀ instr : Instruction, instr.opcode = op →
    (Compute.charAt instr t i >>= fun c => .ok (g c)) = r) : m.Gives op [.text t, .int i] r := by
  refine gives_of_store hperform fun s instr hop hargs => ?_
  rw [State.text_of_value (hargs 0 _ rfl), State.int_of_value (hargs 1 _ rfl)]
  exact hr instr hop

theorem gives_of_has (h : t.Has i) (hc : t[i.toInt.toNat]? = some c) : m.Gives op [.text t, .int i] (.ok (g c)) := by
  refine gives_of_charAt hperform fun instr _ => ?_
  rw [Compute.charAt_of_has h hc]
  rfl

theorem gives_of_not_has (h : ¬ t.Has i) : m.Gives op [.text t, .int i] (.error (.outOfRange op i t.length)) := by
  refine gives_of_charAt hperform fun instr hop => ?_
  rw [Compute.charAt_of_not_has h, hop]
  rfl

end Reading

theorem perform_getchar (m : Machine) (i : Instruction) (h : i.opcode = .getchar) :
    m.perform i = Action.store i fun s => do
      let t ← s.text i 1
      let index ← s.int i 2
      return .text [← Compute.charAt i t index] := by
  obtain ⟨_, _, _⟩ := i
  subst h
  rfl

theorem perform_stri2int (m : Machine) (i : Instruction) (h : i.opcode = .stri2int) :
    m.perform i = Action.store i fun s => do
      let t ← s.text i 1
      let index ← s.int i 2
      return .int (Compute.codeOf (← Compute.charAt i t index)) := by
  obtain ⟨_, _, _⟩ := i
  subst h
  rfl

theorem gives_getchar (m : Machine) (h : t.Has i) (hc : t[i.toInt.toNat]? = some c) :
    m.Gives .getchar [.text t, .int i] (.ok (.text [c])) :=
  gives_of_has m.perform_getchar h hc

theorem getchar_fails (m : Machine) (h : ¬ t.Has i) :
    m.Gives .getchar [.text t, .int i] (.error (.outOfRange .getchar i t.length)) :=
  gives_of_not_has m.perform_getchar h

/-- **Reading depends on the place alone**: where two texts have the same character, the same is read. -/
theorem agrees_getchar (m : Machine) (ht : t.Has i) (hu : u.Has j) (h : t[i.toInt.toNat]? = u[j.toInt.toNat]?) :
    m.Agrees .getchar [.text t, .int i] [.text u, .int j] := by
  obtain ⟨c, hc⟩ := Compute.exists_of_has ht
  exact agrees_of_gives (m.gives_getchar ht hc) (m.gives_getchar hu (h.symm.trans hc))

theorem gives_strlen (m : Machine) (t : Text) : m.Gives .strlen [.text t] (.ok (.int (Int64.ofNat t.length))) := by
  refine gives_of_store (f := fun i s => do return .int (Int64.ofNat (← s.text i 1).length))
    (by rintro ⟨_, _, _⟩ rfl; rfl) fun s i _ hargs => ?_
  rw [State.text_of_value (hargs 0 _ rfl)]
  rfl

theorem gives_concat (m : Machine) (t u : Text) : m.Gives .concat [.text t, .text u] (.ok (.text (t ++ u))) := by
  refine gives_of_store (f := fun i s => do return .text ((← s.text i 1) ++ (← s.text i 2)))
    (by rintro ⟨_, _, _⟩ rfl; rfl) fun s i _ hargs => ?_
  rw [State.text_of_value (hargs 0 _ rfl), State.text_of_value (hargs 1 _ rfl)]
  rfl

theorem turns_setchar (m : Machine) (t new : Text) (i : Int64) {r : Except Fault Value}
    (hr : ∀ instr : Instruction, instr.opcode = .setchar →
      (Compute.setChar instr t i new >>= fun u => .ok (.text u)) = r) :
    m.Turns .setchar (some (.text t)) [.int i, .text new] r := by
  refine turns_of_store (f := fun i s => s.replaced i) (by rintro ⟨_, _, _⟩ rfl; rfl)
    fun s instr v hop hvar hold hargs => ?_
  unfold State.replaced
  rw [State.text_of_value (State.value_of_var hvar hold), State.int_of_value (hargs 0 _ rfl),
    State.text_of_value (hargs 1 _ rfl)]
  exact hr instr hop

/-! ## Writing and then reading -/

theorem turns_setchar_of_has (m : Machine) (h : t.Has i) (c : Char) (rest : Text) :
    m.Turns .setchar (some (.text t)) [.int i, .text (c :: rest)] (.ok (.text (t.set i.toInt.toNat c))) := by
  refine m.turns_setchar t (c :: rest) i fun instr _ => ?_
  unfold Compute.setChar
  rw [Compute.position_of_has h]
  rfl

theorem setchar_fails_of_not_has (m : Machine) (h : ¬ t.Has i) (new : Text) :
    m.Turns .setchar (some (.text t)) [.int i, .text new] (.error (.outOfRange .setchar i t.length)) := by
  refine m.turns_setchar t new i fun instr hop => ?_
  unfold Compute.setChar
  rw [Compute.position_of_not_has h, hop]
  rfl

theorem setchar_fails_of_empty (m : Machine) (h : t.Has i) :
    m.Turns .setchar (some (.text t)) [.int i, .text []] (.error .emptyReplacement) := by
  refine m.turns_setchar t [] i fun instr _ => ?_
  unfold Compute.setChar
  rw [Compute.position_of_has h]
  rfl

theorem agrees_strlen_set (m : Machine) (t : Text) (k : Nat) (c : Char) :
    m.Agrees .strlen [.text (t.set k c)] [.text t] := by
  refine agrees_of_gives (m.gives_strlen (t.set k c)) ?_
  rw [List.length_set]
  exact m.gives_strlen t

theorem has_set {k : Nat} : Text.Has (t.set k c) j ↔ t.Has j := by
  unfold Text.Has
  rw [List.length_set]

theorem gives_getchar_set (m : Machine) (h : t.Has i) (c : Char) :
    m.Gives .getchar [.text (t.set i.toInt.toNat c), .int i] (.ok (.text [c])) := by
  obtain ⟨old, hold⟩ := Compute.exists_of_has h
  have hlt := (List.getElem?_eq_some_iff.1 hold).1
  exact m.gives_getchar (has_set.2 h) (List.getElem?_set_self hlt)

theorem agrees_getchar_set (m : Machine) (h : t.Has i) (c : Char) (hne : j ≠ i) :
    m.Agrees .getchar [.text (t.set i.toInt.toNat c), .int j] [.text t, .int j] := by
  by_cases hj : t.Has j
  · refine m.agrees_getchar (has_set.2 hj) hj ?_
    rw [List.getElem?_set_ne (Compute.toNat_ne_of_ne hj h hne)]
  · have hset : ¬ Text.Has (t.set i.toInt.toNat c) j := mt has_set.1 hj
    have hfails := m.getchar_fails hset
    rw [List.length_set] at hfails
    exact agrees_of_gives hfails (m.getchar_fails hj)

/-! ## One text behind another -/

theorem has_append_left (h : t.Has i) (u : Text) : Text.Has (t ++ u) i := by
  have hnonneg := h.1
  have hlt := h.2
  refine ⟨hnonneg, ?_⟩
  rw [List.length_append]
  omega

/-- A place of both texts together is one of the first text, or lies behind it in the second. -/
theorem has_of_append (h : Text.Has (t ++ u) i) (hnot : ¬ t.Has i) :
    (t.length : Int) ≤ i.toInt ∧ u.Has (i - Int64.ofNat t.length) := by
  obtain ⟨hnonneg, hlt⟩ := h
  rw [List.length_append] at hlt
  have hle : (t.length : Int) ≤ i.toInt := Int.not_lt.1 fun hlt => hnot ⟨hnonneg, hlt⟩
  refine ⟨hle, ?_⟩
  unfold Text.Has
  rw [Compute.toInt_sub_ofNat hle]
  omega

theorem agrees_getchar_left (m : Machine) (h : t.Has i) (u : Text) :
    m.Agrees .getchar [.text (t ++ u), .int i] [.text t, .int i] := by
  refine m.agrees_getchar (has_append_left h u) h ?_
  obtain ⟨c, hc⟩ := Compute.exists_of_has h
  rw [List.getElem?_append_left (List.getElem?_eq_some_iff.1 hc).1]

theorem agrees_getchar_right (m : Machine) (h : Text.Has (t ++ u) i) (hnot : ¬ t.Has i) :
    m.Agrees .getchar [.text (t ++ u), .int i] [.text u, .int (i - Int64.ofNat t.length)] := by
  obtain ⟨hle, hu⟩ := has_of_append h hnot
  refine m.agrees_getchar h hu ?_
  rw [Compute.toInt_sub_ofNat hle, List.getElem?_append_right (by omega)]
  congr 1
  omega

/-! ## Laws -/

/-- **Texts are arrays of characters.**  `STRLEN` counts the characters.  `GETCHAR` succeeds iff the index
counts one of them, from zero, and leaves it.  `SETCHAR` succeeds iff the index does so and there is a
character to put there; then the length is the same as before, that character is read at the index,
and at every other index the same is read as before.  What `CONCAT` leaves has the length of both texts
together, and there the characters of the first are read, and behind them those of the second.  An
index that is out of range is the fault, with the index and the length, also if there is nothing to
put there; that there is nothing is the only other fault. -/
theorem texts_are_arrays (m : Machine) (t : Text) :
    (m.Gives .strlen [.text t] (.ok (.int (Int64.ofNat t.length))) ∧
      (t.length ≤ Int64.maxValue.toInt → (Int64.ofNat t.length).toInt = t.length)) ∧
    (∀ i, (t.Has i → ∃ c, m.Gives .getchar [.text t, .int i] (.ok (.text [c]))) ∧
      (¬ t.Has i → m.Gives .getchar [.text t, .int i] (.error (.outOfRange .getchar i t.length)))) ∧
    (∀ i new, (t.Has i → ∀ c rest, new = c :: rest →
        ∃ t', m.Turns .setchar (some (.text t)) [.int i, .text new] (.ok (.text t')) ∧
          m.Agrees .strlen [.text t'] [.text t] ∧ m.Gives .getchar [.text t', .int i] (.ok (.text [c])) ∧
          ∀ j, j ≠ i → m.Agrees .getchar [.text t', .int j] [.text t, .int j]) ∧
      (t.Has i → new = [] → m.Turns .setchar (some (.text t)) [.int i, .text new] (.error .emptyReplacement)) ∧
      (¬ t.Has i →
        m.Turns .setchar (some (.text t)) [.int i, .text new] (.error (.outOfRange .setchar i t.length)))) ∧
    (∀ u, ∃ w, m.Gives .concat [.text t, .text u] (.ok (.text w)) ∧
      ∀ j, m.Gives .strlen [.text t] (.ok (.int j)) →
        (∀ k, m.Gives .strlen [.text u] (.ok (.int k)) → m.Gives .strlen [.text w] (.ok (.int (j + k)))) ∧
        (∀ i, t.Has i → m.Agrees .getchar [.text w, .int i] [.text t, .int i]) ∧
        (∀ i, w.Has i → ¬ t.Has i → m.Agrees .getchar [.text w, .int i] [.text u, .int (i - j)])) := by
  refine ⟨⟨m.gives_strlen t, Compute.toInt_ofNat⟩, fun i => ⟨fun h => ?_, m.getchar_fails⟩,
    fun i new => ⟨?_, ?_, fun h => m.setchar_fails_of_not_has h new⟩, fun u => ⟨t ++ u, m.gives_concat t u, ?_⟩⟩
  · obtain ⟨c, hc⟩ := Compute.exists_of_has h
    exact ⟨c, m.gives_getchar h hc⟩
  · rintro h c rest rfl
    exact ⟨_, m.turns_setchar_of_has h c rest, m.agrees_strlen_set t _ c, m.gives_getchar_set h c,
      fun j => m.agrees_getchar_set h c⟩
  · rintro h rfl
    exact m.setchar_fails_of_empty h
  · intro j hj
    cases hj.unique (m.gives_strlen t)
    refine ⟨fun k hk => ?_, fun i h => m.agrees_getchar_left h u, fun i => m.agrees_getchar_right⟩
    cases hk.unique (m.gives_strlen u)
    rw [← Int64.ofNat_add, ← List.length_append]
    exact m.gives_strlen (t ++ u)

/-- One character that takes four bytes is overwritten with one that takes two. -/
theorem texts_are_arrays_of_long_character :
    let m : Machine := ⟨#[], [], none, .quiet⟩
    let d : Variable := ⟨.gf, "d"⟩
    let s : State := { State.start .nothing with frames := ⟨⟨[("d", some (.text "a😀b"))]⟩, none, []⟩ }
    let setchar (index : Int64) (new : Text) : Instruction :=
      ⟨.setchar, 1, [.var d, .const (.int index), .const (.text new)]⟩
    m.result (setchar (-1) "") s = .error (.outOfRange .setchar (-1) 3) ∧
      ∃ t : Text, m.result (setchar 1 "éx") s = .ok (some (.text t)) ∧ m.Gives .strlen [.text t] (.ok (.int 3)) ∧
        m.Gives .getchar [.text t, .int 1] (.ok (.text "é")) ∧ m.Gives .getchar [.text t, .int 2] (.ok (.text "b")) ∧
        m.Gives .getchar [.text t, .int 3] (.error (.outOfRange .getchar 3 3)) := by
  intro m d s setchar
  have hargs (index : Int64) (new : Text) := s.value_of_constants .setchar 1 (.var d) [.int index, .text new]
  have hd : s.lookup d = .ok (some (.text "a😀b")) := by decide +kernel
  obtain ⟨⟨hlength, -⟩, hget, hset, -⟩ := texts_are_arrays m "a😀b"
  have hbefore := (hset (-1) "").2.2 (by decide)
  obtain ⟨t, hturns, hsame, hnew, hother⟩ := (hset 1 "éx").1 (by decide) 'é' ['x'] rfl
  have hlast : m.Gives .getchar [.text "a😀b", .int 2] (.ok (.text "b")) := m.gives_getchar (by decide) rfl
  exact ⟨hbefore s _ d rfl rfl hd (hargs (-1) ""), t, hturns s _ d rfl rfl hd (hargs 1 "éx"), (hsame _).2 hlength, hnew,
    (hother 2 (by decide) _).2 hlast, (hother 3 (by decide) _).2 ((hget 3).2 (by decide))⟩

theorem gives_int2char (m : Machine) (n : Int64) :
    m.Gives .int2char [.int n] (Compute.charOf n >>= fun c => .ok (.text [c])) := by
  refine gives_of_store (f := fun i s => do return .text [← Compute.charOf (← s.int i 1)])
    (by rintro ⟨_, _, _⟩ rfl; rfl) fun s i _ hargs => ?_
  rw [State.int_of_value (hargs 0 _ rfl)]
  rfl

theorem gives_stri2int (m : Machine) (h : t.Has i) (hc : t[i.toInt.toNat]? = some c) :
    m.Gives .stri2int [.text t, .int i] (.ok (.int (Compute.codeOf c))) :=
  gives_of_has m.perform_stri2int h hc

/-- **Characters and their codes correspond.**  `INT2CHAR` succeeds iff the integer is a code point that is
no surrogate; it leaves a text of length 1, in which `STRI2INT` finds the integer.  In every text and at
every index `STRI2INT` succeeds iff `GETCHAR` does, and `INT2CHAR` makes of its code what `GETCHAR` leaves;
otherwise both fail alike, each under its own name. -/
theorem codes_of_characters (m : Machine) :
    (∀ n : Int64, (Compute.IsCode n → ∃ t, m.Gives .int2char [.int n] (.ok (.text t)) ∧
        m.Gives .strlen [.text t] (.ok (.int 1)) ∧ m.Gives .stri2int [.text t, .int 0] (.ok (.int n))) ∧
      (¬ Compute.IsCode n → m.Gives .int2char [.int n] (.error (.codePoint n)))) ∧
    (∀ (t : Text) (i : Int64),
      (∃ c n, m.Gives .getchar [.text t, .int i] (.ok (.text [c])) ∧
        m.Gives .stri2int [.text t, .int i] (.ok (.int n)) ∧ m.Gives .int2char [.int n] (.ok (.text [c]))) ∨
      (m.Gives .getchar [.text t, .int i] (.error (.outOfRange .getchar i t.length)) ∧
        m.Gives .stri2int [.text t, .int i] (.error (.outOfRange .stri2int i t.length)))) := by
  refine ⟨fun n => ⟨fun h => ?_, fun h => ?_⟩, fun t i => ?_⟩
  · obtain ⟨c, hc, hcode⟩ := Compute.charOf_of_isCode h
    have hgives := m.gives_int2char n
    rw [hc] at hgives
    have hfirst : Text.Has [c] 0 := by simp [Text.Has]
    refine ⟨[c], hgives, m.gives_strlen [c], ?_⟩
    rw [← hcode]
    exact m.gives_stri2int hfirst rfl
  · have hgives := m.gives_int2char n
    rw [Compute.charOf_of_not_isCode h] at hgives
    exact hgives
  · by_cases h : t.Has i
    · obtain ⟨c, hc⟩ := Compute.exists_of_has h
      have hback := m.gives_int2char (Compute.codeOf c)
      rw [Compute.charOf_codeOf] at hback
      exact .inl ⟨c, Compute.codeOf c, m.gives_getchar h hc, m.gives_stri2int h hc, hback⟩
    · exact .inr ⟨m.getchar_fails h, gives_of_not_has m.perform_stri2int h⟩

/-- The last code point, and the first surrogate. -/
theorem codes_of_characters_at_limits :
    let m : Machine := ⟨#[], [], none, .quiet⟩
    let d : Variable := ⟨.gf, "d"⟩
    let s : State := { State.start .nothing with frames := ⟨⟨[("d", none)]⟩, none, []⟩ }
    let int2char (n : Int64) : Instruction := ⟨.int2char, 1, [.var d, .const (.int n)]⟩
    (∃ t : Text, m.result (int2char 0x10FFFF) s = .ok (some (.text t)) ∧ m.Gives .strlen [.text t] (.ok (.int 1)) ∧
      m.Gives .stri2int [.text t, .int 0] (.ok (.int 0x10FFFF))) ∧
    m.result (int2char 0xD800) s = .error (.codePoint 0xD800) := by
  intro m d s int2char
  have hargs (n : Int64) := s.value_of_constants .int2char 1 (.var d) [.int n]
  have hd : s.lookup d = .ok none := by decide +kernel
  obtain ⟨t, ht, hlength, hcode⟩ := ((codes_of_characters m).1 0x10FFFF).1 (by decide)
  have hsurrogate := ((codes_of_characters m).1 0xD800).2 (by decide)
  exact ⟨⟨t, ht none s _ d rfl rfl hd (hargs _), hlength, hcode⟩, hsurrogate none s _ d rfl rfl hd (hargs _)⟩

end Machine

end IppCode
