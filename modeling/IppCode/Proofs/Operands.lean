import IppCode.Source.Assemble
import IppCode.Source.Disassemble
import IppCode.Proofs.Binding
import IppCode.Proofs.Escapes
import IppCode.Proofs.Literals
/-!
# Operands — an operand is written as one token, and is read back

An operand has a kind and a text under which a record holds it (`written`).  The token
that a disassembled line has for the operand is one word (`token_operandText`), stands
for that kind and text in every slot that the operand fits (`argument?_operandText`), and
these are read as the operand again (`parse_written`).
-/
namespace IppCode

open Text (Plain Token)

/-! ## Names -/

namespace Name

theorem plain_of_continues {c : Char} (h : continues c = true) : Plain c :=
  Text.plain_of_class (by decide) h

theorem continues_of_begins {c : Char} (h : begins c = true) : continues c = true := by
  unfold begins at h
  unfold continues Unicode.isAlphanumeric
  cases ha : Unicode.isAlphabetic c with
  | true => rfl
  | false =>
    rw [ha, Bool.false_or] at h
    rw [h, Bool.or_true]

theorem token_of_isName {t : Text} (h : isName t = true) : Token t := by
  cases t with
  | nil => cases h
  | cons c r =>
    obtain ⟨hc, hr⟩ := (Bool.and_eq_true _ _).mp h
    refine ⟨List.cons_ne_nil c r, fun d hd => ?_⟩
    rcases List.mem_cons.1 hd with rfl | hd
    · exact plain_of_continues (continues_of_begins hc)
    · exact plain_of_continues (List.all_eq_true.1 hr d hd)

end Name

/-! ## Texts of closed sets -/

theorem Scope.ofText?_text (s : Scope) : ofText? s.text = some s := by cases s <;> decide

theorem TypeName.ofText?_text (n : TypeName) : ofText? n.text = some n := by cases n <;> decide

theorem ArgKind.ofText?_text (k : ArgKind) : ofText? k.text = some k := by cases k <;> decide

/-- The kind of a constant names no frame. -/
theorem ArgKind.scope_text (k : ArgKind) : Scope.ofText? k.text = none := by cases k <;> decide

theorem ArgKind.mark_not_mem (k : ArgKind) : '@' ∉ k.text := by cases k <;> decide

theorem ArgKind.token_text (k : ArgKind) : Token k.text := by cases k <;> decide

theorem TypeName.token_text (n : TypeName) : Token n.text := by cases n <;> decide

theorem Value.token_boolText (b : Bool) : Token (boolText b) := by cases b <;> decide

theorem Scope.token_text (s : Scope) : Token s.text := by cases s <;> decide

theorem Scope.mark_not_mem (s : Scope) : '@' ∉ s.text := by cases s <;> decide

namespace Variable

theorem ofText?_text {v : Variable} (h : Name.isName v.name = true) : ofText? v.text = some v := by
  unfold ofText? text
  rw [Text.cutAt_append v.scope.mark_not_mem]
  simp only [Scope.ofText?_text, h, if_true]

theorem token_text {v : Variable} (h : Name.isName v.name = true) : Token v.text := by
  refine Text.token_append v.scope.token_text fun c hc => ?_
  rcases List.mem_cons.1 hc with rfl | hc
  · exact ⟨rfl, by decide⟩
  · exact (Name.token_of_isName h).2 c hc

end Variable

/-! ## Kinds and texts -/

namespace Operand

/-- The kind and the text that a record has for the operand. -/
def written : Operand → ArgKind × Text
  | var v               => (.var, v.text)
  | const (.int n)      => (.int, Numeral.ofInt n.toInt)
  | const (.bool b)     => (.bool, Value.boolText b)
  | const (.text t)     => (.string, Escape.encode t)
  | const .nil          => (.nil, "nil")
  | const (.label name) => (.label, name)
  | const (.type n)     => (.type, n.text)

/-- **The kind and text of an operand are read as the operand.** -/
theorem parse_written {o : Operand} (h : o.Named) : parse o.written.1.text o.written.2 = .ok o := by
  unfold parse
  rw [ArgKind.ofText?_text]
  cases o with
  | var v => simp only [written, ofKind, Variable.ofText?_text h]
  | const value =>
    cases value with
    | int n => simp only [written, ofKind, IntLiteral.parse_ofInt]
    | bool b => cases b <;> rfl
    | text t => simp only [written, ofKind, Escape.decode_encode]
    | type n => simp only [written, ofKind, TypeName.ofText?_text]
    | label name => simp only [written, ofKind, show Name.isName name = true from h, if_true]
    | nil => rfl

theorem plain_of_mem_written {o : Operand} (h : o.Named) : ∀ c ∈ o.written.2, Plain c := by
  cases o with
  | var v => exact (Variable.token_text h).2
  | const value =>
    cases value with
    | int n => exact Numeral.plain_of_mem_ofInt n.toInt
    | bool b => exact (Value.token_boolText b).2
    | text t => exact fun c hc => Escape.plain_of_mem_encode hc
    | type n => exact n.token_text.2
    | label name => exact (Name.token_of_isName h).2
    | nil => exact ArgKind.nil.token_text.2

end Operand

namespace Source

/-- A constant is written with its kind in front, everything else without. -/
theorem operandText_eq (o : Operand) : operandText o =
    if o.written.1.isConstant then o.written.1.text ++ '@' :: o.written.2 else o.written.2 := by
  cases o with
  | var v => rfl
  | const value => cases value <;> rfl

theorem token_operandText {o : Operand} (h : o.Named) : Token (operandText o) := by
  cases o with
  | var v => exact Variable.token_text h
  | const value =>
    cases value with
    | label name => exact Name.token_of_isName h
    | type n => exact n.token_text
    | int _ | bool _ | text _ | nil =>
      rw [operandText_eq]
      refine Text.token_append (ArgKind.token_text _) fun c hc => ?_
      rcases List.mem_cons.1 hc with rfl | hc
      · decide
      · exact Operand.plain_of_mem_written h c hc

theorem reference?_text {v : Variable} (h : Name.isName v.name = true) :
    reference? v.text = some (.var, v.text) := by
  unfold reference?
  rw [Variable.ofText?_text h]
  rfl

/-- What is written with a kind in front is no reference. -/
theorem reference?_constant (k : ArgKind) (t : Text) : reference? (k.text ++ '@' :: t) = none := by
  unfold reference? Variable.ofText?
  rw [Text.cutAt_append k.mark_not_mem]
  simp only [ArgKind.scope_text]
  rfl

theorem constant?_written {o : Operand} (hk : o.written.1.isConstant = true) :
    constant? (o.written.1.text ++ '@' :: o.written.2) = some o.written := by
  unfold constant?
  rw [Text.cutAt_append (ArgKind.mark_not_mem _)]
  simp only [ArgKind.ofText?_text]
  cases o with
  | var v => cases hk
  | const value =>
    cases value with
    | int n => simp [Operand.written, IntLiteral.parse_ofInt]
    | bool b => cases b <;> rfl
    | text t => simp [Operand.written, Escape.wellFormed_encode]
    | nil => rfl
    | label _ | type _ => cases hk

/-- **The token of an operand stands for it** in every slot that the operand fits. -/
theorem argument?_operandText {slot : Slot} {o : Operand} (hfit : slot.fits o = true) (h : o.Named) :
    argument? slot (operandText o) = some o.written := by
  cases slot with
  | var =>
    obtain ⟨v, rfl⟩ := Slot.fits_var hfit
    exact reference?_text h
  | label =>
    obtain ⟨name, rfl⟩ := Slot.fits_label hfit
    have hname : Name.isName name = true := h
    change argument? .label name = some (.label, name)
    unfold argument?
    rw [if_pos hname]
  | type =>
    obtain ⟨n, rfl⟩ := Slot.fits_type hfit
    change argument? .type n.text = some (.type, n.text)
    unfold argument?
    rw [TypeName.ofText?_text]
    rfl
  | symb =>
    cases o with
    | var v =>
      change argument? .symb v.text = some (.var, v.text)
      unfold argument?
      rw [reference?_text h]
      rfl
    | const value =>
      have hk : (Operand.const value).written.1.isConstant = true := by
        cases value <;> first | rfl | cases hfit
      unfold argument?
      rw [operandText_eq, if_pos hk, reference?_constant, constant?_written hk]
      rfl

end Source

end IppCode
