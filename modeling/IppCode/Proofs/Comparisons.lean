import Mathlib.Data.Bool.Basic
import IppCode.Proofs.ByteOrder
import IppCode.Proofs.Causality
/-!
# Comparisons — the order that programs find between values

`LT` and `GT` ask for the order of two values, `EQ` compares them by a rule of its own.  The two
agree (`Compute.equal_of_order`): integers, booleans and texts are ordered, each among themselves and
texts by their code points, nil and values of two types are not.  An operation leaves what it has
found in its first operand (`Machine.result`), so `comparisons_coherent` says all this of the
operations.
-/
namespace IppCode

/-! ## Values -/

section Lines

variable {α : Type} [LT α] [LE α] [DecidableLT α] [DecidableEq α] [Std.IsLinearOrder α] [Std.LawfulOrderLT α]

theorem compare_swap (a b : α) : compareOfLessAndEq b a = (compareOfLessAndEq a b).swap :=
  compareOfLessAndEq_eq_swap Std.le_antisymm (fun _ _ => Std.le_total) Std.not_le

theorem compare_eq_eq_iff [DecidableLE α] {a b : α} : compareOfLessAndEq a b = .eq ↔ a = b :=
  compareOfLessAndEq_eq_eq Std.le_refl Std.not_le

end Lines

namespace Value

/-- The values that are ordered. -/
def isOrdered : Value → Bool
  | int _ | bool _ | text _ => true
  | type _ | label _ | nil  => false

variable {a b c : Value} {o : Ordering}

theorem isNil_eq_false (h : a ≠ .nil) : a.isNil = false := by
  cases a <;> first | rfl | exact absurd rfl h

/-- **Two values are in order iff they are of one type that is ordered.** -/
theorem isSome_order? (a b : Value) : (order? a b).isSome = (a.isOrdered && a.sameType b) := by
  cases a <;> cases b <;> rfl

theorem order?_swap (a b : Value) : order? b a = (order? a b).map Ordering.swap := by
  cases a with
  | type _ | label _ | nil => cases b <;> rfl
  | int _ | bool _ | text _ => cases b <;> first | rfl | exact congrArg some (compare_swap _ _)

theorem eq_iff_of_order? (h : order? a b = some o) : o = .eq ↔ a = b := by
  cases a with
  | type _ | label _ | nil => cases h
  | int _ | bool _ | text _ =>
    cases b <;> cases h
    rw [compare_eq_eq_iff]
    simp

theorem order?_lt_trans (hab : order? a b = some .lt) (hbc : order? b c = some .lt) : order? a c = some .lt := by
  cases a with
  | type _ | label _ | nil => cases hab
  | int _ | bool _ | text _ =>
    cases b <;> try cases hab
    cases c <;> try cases hbc
    simp only [order?, Option.some.injEq, compareOfLessAndEq_eq_lt] at hab hbc ⊢
    exact Std.lt_trans hab hbc

theorem order?_text_lt {t u : Text} : order? (.text t) (.text u) = some .lt ↔ t < u := by
  simp only [order?, Option.some.injEq, compareOfLessAndEq_eq_lt]

theorem ne_nil_of_order? (h : order? a b = some o) : a.isNil = false ∧ b.isNil = false ∧ a.sameType b = true := by
  cases a <;> cases b <;> first | exact ⟨rfl, rfl, rfl⟩ | cases h

end Value

namespace Compute

variable {i : Instruction} {a b : Value} {o : Ordering}

theorem order_eq_ok : order i a b = .ok o ↔ Value.order? a b = some o := by
  constructor
  · intro h
    unfold order at h
    split at h <;> try cases h
    split at h <;> try cases h
    split at h <;> cases h
    assumption
  · intro h
    obtain ⟨ha, hb, -⟩ := Value.ne_nil_of_order? h
    simp [order, ha, hb, h]

/-- **The two rules agree** where there is an order. -/
theorem equal_of_order? (h : Value.order? a b = some o) : equal i a b = .ok (o == .eq) := by
  obtain ⟨ha, hb, hsame⟩ := Value.ne_nil_of_order? h
  have hiff := Value.eq_iff_of_order? h
  simp [equal, ha, hb, hsame, Bool.beq_eq_decide_eq, hiff]

theorem order_of_nil (h : a = .nil ∨ b = .nil) : order i a b = .error (i.typeFault "non-nil" .nil) := by
  cases a with
  | nil => rfl
  | int _ | bool _ | text _ | type _ | label _ =>
    obtain rfl := h.resolve_left (by simp)
    rfl

theorem equal_of_nil (h : a = .nil ∨ b = .nil) : equal i a b = .ok (a = .nil ∧ b = .nil) := by
  cases a with
  | nil => cases b <;> rfl
  | int _ | bool _ | text _ | type _ | label _ =>
    obtain rfl := h.resolve_left (by simp)
    rfl

theorem order_of_mixed (ha : a ≠ .nil) (hb : b ≠ .nil) (h : a.sameType b = false) :
    order i a b = .error (i.typeFault a.typeName b) := by
  have hnone : Value.order? a b = none := by
    rw [← Option.not_isSome_iff_eq_none, Value.isSome_order?, h]
    simp
  simp [order, Value.isNil_eq_false ha, Value.isNil_eq_false hb, hnone]

theorem equal_of_mixed (ha : a ≠ .nil) (hb : b ≠ .nil) (h : a.sameType b = false) :
    equal i a b = .error (i.typeFault a.typeName b) := by
  simp [equal, Value.isNil_eq_false ha, Value.isNil_eq_false hb, h]

end Compute

/-! ## Operations -/

namespace State

variable {op : Opcode} {n : Int} {o x y : Operand} {a b : Value}

theorem equalOperands_of_args (s : State) : s.equalOperands ⟨op, n, [o, x, y]⟩ =
    (s.valueOf x >>= fun a => s.valueOf y >>= fun b => Compute.equal ⟨op, n, [o, x, y]⟩ a b) := rfl

theorem equalOperands_of_values {s : State} (hx : s.valueOf x = .ok a) (hy : s.valueOf y = .ok b) :
    s.equalOperands ⟨op, n, [o, x, y]⟩ = Compute.equal ⟨op, n, [o, x, y]⟩ a b := by
  rw [equalOperands_of_args, hx, hy]
  rfl

end State

namespace Machine

/-- What an instruction leaves in its first operand, or the fault that it raises. -/
def result (m : Machine) (i : Instruction) (s : State) : Except Fault (Option Value) :=
  match m.perform i s with
  | .ok _ t        => do t.lookup (← i.var 0)
  | .error fault _ => .error fault

variable {m : Machine} {i : Instruction} {s : State} {v : Variable} {f : State → Except Fault Value}

/-- **What stores a value leaves it there**, and raises no fault of its own. -/
theorem result_of_store (h : m.perform i = Action.store i f) (hv : s.destination i = .ok v) :
    m.result i s = (f s).map some := by
  unfold result
  rw [h]
  cases hf : f s with
  | ok value =>
    obtain ⟨hvar, c, hc⟩ := Action.destination_eq_ok.1 hv
    obtain ⟨frames, hassign⟩ := Frames.Change.assign_of_lookup value (Action.lookup_eq_ok.1 hc)
    rw [Action.store_eq_ok.2 ⟨v, value, frames, hv, hf, hassign, rfl, rfl⟩]
    simp only [hvar]
    exact Action.lookup_eq_ok.2 (Frames.Change.lookup_of_assign hassign)
  | error fault =>
    have hlook : Action.look f s = .error fault s := Action.look_eq_error.2 ⟨hf, rfl⟩
    have hstore : Action.store i f s = .error fault s :=
      bind_eq_error.2 (.inr ⟨v, s, Action.look_eq_ok.2 ⟨hv, rfl⟩, bind_eq_error.2 (.inl hlook)⟩)
    rw [hstore]
    rfl

theorem result_eq_ok {r : Option Value} (h : m.perform i = Action.store i f) (hv : s.destination i = .ok v) :
    m.result i s = .ok r ↔ ∃ value, f s = .ok value ∧ some value = r := by
  rw [result_of_store h hv]
  cases f s <;> simp [Except.map]

/-- What an operation on two operands leaves in the variable `v`. -/
def resultOf (m : Machine) (s : State) (n : Int) (v : Variable) (op : Opcode) (x y : Operand) :
    Except Fault (Option Value) :=
  m.result ⟨op, n, [.var v, x, y]⟩ s

/-- The operation succeeds, and leaves a truth value. -/
def Yields (m : Machine) (s : State) (n : Int) (v : Variable) (op : Opcode) (x y : Operand) (r : Bool) : Prop :=
  m.resultOf s n v op x y = .ok (some (.bool r))

section Resolved

variable {n : Int} {c : Option Value} {op : Opcode} {x y : Operand} {a b : Value}

theorem resultOf_of_relation {wanted : Ordering}
    (h : m.perform ⟨op, n, [.var v, x, y]⟩ = Action.relation ⟨op, n, [.var v, x, y]⟩ wanted)
    (hv : s.lookup v = .ok c) (hx : s.valueOf x = .ok a) (hy : s.valueOf y = .ok b) :
    m.resultOf s n v op x y =
      (Compute.order ⟨op, n, [.var v, x, y]⟩ a b).map fun o => some (.bool (o == wanted)) := by
  have ha : s.value ⟨op, n, [.var v, x, y]⟩ 1 = .ok a := hx
  have hb : s.value ⟨op, n, [.var v, x, y]⟩ 2 = .ok b := hy
  unfold resultOf
  rw [result_of_store h (Action.destination_eq_ok.2 ⟨rfl, c, hv⟩), ha, hb]
  change (Compute.order ⟨op, n, [.var v, x, y]⟩ a b >>= fun o => .ok (Value.bool (o == wanted))).map some = _
  cases Compute.order ⟨op, n, [.var v, x, y]⟩ a b <;> rfl

theorem resultOf_eq (hv : s.lookup v = .ok c) : m.resultOf s n v .eq x y =
    (s.equalOperands ⟨.eq, n, [.var v, x, y]⟩).map fun r => some (.bool r) := by
  unfold resultOf
  rw [result_of_store rfl (Action.destination_eq_ok.2 ⟨rfl, c, hv⟩)]
  cases s.equalOperands ⟨.eq, n, [.var v, x, y]⟩ <;> rfl

/-- `LT` yields true iff its operands have values and the first is the smaller one. -/
theorem yields_lt_iff (hv : s.lookup v = .ok c) : m.Yields s n v .lt x y true ↔
    ∃ a b, s.valueOf x = .ok a ∧ s.valueOf y = .ok b ∧ Value.order? a b = some .lt := by
  unfold Yields
  constructor
  · intro h
    obtain ⟨value, hvalue, htrue⟩ := (result_eq_ok rfl (Action.destination_eq_ok.2 ⟨rfl, c, hv⟩)).1 h
    obtain ⟨a, hx, hvalue⟩ := except_bind_eq_ok.1 hvalue
    obtain ⟨b, hy, hvalue⟩ := except_bind_eq_ok.1 hvalue
    obtain ⟨o, ho, hvalue⟩ := except_bind_eq_ok.1 hvalue
    cases hvalue
    obtain rfl : o = .lt := by simpa using htrue.symm
    exact ⟨a, b, hx, hy, Compute.order_eq_ok.1 ho⟩
  · rintro ⟨a, b, hx, hy, hlt⟩
    rw [resultOf_of_relation rfl hv hx hy, Compute.order_eq_ok.2 hlt]
    rfl

theorem yields_lt_trans {z : Operand} (hv : s.lookup v = .ok c) (hxy : m.Yields s n v .lt x y true)
    (hyz : m.Yields s n v .lt y z true) : m.Yields s n v .lt x z true := by
  obtain ⟨a, b, hx, hy, hab⟩ := (yields_lt_iff hv).1 hxy
  obtain ⟨b', d, hy', hz, hbd⟩ := (yields_lt_iff hv).1 hyz
  cases hy.symm.trans hy'
  exact (yields_lt_iff hv).2 ⟨a, d, hx, hz, Value.order?_lt_trans hab hbd⟩

theorem yields_lt_text_iff {t u : Text} (hv : s.lookup v = .ok c) (hx : s.valueOf x = .ok (.text t))
    (hy : s.valueOf y = .ok (.text u)) : m.Yields s n v .lt x y true ↔ t < u := by
  rw [yields_lt_iff hv, ← Value.order?_text_lt]
  simp [hx, hy]

/-- **Where the operands are in order, each operation finds whether this is its own one.** -/
theorem yields_of_order? {o : Ordering} (hv : s.lookup v = .ok c) (hx : s.valueOf x = .ok a)
    (hy : s.valueOf y = .ok b) (ho : Value.order? a b = some o) :
    m.Yields s n v .lt x y (o == .lt) ∧ m.Yields s n v .gt x y (o == .gt) ∧ m.Yields s n v .eq x y (o == .eq) := by
  unfold Yields
  rw [resultOf_of_relation rfl hv hx hy, resultOf_of_relation rfl hv hx hy, resultOf_eq hv,
    State.equalOperands_of_values hx hy, Compute.order_eq_ok.2 ho, Compute.order_eq_ok.2 ho,
    Compute.equal_of_order? ho]
  exact ⟨rfl, rfl, rfl⟩

theorem gt_eq_lt_swap {o : Ordering} (hv : s.lookup v = .ok c) (hx : s.valueOf x = .ok a)
    (hy : s.valueOf y = .ok b) (ho : Value.order? a b = some o) :
    m.resultOf s n v .gt x y = m.resultOf s n v .lt y x := by
  have hswap : Value.order? b a = some o.swap := by
    rw [Value.order?_swap, ho]
    rfl
  rw [(yields_of_order? hv hx hy ho).2.1, (yields_of_order? hv hy hx hswap).1]
  cases o <;> rfl

theorem resultOf_of_nil (hv : s.lookup v = .ok c) (hx : s.valueOf x = .ok a) (hy : s.valueOf y = .ok b)
    (h : a = .nil ∨ b = .nil) : m.resultOf s n v .lt x y = .error (.operandType .lt "non-nil" "nil") ∧
      m.resultOf s n v .gt x y = .error (.operandType .gt "non-nil" "nil") ∧
      m.Yields s n v .eq x y (a = .nil ∧ b = .nil) := by
  unfold Yields
  rw [resultOf_of_relation rfl hv hx hy, resultOf_of_relation rfl hv hx hy, resultOf_eq hv,
    State.equalOperands_of_values hx hy, Compute.order_of_nil h, Compute.order_of_nil h, Compute.equal_of_nil h]
  exact ⟨rfl, rfl, rfl⟩

theorem resultOf_of_mixed (hv : s.lookup v = .ok c) (hx : s.valueOf x = .ok a) (hy : s.valueOf y = .ok b)
    (ha : a ≠ .nil) (hb : b ≠ .nil) (h : a.sameType b = false) (hop : op ∈ [Opcode.lt, .gt, .eq]) :
    m.resultOf s n v op x y = .error (.operandType op a.typeName b.typeName) := by
  simp only [List.mem_cons, List.not_mem_nil, or_false] at hop
  rcases hop with rfl | rfl | rfl
  · rw [resultOf_of_relation rfl hv hx hy, Compute.order_of_mixed ha hb h]
    rfl
  · rw [resultOf_of_relation rfl hv hx hy, Compute.order_of_mixed ha hb h]
    rfl
  · rw [resultOf_eq hv, State.equalOperands_of_values hx hy, Compute.equal_of_mixed ha hb h]
    rfl

/-- **Comparisons form a coherent order.**  Of two integers, booleans or texts exactly one of `LT`,
`GT` and `EQ` is true, the last one iff they are equal; `GT` is `LT` with the operands exchanged, and
`LT` is transitive.  Texts are in the order of their code points, which is that of their bytes.  Nil
is in no order and equals itself only, and values of two types cannot be compared at all. -/
theorem comparisons_coherent (m : Machine) (n : Int) (hv : s.lookup v = .ok c) (hx : s.valueOf x = .ok a)
    (hy : s.valueOf y = .ok b) :
    (a.isOrdered = true → a.sameType b = true →
      (∃ o : Ordering, m.Yields s n v .lt x y (o == .lt) ∧ m.Yields s n v .gt x y (o == .gt) ∧
        m.Yields s n v .eq x y (o == .eq) ∧ (o = .eq ↔ a = b)) ∧
      m.resultOf s n v .gt x y = m.resultOf s n v .lt y x) ∧
    (∀ z, m.Yields s n v .lt x y true → m.Yields s n v .lt y z true → m.Yields s n v .lt x z true) ∧
    (∀ t u, a = .text t → b = .text u →
      (m.Yields s n v .lt x y true ↔ t.map Char.toNat < u.map Char.toNat) ∧
      (m.Yields s n v .lt x y true ↔ Utf8.encode t < Utf8.encode u)) ∧
    (a = .nil ∨ b = .nil → m.resultOf s n v .lt x y = .error (.operandType .lt "non-nil" "nil") ∧
      m.resultOf s n v .gt x y = .error (.operandType .gt "non-nil" "nil") ∧
      m.Yields s n v .eq x y (a = .nil ∧ b = .nil)) ∧
    (a ≠ .nil → b ≠ .nil → a.sameType b = false → ∀ op ∈ [Opcode.lt, .gt, .eq],
      m.resultOf s n v op x y = .error (.operandType op a.typeName b.typeName)) := by
  refine ⟨fun hordered hsame => ?_, fun _ => yields_lt_trans hv, ?_, resultOf_of_nil hv hx hy,
    fun ha hb hmixed _ hop => resultOf_of_mixed hv hx hy ha hb hmixed hop⟩
  · obtain ⟨o, ho⟩ : ∃ o, Value.order? a b = some o := by
      rw [← Option.isSome_iff_exists, Value.isSome_order?, hordered, hsame]
      rfl
    obtain ⟨hlt, hgt, heq⟩ := yields_of_order? hv hx hy ho
    exact ⟨⟨o, hlt, hgt, heq, Value.eq_iff_of_order? ho⟩, gt_eq_lt_swap hv hx hy ho⟩
  · rintro t u rfl rfl
    have hlt := yields_lt_text_iff (m := m) (n := n) hv hx hy
    exact ⟨hlt.trans (Text.codes_lt_codes_iff t u).symm, hlt.trans (Utf8.encode_lt_encode_iff t u).symm⟩

end Resolved

/-- A text of one character that takes three bytes, in the variable that is assigned, and one of a
character that takes four: sixteen bits at a time they would be in the other order. -/
theorem comparisons_coherent_of_long_characters :
    let m : Machine := ⟨#[], [], none, .quiet⟩
    let d : Variable := ⟨.gf, "d"⟩
    let s : State := { State.start .nothing with frames := ⟨⟨[("d", some (.text "\uffff"))]⟩, none, []⟩ }
    let x : Operand := .const (.text "😀")
    let y : Operand := .const (.text "😀a")
    m.Yields s 1 d .lt (.var d) x true ∧ m.resultOf s 1 d .gt (.var d) x = m.resultOf s 1 d .lt x (.var d) ∧
      m.Yields s 1 d .lt (.var d) y true ∧
      m.resultOf s 1 d .lt (.var d) (.const .nil) = .error (.operandType .lt "non-nil" "nil") ∧
      m.Yields s 1 d .eq (.var d) (.const .nil) false ∧
      m.resultOf s 1 d .gt (.var d) (.const (.int 1)) = .error (.operandType .gt "string" "int") := by
  intro m d s x y
  have hd : s.lookup d = .ok (some (.text "\uffff")) := by decide +kernel
  obtain ⟨hordered, htrans, htexts, -, -⟩ := comparisons_coherent (x := .var d) (y := x) m 1 hd rfl rfl
  obtain ⟨-, -, hlonger, -, -⟩ := comparisons_coherent (x := x) (y := y) m 1 hd rfl rfl
  obtain ⟨-, -, -, hnil, -⟩ := comparisons_coherent (x := .var d) (y := .const .nil) m 1 hd rfl rfl
  obtain ⟨-, -, -, -, hmixed⟩ := comparisons_coherent (x := .var d) (y := .const (.int 1)) m 1 hd rfl rfl
  have hdx : m.Yields s 1 d .lt (.var d) x true := (htexts _ _ rfl rfl).1.2 (by decide +kernel)
  have hxy : m.Yields s 1 d .lt x y true := (hlonger _ _ rfl rfl).1.2 (by decide +kernel)
  obtain ⟨hltNil, -, heqNil⟩ := hnil (.inr rfl)
  exact ⟨hdx, (hordered rfl rfl).2, htrans y hdx hxy, hltNil, heqNil,
    hmixed (by decide) (by decide) rfl .gt (.tail _ (.head _))⟩

end Machine

end IppCode
