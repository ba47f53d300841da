import Mathlib.Data.Int.ModEq
import IppCode.Proofs.Operations
/-!
# Arithmetic — integers of 64 bits

Sums, differences and products are those of the integers, brought back by a multiple of 2^64
(`Compute.eq_iff_modEq`), and quotients are rounded toward zero, all but one of them in range
(`Compute.isQuotient_iff`).  The operands are read before anything is computed, so that division by
zero is a fault of two integers only; `arithmetic_exact` says all this of the operations.
-/
namespace IppCode

/-! ## Numbers -/

namespace Compute

variable {a b q r : Int64}

/-- **An integer of 64 bits is known by its residue.** -/
theorem eq_iff_modEq {z : Int} (h : r.toInt = z.bmod (2 ^ 64)) (q : Int64) : q.toInt ≡ z [ZMOD 2 ^ 64] ↔ q = r := by
  constructor
  · intro hmod
    have hbmod : q.toInt.bmod (2 ^ 64) = z.bmod (2 ^ 64) := by
      rw [← Int.emod_bmod q.toInt, ← Int.emod_bmod z]
      exact congrArg (Int.bmod · (2 ^ 64)) hmod
    rw [← Int64.toInt_inj, h, ← hbmod]
    exact (Int64.toInt_bmod q).symm
  · rintro rfl
    rw [h]
    exact Int.bmod_emod

/-- `q` is how often `b` goes into `a`: what is left over is smaller than `b`, and it is zero or has
the sign of `a`. -/
def IsQuotient (a b q : Int64) : Prop :=
  ∃ r : Int, a.toInt = q.toInt * b.toInt + r ∧ r.natAbs < b.toInt.natAbs ∧ (r = 0 ∨ r.sign = a.toInt.sign)

theorem isQuotient_iff_tdiv (hb : b ≠ 0) : IsQuotient a b q ↔ a.toInt.tdiv b.toInt = q.toInt := by
  have hne : b.toInt ≠ 0 := fun h => hb (Int64.toInt_inj.1 h)
  constructor
  · rintro ⟨r, ha, hlt, hsign⟩
    have hdecomposed : r + b.toInt * q.toInt = a.toInt := by rw [ha, Int.mul_comm, Int.add_comm]
    -- What is left over is on the same side of zero as the dividend, and determined on each side.
    rcases Int.le_total 0 a.toInt with hnonneg | hnonpos
    · have hr : 0 ≤ r := by
        rcases hsign with rfl | hsign
        · exact Int.le_refl 0
        · rwa [← Int.sign_nonneg_iff, hsign, Int.sign_nonneg_iff]
      exact ((Int.tdiv_tmod_unique hnonneg hne).2 ⟨hdecomposed, hr, by omega⟩).1
    · have hr : r ≤ 0 := by
        rcases hsign with rfl | hsign
        · exact Int.le_refl 0
        · rwa [← Int.sign_nonpos_iff, hsign, Int.sign_nonpos_iff]
      exact ((Int.tdiv_tmod_unique' hnonpos hne).2 ⟨hdecomposed, by omega, hr⟩).1
  · intro hq
    refine ⟨a.toInt.tmod b.toInt, ?_, ?_, ?_⟩
    · rw [← hq, Int.tdiv_mul_add_tmod]
    · rw [Int.natAbs_tmod]
      exact Nat.mod_lt _ (Int.natAbs_pos.2 hne)
    · by_cases hdvd : b.toInt ∣ a.toInt
      · exact .inl (Int.tmod_eq_zero_of_dvd hdvd)
      · right
        rw [Int.sign_tmod, if_neg hdvd]

/-- **Division finds the quotient**, but for the one that is out of range. -/
theorem isQuotient_iff (hb : b ≠ 0) (hrange : ¬ (a = Int64.minValue ∧ b = -1)) : IsQuotient a b q ↔ q = a / b := by
  have hdiv : (a / b).toInt = a.toInt.tdiv b.toInt := by
    by_cases ha : a = Int64.minValue
    · exact Int64.toInt_div_of_ne_right a b fun h => hrange ⟨ha, h⟩
    · exact Int64.toInt_div_of_ne_left a b ha
  rw [isQuotient_iff_tdiv hb, ← hdiv, Int64.toInt_inj, eq_comm]

theorem quotient_of_ne_zero (hb : b ≠ 0) : quotient a b = .ok (a / b) := if_neg hb

end Compute

/-! ## Operations -/

namespace Opcode

/-- What the operations on two integers compute. -/
def arithmetic? : Opcode → Option (Int64 → Int64 → Except Fault Int64)
  | add  => some fun a b => .ok (a + b)
  | sub  => some fun a b => .ok (a - b)
  | mul  => some fun a b => .ok (a * b)
  | idiv => some Compute.quotient
  | _    => none

theorem exists_arithmetic? {op : Opcode} (h : op ∈ [add, sub, mul, idiv]) : ∃ f, op.arithmetic? = some f := by
  simp only [List.mem_cons, List.not_mem_nil, or_false] at h
  rcases h with rfl | rfl | rfl | rfl <;> exact ⟨_, rfl⟩

end Opcode

namespace Machine

variable {m : Machine} {s : State} {i : Instruction} {v : Variable} {op : Opcode} {a b r : Int64}
  {f : Int64 → Int64 → Except Fault Int64}

theorem perform_arithmetic (h : i.opcode.arithmetic? = some f) : m.perform i = Action.arithmetic i f := by
  obtain ⟨op, n, args⟩ := i
  cases op <;> cases h <;> rfl

theorem result_of_arithmetic (h : i.opcode.arithmetic? = some f) (hv : s.destination i = .ok v) :
    m.result i s = (s.int i 1 >>= fun a => s.int i 2 >>= fun b => (f a b).map fun r => some (.int r)) := by
  rw [result_of_store (perform_arithmetic h) hv]
  cases s.int i 1 with
  | error fault => rfl
  | ok a =>
    cases s.int i 2 with
    | error fault => rfl
    | ok b =>
      change (f a b >>= fun r => .ok (Value.int r)).map some = (f a b).map _
      cases f a b <;> rfl

theorem gives_of_arithmetic (h : op.arithmetic? = some f) (hr : f a b = .ok r) :
    m.Gives op [.int a, .int b] (.ok (.int r)) := by
  rintro old s i v rfl hvar hold hargs
  have ha : s.int i 1 = .ok a := State.int_of_value (hargs 0 _ rfl)
  have hb : s.int i 2 = .ok b := State.int_of_value (hargs 1 _ rfl)
  rw [result_of_arithmetic h (Action.destination_eq_ok.2 ⟨hvar, old, hold⟩), ha, hb]
  change (f a b).map _ = _
  rw [hr]
  rfl

/-- **Both operands are asked for an integer first.** -/
theorem result_of_other (hop : i.opcode ∈ [Opcode.add, .sub, .mul, .idiv]) (hv : s.destination i = .ok v) {x : Value}
    (hx : ∀ n, x ≠ .int n) :
    (s.value i 1 = .ok x → m.result i s = .error (.operandType i.opcode "int" x.typeName)) ∧
    (∀ n, s.value i 1 = .ok (.int n) → s.value i 2 = .ok x →
      m.result i s = .error (.operandType i.opcode "int" x.typeName)) := by
  obtain ⟨f, hf⟩ := Opcode.exists_arithmetic? hop
  rw [result_of_arithmetic hf hv]
  refine ⟨fun h => ?_, fun n hn h => ?_⟩
  · rw [State.int_of_other h hx]
    rfl
  · rw [State.int_of_value hn, State.int_of_other h hx]
    rfl

theorem result_eq_divisionByZero (hop : i.opcode = .idiv) (hv : s.destination i = .ok v) :
    m.result i s = .error .divisionByZero ↔ ∃ a, s.value i 1 = .ok (.int a) ∧ s.value i 2 = .ok (.int 0) := by
  have hquotient : i.opcode.arithmetic? = some Compute.quotient := by
    rw [hop]
    rfl
  rw [result_of_arithmetic hquotient hv]
  simp only [← State.int_eq_ok]
  constructor
  · -- Neither operand is read with this fault, so that it is the quotient that has raised it.
    have hread {P : Prop} (k : Nat) : FailsIn (fun fault => fault = Fault.divisionByZero → P) (s.int i k) :=
      State.failsIn_int nofun fun fault hoperand => by cases hoperand <;> nofun
    intro h
    refine FailsIn.bind_of_ok (hread 1) (fun a ha => .bind_of_ok (hread 2) fun b hb => ?_) _ h rfl
    by_cases hzero : b = 0
    · exact fun _ _ _ => ⟨a, ha, hzero ▸ hb⟩
    · rw [Compute.quotient_of_ne_zero hzero]
      exact .ok _
  · rintro ⟨a, ha, hb⟩
    rw [ha, hb]
    rfl

/-- The operation leaves the one integer of 64 bits that is congruent to `z`. -/
def Wraps (m : Machine) (op : Opcode) (a b : Int64) (z : Int) : Prop :=
  ∃ r : Int64, m.Gives op [.int a, .int b] (.ok (.int r)) ∧ ∀ q : Int64, q.toInt ≡ z [ZMOD 2 ^ 64] ↔ q = r

/-- **Arithmetic is exact modulo 2^64.**  `ADD`, `SUB` and `MUL` leave the one integer of 64 bits that is
congruent to the sum, difference or product, so `SUB` undoes `ADD`.  `IDIV` leaves the quotient toward
zero, and the smallest integer for the one quotient that is out of range.  It fails with a division
by zero iff its operands are two integers, of which the second is zero; an operand that is no integer
is a fault of all four operations, the first one whatever the second is. -/
theorem arithmetic_exact (m : Machine) :
    (∀ a b : Int64, m.Wraps .add a b (a.toInt + b.toInt) ∧ m.Wraps .sub a b (a.toInt - b.toInt) ∧
      m.Wraps .mul a b (a.toInt * b.toInt) ∧
      (∀ r, m.Gives .add [.int a, .int b] (.ok r) → m.Gives .sub [r, .int b] (.ok (.int a)))) ∧
    (∀ a b : Int64, b ≠ 0 → ∃ q, m.Gives .idiv [.int a, .int b] (.ok (.int q)) ∧
      if a = Int64.minValue ∧ b = -1 then q = Int64.minValue else ∀ q', Compute.IsQuotient a b q' ↔ q' = q) ∧
    (∀ (s : State) (i : Instruction) (v : Variable), i.opcode = .idiv → s.destination i = .ok v →
      (m.result i s = .error .divisionByZero ↔
        ∃ a, s.value i 1 = .ok (.int a) ∧ s.value i 2 = .ok (.int 0))) ∧
    (∀ (s : State) (i : Instruction) (v : Variable) (x : Value), i.opcode ∈ [Opcode.add, .sub, .mul, .idiv] →
      s.destination i = .ok v → (∀ n, x ≠ .int n) →
      (s.value i 1 = .ok x → m.result i s = .error (.operandType i.opcode "int" x.typeName)) ∧
      (∀ n, s.value i 1 = .ok (.int n) → s.value i 2 = .ok x →
        m.result i s = .error (.operandType i.opcode "int" x.typeName))) := by
  have hadd (a b : Int64) : m.Gives .add [.int a, .int b] (.ok (.int (a + b))) :=
    gives_of_arithmetic rfl rfl
  have hsub (a b : Int64) : m.Gives .sub [.int a, .int b] (.ok (.int (a - b))) :=
    gives_of_arithmetic rfl rfl
  have hmul (a b : Int64) : m.Gives .mul [.int a, .int b] (.ok (.int (a * b))) :=
    gives_of_arithmetic rfl rfl
  have hidiv (a b : Int64) (hb : b ≠ 0) : m.Gives .idiv [.int a, .int b] (.ok (.int (a / b))) :=
    gives_of_arithmetic rfl (Compute.quotient_of_ne_zero hb)
  refine ⟨fun a b => ⟨?_, ?_, ?_, fun r hr => ?_⟩, fun a b hb => ⟨a / b, hidiv a b hb, ?_⟩, ?_, ?_⟩
  · exact ⟨a + b, hadd a b, Compute.eq_iff_modEq (Int64.toInt_add a b)⟩
  · exact ⟨a - b, hsub a b, Compute.eq_iff_modEq (Int64.toInt_sub a b)⟩
  · exact ⟨a * b, hmul a b, Compute.eq_iff_modEq (Int64.toInt_mul a b)⟩
  · cases hr.unique (hadd a b)
    have hundone := hsub (a + b) b
    rwa [Int64.add_sub_cancel] at hundone
  · split
    · rename_i hmin
      rw [hmin.1, hmin.2]
      exact Int64.minValue_div_neg_one
    · rename_i hrange
      exact fun q' => Compute.isQuotient_iff hb hrange
  · exact fun s i v hop hv => result_eq_divisionByZero hop hv
  · exact fun s i v x hop hv hx => result_of_other hop hv hx

/-- The ends of the range, a quotient of two signs, and zeros behind an integer and behind a text. -/
theorem arithmetic_exact_at_limits :
    let m : Machine := ⟨#[], [], none, .quiet⟩
    let d : Variable := ⟨.gf, "d"⟩
    let s : State := { State.start .nothing with frames := ⟨⟨[("d", none)]⟩, none, []⟩ }
    let i (op : Opcode) (x y : Value) : Instruction := ⟨op, 1, [.var d, .const x, .const y]⟩
    m.result (i .add (.int .maxValue) (.int 1)) s = .ok (some (.int .minValue)) ∧
      m.result (i .idiv (.int .minValue) (.int (-1))) s = .ok (some (.int .minValue)) ∧
      m.result (i .idiv (.int (-7)) (.int 2)) s = .ok (some (.int (-3))) ∧
      m.result (i .idiv (.int 0) (.int 0)) s = .error .divisionByZero ∧
      m.result (i .idiv (.text "0") (.int 0)) s = .error (.operandType .idiv "int" "string") := by
  intro m d s i
  have hargs (op : Opcode) (x y : Value) := s.value_of_constants op 1 (.var d) [x, y]
  have hlookup : s.lookup d = .ok none := by decide +kernel
  have hd (op : Opcode) (x y : Value) : s.destination (i op x y) = .ok d :=
    Action.destination_eq_ok.2 ⟨rfl, none, hlookup⟩
  obtain ⟨hwraps, hquotient, hzero, hother⟩ := arithmetic_exact m
  obtain ⟨sum, hsum, hresidue⟩ := (hwraps .maxValue 1).1
  obtain rfl : Int64.minValue = sum := (hresidue _).1 (by decide +kernel)
  obtain ⟨least, hleast, hrange⟩ := hquotient .minValue (-1) (by decide)
  rw [if_pos (by decide)] at hrange
  subst hrange
  obtain ⟨q, hq, htruncated⟩ := hquotient (-7) 2 (by decide)
  rw [if_neg (by decide)] at htruncated
  obtain rfl : -3 = q := (htruncated _).1 ⟨-1, by decide, by decide, by decide⟩
  exact ⟨hsum none s _ d rfl rfl hlookup (hargs _ _ _), hleast none s _ d rfl rfl hlookup (hargs _ _ _),
    hq none s _ d rfl rfl hlookup (hargs _ _ _), (hzero s _ d rfl (hd _ _ _)).2 ⟨0, rfl, rfl⟩,
    (hother s _ d (.text "0") (by decide) (hd _ _ _) nofun).1 rfl⟩

end Machine

end IppCode
