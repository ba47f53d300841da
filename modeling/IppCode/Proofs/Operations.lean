import IppCode.Proofs.Equality
/-!
# Operations — what comes out of values

An operation that stores what it computes reads its operands, each as the type that it asks for
(`State.int_eq`, `text_eq`), and leaves one value or raises one fault.  Which one depends on the values
alone, and not on the state, on what held the values, or on the variable that takes the result; so
`Machine.Gives` says it once for every place where the operation can stand, and the laws of the
operations are laws of values.
-/
namespace IppCode

/-! ## Operands of a type -/

namespace Value

/-- The integer, for an operation that asks for one. -/
def asInt (op : Opcode) : Value → Except Fault Int64
  | int n => .ok n
  | other => .error (.operandType op "int" other.typeName)

/-- The text, for an operation that asks for one. -/
def asText (op : Opcode) : Value → Except Fault Text
  | text t => .ok t
  | other  => .error (.operandType op "string" other.typeName)

variable {op : Opcode} {a : Value} {n : Int64}

theorem asInt_eq_ok : a.asInt op = .ok n ↔ a = .int n := by
  cases a <;> simp [asInt]

theorem asInt_of_other (h : ∀ n, a ≠ .int n) : a.asInt op = .error (.operandType op "int" a.typeName) := by
  cases a with
  | int n => exact absurd rfl (h n)
  | _ => rfl

end Value

namespace State

variable {s : State} {i : Instruction} {k : Nat} {v : Variable} {a : Value} {n : Int64} {t : Text}

theorem int_eq (s : State) (i : Instruction) (k : Nat) : s.int i k = s.value i k >>= Value.asInt i.opcode := by
  unfold int
  cases s.value i k with
  | error fault => rfl
  | ok a => cases a <;> rfl

theorem text_eq (s : State) (i : Instruction) (k : Nat) : s.text i k = s.value i k >>= Value.asText i.opcode := by
  unfold text
  cases s.value i k with
  | error fault => rfl
  | ok a => cases a <;> rfl

theorem int_of_value (h : s.value i k = .ok (.int n)) : s.int i k = .ok n := by
  rw [int_eq, h]
  rfl

theorem text_of_value (h : s.value i k = .ok (.text t)) : s.text i k = .ok t := by
  rw [text_eq, h]
  rfl

theorem int_of_other (h : s.value i k = .ok a) (ha : ∀ n, a ≠ .int n) :
    s.int i k = .error (.operandType i.opcode "int" a.typeName) := by
  rw [int_eq, h]
  exact Value.asInt_of_other ha

theorem int_eq_ok : s.int i k = .ok n ↔ s.value i k = .ok (.int n) := by
  rw [int_eq, except_bind_eq_ok]
  simp only [Value.asInt_eq_ok]
  constructor
  · rintro ⟨a, ha, rfl⟩
    exact ha
  · intro h
    exact ⟨_, h, rfl⟩

/-- A variable is read as an operand like any other. -/
theorem value_of_var (hv : i.var k = .ok v) (h : s.lookup v = .ok (some a)) : s.value i k = .ok a := by
  have hoperand : i.operand k = .ok (.var v) := by
    unfold Instruction.var at hv
    unfold Instruction.operand
    split at hv
    · rename_i u hu
      cases hv
      rw [hu]
    · cases hv
  unfold value
  rw [hoperand]
  change s.valueOf (.var v) = .ok a
  unfold valueOf
  simp only [h]

/-- Constants have the values that they are. -/
theorem value_of_constants (s : State) (op : Opcode) (n : Int) (o : Operand) (args : List Value) :
    ∀ k a, args[k]? = some a → s.value ⟨op, n, o :: args.map .const⟩ (k + 1) = .ok a := by
  intro k a ha
  unfold value Instruction.operand
  simp only [List.getElem?_cons_succ, List.getElem?_map, ha]
  rfl

/-- Reading an integer goes wrong where there is no operand, or for what is wrong with it. -/
theorem failsIn_int {P : Fault → Prop} (hmissing : P (.malformedOperand k i.opcode))
    (hoperand : ∀ fault, fault.OfOperands i.opcode → P fault) : FailsIn P (s.int i k) := by
  rw [int_eq]
  refine .bind (.bind ?_ fun o => ?_) fun a => ?_
  · unfold Instruction.operand
    split
    · exact .ok _
    · exact .error hmissing
  · exact fun fault h => hoperand fault (s.ofOperands_valueOf o i.opcode fault h)
  · cases a with
    | int n => exact .ok n
    | _ => exact .error (hoperand _ (.mistyped _ _))

end State

/-! ## Operations on values -/

namespace Machine

/-- **Wherever the operation is performed** with `old` in the variable that is its first operand and
with these values in the others, it leaves `r` in the variable, or raises that fault. -/
def Turns (m : Machine) (op : Opcode) (old : Option Value) (args : List Value) (r : Except Fault Value) : Prop :=
  ∀ (s : State) (i : Instruction) (v : Variable), i.opcode = op → i.var 0 = .ok v → s.lookup v = .ok old →
    (∀ k a, args[k]? = some a → s.value i (k + 1) = .ok a) → m.result i s = r.map some

/-- And so it does whatever the variable holds, if anything. -/
def Gives (m : Machine) (op : Opcode) (args : List Value) (r : Except Fault Value) : Prop :=
  ∀ old, m.Turns op old args r

/-- The operation comes to the same on both lists of values. -/
def Agrees (m : Machine) (op : Opcode) (args args' : List Value) : Prop :=
  ∀ r, m.Gives op args r ↔ m.Gives op args' r

variable {m : Machine} {op : Opcode} {old : Option Value} {args args' : List Value} {r r' : Except Fault Value}

/-- There is always a place for the operation: constants have any values. -/
theorem Turns.unique (h : m.Turns op old args r) (h' : m.Turns op old args r') : r = r' := by
  let d : Variable := ⟨.gf, []⟩
  let i : Instruction := ⟨op, 0, .var d :: args.map .const⟩
  let s : State := { State.start .nothing with frames := ⟨⟨[([], old)]⟩, none, []⟩ }
  have hargs := s.value_of_constants op 0 (.var d) args
  have heq : r.map some = r'.map some :=
    (h s i d rfl rfl rfl hargs).symm.trans (h' s i d rfl rfl rfl hargs)
  cases r <;> cases r' <;> cases heq <;> rfl

theorem Gives.unique (h : m.Gives op args r) (h' : m.Gives op args r') : r = r' := (h none).unique (h' none)

theorem agrees_of_gives (h : m.Gives op args r) (h' : m.Gives op args' r) :
    m.Agrees op args args' := by
  intro r'
  constructor
  · intro hr
    rwa [hr.unique h]
  · intro hr
    rwa [hr.unique h']

/-- What stores a value turns one into the other, as far as the values say which one it is. -/
theorem turns_of_store {f : Instruction → State → Except Fault Value}
    (hperform : ∀ i, i.opcode = op → m.perform i = Action.store i (f i))
    (hf : ∀ s i v, i.opcode = op → i.var 0 = .ok v → s.lookup v = .ok old →
      (∀ k a, args[k]? = some a → s.value i (k + 1) = .ok a) → f i s = r) : m.Turns op old args r := by
  intro s i v hop hvar hold hargs
  rw [result_of_store (hperform i hop) (Action.destination_eq_ok.2 ⟨hvar, old, hold⟩), hf s i v hop hvar hold hargs]

theorem gives_of_store {f : Instruction → State → Except Fault Value}
    (hperform : ∀ i, i.opcode = op → m.perform i = Action.store i (f i))
    (hf : ∀ s i, i.opcode = op → (∀ k a, args[k]? = some a → s.value i (k + 1) = .ok a) → f i s = r) :
    m.Gives op args r :=
  fun _ => turns_of_store hperform fun s i _ hop _ _ hargs => hf s i hop hargs

end Machine

end IppCode
