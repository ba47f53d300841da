import IppCode.Proofs.Comparisons
/-!
# Equality — one test behind three operations

`EQ` and the two conditional jumps make the same test of their operands, and name themselves in the
fault if it cannot be made (`State.equalOperands_named`).  The jumps look at their label only to take
it, so the test says what they do: they are taken, fall through, or raise the fault of the test
(`Machine.takes_iff`, `fallsThrough_iff`, `perform_of_test_error`).  That a label is undefined is no
fault of the operands, so a jump that misses its label is not taken for a test that fails.  From the
same state, steps that execute the three come to the same: what the one stores, the others do
(`equality_agreement`).
-/
namespace IppCode

theorem mapError_bind {ε ε' α β : Type} (g : ε → ε') (x : Except ε α) (f : α → Except ε β) :
    (x >>= f).mapError g = (x.mapError g >>= fun a => (f a).mapError g) := by
  cases x <;> rfl

/-! ## Faults of operands -/

namespace Fault

/-- The same fault, raised by an operation of that name. -/
def named (op : Opcode) : Fault → Fault
  | operandType _ expected found => operandType op expected found
  | fault                        => fault

/-- What can be wrong with the operands of `op`: a frame or a variable is missing, a variable has no
value, or the types do not go together. -/
inductive OfOperands (op : Opcode) : Fault → Prop
  | missing (why : FrameError) : OfOperands op (.frame why)
  | uninitialized (v : Variable) : OfOperands op (.uninitialized v)
  | mistyped (expected found : Text) : OfOperands op (.operandType op expected found)

end Fault

/-! ## The test -/

namespace State

variable {s : State} {i : Instruction} {o x y : Operand} {op op' : Opcode} {fault : Fault}

theorem fault_of_valueOf (h : s.valueOf o = .error fault) :
    (∃ why, fault = .frame why) ∨ ∃ v, fault = .uninitialized v := by
  cases o with
  | const value => cases h
  | var v =>
    simp only [valueOf, lookup] at h
    cases hlookup : s.frames.lookup v with
    | error why =>
      rw [hlookup] at h
      exact .inl ⟨why, (Except.error.inj h).symm⟩
    | ok c =>
      rw [hlookup] at h
      cases c <;> cases h
      exact .inr ⟨v, rfl⟩

theorem ofOperands_valueOf (s : State) (o : Operand) (op : Opcode) : FailsIn (Fault.OfOperands op) (s.valueOf o) := by
  intro fault h
  rcases fault_of_valueOf h with ⟨why, rfl⟩ | ⟨v, rfl⟩
  · exact .missing why
  · exact .uninitialized v

theorem mapError_valueOf (s : State) (o : Operand) (op : Opcode) :
    (s.valueOf o).mapError (Fault.named op) = s.valueOf o := by
  cases h : s.valueOf o with
  | ok value => rfl
  | error fault => rcases fault_of_valueOf h with ⟨why, rfl⟩ | ⟨v, rfl⟩ <;> rfl

theorem mapError_equal (a b : Value) (i i' : Instruction) :
    (Compute.equal i a b).mapError (Fault.named i'.opcode) = Compute.equal i' a b := by
  unfold Compute.equal
  split
  · rfl
  · split <;> rfl

theorem ofOperands_equalOperands (s : State) (n : Int) :
    FailsIn (Fault.OfOperands op) (s.equalOperands ⟨op, n, [o, x, y]⟩) := by
  refine .bind (s.ofOperands_valueOf x op) fun a => .bind (s.ofOperands_valueOf y op) fun b => ?_
  unfold Compute.equal
  split
  · exact .ok _
  · split
    · exact .ok _
    · exact .error (.mistyped _ _)

/-- **The test does not depend on the operation that makes it**, but for its name. -/
theorem equalOperands_named (s : State) (op op' : Opcode) (n n' : Int) (o o' x y : Operand) :
    s.equalOperands ⟨op', n', [o', x, y]⟩ = (s.equalOperands ⟨op, n, [o, x, y]⟩).mapError (Fault.named op') := by
  simp only [equalOperands_of_args, mapError_bind, mapError_valueOf]
  simp only [mapError_equal _ _ _ ⟨op', n', [o', x, y]⟩]

end State

/-! ## Operations -/

namespace Machine

/-- The jump is taken: it goes to its label, or finds that this is not defined. -/
def Takes (m : Machine) (i : Instruction) (s : State) (name : Text) : Prop :=
  m.perform i s = match m.labels.target? name with
    | some k => .ok (.jump k) s
    | none   => .error (.undefinedLabel name) s

/-- The run goes on behind the jump. -/
def FallsThrough (m : Machine) (i : Instruction) (s : State) : Prop := m.perform i s = .ok .next s

variable {m : Machine} {i : Instruction} {s : State} {name : Text} {wanted equal : Bool} {fault : Fault}

theorem not_takes_of_fallsThrough (h : m.FallsThrough i s) : ¬ m.Takes i s name := by
  intro htakes
  have hflow := h.symm.trans htakes
  split at hflow <;> cases hflow

section Branches

variable (hperform : m.perform i = Action.look (m.branch i wanted)) (hname : i.label 0 = .ok name)
include hperform hname

theorem perform_of_equalOperands : m.perform i s = Action.look (fun s => s.equalOperands i >>= fun equal =>
    if equal = wanted then m.target name >>= fun k => .ok (.jump k) else .ok .next) s := by
  rw [hperform]
  unfold Action.look branch
  rw [hname]
  rfl

theorem takes_of_test (h : s.equalOperands i = .ok wanted) : m.Takes i s name := by
  unfold Takes
  rw [perform_of_equalOperands hperform hname]
  unfold Action.look target
  simp only [h]
  cases m.labels.target? name <;> simp [bind, Except.bind]

theorem fallsThrough_of_test (h : s.equalOperands i = .ok equal) (hne : equal ≠ wanted) : m.FallsThrough i s := by
  unfold FallsThrough
  rw [perform_of_equalOperands hperform hname]
  unfold Action.look
  simp only [h]
  simp [bind, Except.bind, hne]

theorem perform_of_error (h : s.equalOperands i = .error fault) : m.perform i s = .error fault s := by
  rw [perform_of_equalOperands hperform hname]
  unfold Action.look
  simp only [h]
  rfl

end Branches

section Jumps

variable {op op' : Opcode} {n n' : Int} {o' x y : Operand} (wanted : Bool)
  (hperform : m.perform ⟨op, n, [.const (.label name), x, y]⟩ =
    Action.look (m.branch ⟨op, n, [.const (.label name), x, y]⟩ wanted))
include hperform

/-- **The jump is taken iff its test comes out as wanted.** -/
theorem takes_iff : m.Takes ⟨op, n, [.const (.label name), x, y]⟩ s name ↔
    s.equalOperands ⟨op, n, [.const (.label name), x, y]⟩ = .ok wanted := by
  cases htest : s.equalOperands ⟨op, n, [.const (.label name), x, y]⟩ with
  | ok equal =>
    by_cases hwanted : equal = wanted
    · subst hwanted
      exact iff_of_true (takes_of_test hperform rfl htest) rfl
    · have hfalls := fallsThrough_of_test hperform rfl htest hwanted
      exact iff_of_false (not_takes_of_fallsThrough hfalls) (by simpa using hwanted)
  | error fault =>
    refine iff_of_false (fun htakes => ?_) nofun
    -- The fault would be that of the undefined label, which is none of the operands.
    have hfault := (perform_of_error hperform rfl htest).symm.trans htakes
    have hoperands := s.ofOperands_equalOperands n _ htest
    split at hfault
    · cases hfault
    · injection hfault with hundefined
      rw [hundefined] at hoperands
      cases hoperands

theorem fallsThrough_iff : m.FallsThrough ⟨op, n, [.const (.label name), x, y]⟩ s ↔
    s.equalOperands ⟨op, n, [.const (.label name), x, y]⟩ = .ok !wanted := by
  cases htest : s.equalOperands ⟨op, n, [.const (.label name), x, y]⟩ with
  | ok equal =>
    by_cases hwanted : equal = wanted
    · subst hwanted
      have htakes := takes_of_test hperform rfl htest
      exact iff_of_false (fun hfalls => not_takes_of_fallsThrough hfalls htakes) (by simp)
    · exact iff_of_true (fallsThrough_of_test hperform rfl htest hwanted) (by simpa using Bool.eq_not.2 hwanted)
  | error fault =>
    refine iff_of_false (fun hfalls => ?_) nofun
    cases (perform_of_error hperform rfl htest).symm.trans hfalls

theorem perform_of_test_error (h : s.equalOperands ⟨op', n', [o', x, y]⟩ = .error fault) :
    m.perform ⟨op, n, [.const (.label name), x, y]⟩ s = .error (fault.named op) s := by
  refine perform_of_error hperform rfl ?_
  rw [s.equalOperands_named op' op n' n o', h]
  rfl

end Jumps

/-! ## Steps -/

/-- The next step executes the instruction: it is at the position of the run, and the limit has not
been reached. -/
structure Executes (m : Machine) (s : State) (i : Instruction) : Prop where
  code    : m.code[s.ip]? = some i
  started : m.exhausted? s = none

/-- **The next step stores a truth value** and goes on with the next instruction. -/
def Stores (m : Machine) (s : State) (v : Variable) (b : Bool) : Prop :=
  ∃ frames, Frames.Change.assign v (.bool b) s.frames = .ok () frames ∧
    m.step s = ({ s.counted with ip := s.ip + 1, frames := frames }, .running)

/-- **The next step takes the jump**: it goes to the label, or fails there because this is not
defined. -/
structure Jumps (m : Machine) (s : State) (i : Instruction) (name : Text) : Prop where
  takes : m.Takes i s.counted name
  step  : m.step s = match m.labels.target? name with
    | some k => ({ s.counted with ip := k }, .running)
    | none   => (s.counted, .failed ⟨s.ip, .undefinedLabel name⟩)

/-- **The next step does not take the jump**, but goes on with the next instruction.  That may be the
label of the jump, so where the run goes does not say it. -/
structure GoesOn (m : Machine) (s : State) (i : Instruction) : Prop where
  fallsThrough : m.FallsThrough i s.counted
  step         : m.step s = ({ s.counted with ip := s.ip + 1 }, .running)

/-- The next step fails, for whatever reason. -/
def FailsNext (m : Machine) (s : State) : Prop := ∃ t why, m.step s = (t, .failed why)

theorem not_failsNext_of_running {t : State} (h : m.step s = (t, .running)) : ¬ m.FailsNext s := by
  rintro ⟨u, why, hfails⟩
  cases h.symm.trans hfails

namespace Executes

variable {v : Variable} {c : Option Value} {x y : Operand} {op : Opcode} {n : Int}

theorem jumps_iff (h : m.Executes s i) : m.Jumps s i name ↔ m.Takes i s.counted name := by
  refine ⟨Jumps.takes, fun htakes => ⟨htakes, ?_⟩⟩
  have hperform := htakes
  unfold Takes at hperform
  cases hlabel : m.labels.target? name with
  | some k =>
    rw [hlabel] at hperform
    exact step_of_perform h.code h.started hperform
  | none =>
    rw [hlabel] at hperform
    exact step_of_fault h.code h.started hperform

theorem goesOn_iff (h : m.Executes s i) : m.GoesOn s i ↔ m.FallsThrough i s.counted :=
  ⟨GoesOn.fallsThrough, fun hfalls => ⟨hfalls, step_of_perform h.code h.started hfalls⟩⟩

section Stores

variable (h : m.Executes s ⟨.eq, n, [.var v, x, y]⟩) (hv : s.lookup v = .ok c)
include h hv

theorem stores_of_test (htest : s.equalOperands ⟨.eq, n, [.var v, x, y]⟩ = .ok equal) : m.Stores s v equal := by
  obtain ⟨frames, hassign⟩ := Frames.Change.assign_of_lookup (.bool equal) (Action.lookup_eq_ok.1 hv)
  have hdest : s.counted.destination ⟨.eq, n, [.var v, x, y]⟩ = .ok v := Action.destination_eq_ok.2 ⟨rfl, c, hv⟩
  have hvalue : (s.counted.equalOperands ⟨.eq, n, [.var v, x, y]⟩ >>= fun b => .ok (Value.bool b)) =
      .ok (.bool equal) := except_bind_eq_ok.2 ⟨equal, htest, rfl⟩
  have hperform : m.perform ⟨.eq, n, [.var v, x, y]⟩ s.counted = .ok .next { s.counted with frames := frames } :=
    Action.store_eq_ok.2 ⟨v, .bool equal, frames, hdest, hvalue, hassign, rfl, rfl⟩
  exact ⟨frames, hassign, step_of_perform h.code h.started hperform⟩

theorem step_of_test_error (htest : s.equalOperands ⟨.eq, n, [.var v, x, y]⟩ = .error fault) :
    m.step s = (s.counted, .failed ⟨s.ip, fault⟩) := by
  have hdest : s.counted.destination ⟨.eq, n, [.var v, x, y]⟩ = .ok v := Action.destination_eq_ok.2 ⟨rfl, c, hv⟩
  have hvalue : (s.counted.equalOperands ⟨.eq, n, [.var v, x, y]⟩ >>= fun b => .ok (Value.bool b)) = .error fault := by
    change (s.equalOperands ⟨.eq, n, [.var v, x, y]⟩ >>= _) = _
    rw [htest]
    rfl
  refine step_of_fault h.code h.started (bind_eq_error.2 (.inr ⟨v, _, Action.look_eq_ok.2 ⟨hdest, rfl⟩, ?_⟩))
  exact bind_eq_error.2 (.inl (Action.look_eq_error.2 ⟨hvalue, rfl⟩))

/-- **`EQ` stores what its test comes to.** -/
theorem stores_iff : m.Stores s v equal ↔ s.equalOperands ⟨.eq, n, [.var v, x, y]⟩ = .ok equal := by
  refine ⟨fun ⟨frames, hassign, hstep⟩ => ?_, stores_of_test h hv⟩
  cases htest : s.equalOperands ⟨.eq, n, [.var v, x, y]⟩ with
  | ok found =>
    obtain ⟨frames', hassign', hstep'⟩ := stores_of_test h hv htest
    -- Both values are in the variable now, so they are the same.
    have hframes : frames = frames' := congrArg (fun r => r.1.frames) (hstep.symm.trans hstep')
    subst hframes
    cases (Frames.Change.lookup_of_assign hassign).symm.trans (Frames.Change.lookup_of_assign hassign')
    rfl
  | error fault =>
    have hstatus := congrArg Prod.snd (hstep.symm.trans (step_of_test_error h hv htest))
    cases hstatus

end Stores

end Executes

/-- **`EQ` and the conditional jumps agree**, in every state and about any operands.  Let three
machines execute them next, whatever else their programs are.  `EQ` stores true iff `JUMPIFEQ` is
taken, going to its label or finding this undefined, iff `JUMPIFNEQ` goes on with the next
instruction, and false the other way round.  `EQ` fails iff both jumps do, and then all three fail
with the same fault of the operands, each under its own name, whether the label is defined or not. -/
theorem equality_agreement {m₁ m₂ m₃ : Machine} {v : Variable} {c : Option Value} {x y : Operand} {n₁ n₂ n₃ : Int}
    (heq : m₁.Executes s ⟨.eq, n₁, [.var v, x, y]⟩)
    (hjumpIfEq : m₂.Executes s ⟨.jumpIfEq, n₂, [.const (.label name), x, y]⟩)
    (hjumpIfNeq : m₃.Executes s ⟨.jumpIfNeq, n₃, [.const (.label name), x, y]⟩) (hv : s.lookup v = .ok c) :
    ((m₁.Stores s v true ↔ m₂.Jumps s ⟨.jumpIfEq, n₂, [.const (.label name), x, y]⟩ name) ∧
      (m₁.Stores s v true ↔ m₃.GoesOn s ⟨.jumpIfNeq, n₃, [.const (.label name), x, y]⟩)) ∧
    ((m₁.Stores s v false ↔ m₂.GoesOn s ⟨.jumpIfEq, n₂, [.const (.label name), x, y]⟩) ∧
      (m₁.Stores s v false ↔ m₃.Jumps s ⟨.jumpIfNeq, n₃, [.const (.label name), x, y]⟩ name)) ∧
    (m₁.FailsNext s ↔ m₂.FailsNext s ∧ m₃.FailsNext s) ∧
    ∀ t why, m₁.step s = (t, .failed why) → ∃ fault, t = s.counted ∧ why = ⟨s.ip, fault⟩ ∧ fault.OfOperands .eq ∧
      m₂.step s = (s.counted, .failed ⟨s.ip, fault.named .jumpIfEq⟩) ∧
      m₃.step s = (s.counted, .failed ⟨s.ip, fault.named .jumpIfNeq⟩) := by
  have hsame (op : Opcode) (n : Int) (b : Bool) : s.equalOperands ⟨.eq, n₁, [.var v, x, y]⟩ = .ok b ↔
      s.counted.equalOperands ⟨op, n, [.const (.label name), x, y]⟩ = .ok b := by
    change _ ↔ s.equalOperands ⟨op, n, [.const (.label name), x, y]⟩ = .ok b
    rw [s.equalOperands_named .eq op n₁ n (.var v) (.const (.label name))]
    cases s.equalOperands ⟨.eq, n₁, [.var v, x, y]⟩ <;> simp [Except.mapError]
  have hstores (b : Bool) : m₁.Stores s v b ↔ s.equalOperands ⟨.eq, n₁, [.var v, x, y]⟩ = .ok b := heq.stores_iff hv
  have hjumpsEq : m₁.Stores s v true ↔ m₂.Jumps s ⟨.jumpIfEq, n₂, [.const (.label name), x, y]⟩ name := by
    rw [hstores, hsame .jumpIfEq n₂, hjumpIfEq.jumps_iff, takes_iff true rfl]
  have hgoesOnNeq : m₁.Stores s v true ↔ m₃.GoesOn s ⟨.jumpIfNeq, n₃, [.const (.label name), x, y]⟩ := by
    rw [hstores, hsame .jumpIfNeq n₃, hjumpIfNeq.goesOn_iff, fallsThrough_iff false rfl, Bool.not_false]
  have hgoesOnEq : m₁.Stores s v false ↔ m₂.GoesOn s ⟨.jumpIfEq, n₂, [.const (.label name), x, y]⟩ := by
    rw [hstores, hsame .jumpIfEq n₂, hjumpIfEq.goesOn_iff, fallsThrough_iff true rfl, Bool.not_true]
  have hjumpsNeq : m₁.Stores s v false ↔ m₃.Jumps s ⟨.jumpIfNeq, n₃, [.const (.label name), x, y]⟩ name := by
    rw [hstores, hsame .jumpIfNeq n₃, hjumpIfNeq.jumps_iff, takes_iff false rfl]
  refine ⟨⟨hjumpsEq, hgoesOnNeq⟩, ⟨hgoesOnEq, hjumpsNeq⟩, ?_⟩
  cases htest : s.equalOperands ⟨.eq, n₁, [.var v, x, y]⟩ with
  | ok b =>
    have hstore := (hstores b).2 htest
    have hgoes : ¬ m₁.FailsNext s := by
      obtain ⟨frames, -, hstep⟩ := hstore
      exact not_failsNext_of_running hstep
    refine ⟨iff_of_false hgoes ?_, fun t why hstep => absurd ⟨t, why, hstep⟩ hgoes⟩
    -- One of the jumps goes on.
    rintro ⟨hfailsEq, hfailsNeq⟩
    cases b with
    | true => exact not_failsNext_of_running (hgoesOnNeq.1 hstore).step hfailsNeq
    | false => exact not_failsNext_of_running (hgoesOnEq.1 hstore).step hfailsEq
  | error fault =>
    have hstep := heq.step_of_test_error hv htest
    have hstepEq := step_of_fault hjumpIfEq.code hjumpIfEq.started (perform_of_test_error true rfl htest)
    have hstepNeq := step_of_fault hjumpIfNeq.code hjumpIfNeq.started (perform_of_test_error false rfl htest)
    refine ⟨iff_of_true ⟨_, _, hstep⟩ ⟨⟨_, _, hstepEq⟩, ⟨_, _, hstepNeq⟩⟩, fun t why hfails => ?_⟩
    cases hstep.symm.trans hfails
    exact ⟨fault, rfl, rfl, s.ofOperands_equalOperands n₁ fault htest, hstepEq, hstepNeq⟩

/-- A variable is compared with what it holds: the one jump goes to a label that is defined and misses
one that is not, the other one goes on.  If the types differ, neither looks at the label. -/
theorem equality_agreement_of_missing_label :
    let d : Variable := ⟨.gf, "d"⟩
    let m (i : Instruction) : Machine := ⟨#[i], [("there", 3)], none, .quiet⟩
    let s : State := { State.start .nothing with frames := ⟨⟨[("d", some (.int 1))]⟩, none, []⟩ }
    let eq (value : Value) : Instruction := ⟨.eq, 1, [.var d, .var d, .const value]⟩
    let jump (op : Opcode) (name : Text) (value : Value) : Instruction :=
      ⟨op, 1, [.const (.label name), .var d, .const value]⟩
    (m (eq (.int 1))).Stores s d true ∧
      (m (jump .jumpIfEq "there" (.int 1))).step s = ({ s with ip := 3, steps := 1 }, .running) ∧
      (m (jump .jumpIfEq "nowhere" (.int 1))).step s =
        ({ s with steps := 1 }, .failed ⟨0, .undefinedLabel "nowhere"⟩) ∧
      (m (jump .jumpIfNeq "nowhere" (.int 1))).step s = ({ s with ip := 1, steps := 1 }, .running) ∧
      (m (jump .jumpIfNeq "nowhere" (.text "1"))).step s =
        ({ s with steps := 1 }, .failed ⟨0, .operandType .jumpIfNeq "int" "string"⟩) := by
  intro d m s eq jump
  have hd : s.lookup d = .ok (some (.int 1)) := by decide +kernel
  have hexecutes (i : Instruction) : (m i).Executes s i := ⟨rfl, rfl⟩
  have hstores : (m (eq (.int 1))).Stores s d true := ⟨_, rfl, rfl⟩
  have hmixed : (m (eq (.text "1"))).step s =
      ({ s with steps := 1 }, .failed ⟨0, .operandType .eq "int" "string"⟩) := rfl
  have hagree (name : Text) (value : Value) := equality_agreement (hexecutes (eq value))
    (hexecutes (jump .jumpIfEq name value)) (hexecutes (jump .jumpIfNeq name value)) hd
  obtain ⟨⟨hthere, -⟩, -⟩ := hagree "there" (.int 1)
  obtain ⟨⟨hnowhere, hgoesOn⟩, -⟩ := hagree "nowhere" (.int 1)
  obtain ⟨-, -, -, hfails⟩ := hagree "nowhere" (.text "1")
  obtain ⟨fault, -, hfault, -, -, hstep⟩ := hfails _ _ hmixed
  cases hfault
  exact ⟨hstores, (hthere.1 hstores).step, (hnowhere.1 hstores).step, (hgoesOn.1 hstores).step, hstep⟩

end Machine

end IppCode
