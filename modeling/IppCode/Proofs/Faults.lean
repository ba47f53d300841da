import IppCode.Proofs.Actions
import IppCode.Proofs.Binding
import IppCode.Proofs.Labels
import IppCode.Proofs.Runs
/-!
# Faults — what can go wrong in an instruction

An instruction raises no fault about the step limit or the label map, complains about a
malformed operand only if its operands do not fit its signature, and about the frames only
where they do not have what it needs (`raises_perform`).  The operands of a bound program fit,
so no run of one, however long it is and whatever calls come after its end, meets a malformed
operand.
-/
namespace IppCode

variable {α β : Type}

/-- The faults that an instruction may raise when it is performed. -/
def Instruction.FaultOf (i : Instruction) : Fault → Prop
  | .malformedOperand _ _                => ¬ i.Fits
  | .stepLimit _ | .duplicateLabel _     => False
  | _                                    => True

/-- **Why an instruction may find the frames wanting**: one of its operands is a variable that
they do not have, or it is about a variable or a frame itself. -/
inductive Instruction.Misses (i : Instruction) (fs : Frames) : FrameError → Prop
  | operand {v : Variable} {why : FrameError} (hv : .var v ∈ i.args) (h : fs.lookup v = .error why) :
      Misses i fs why
  | declared {v : Variable} {c : Option Value} (hop : i.opcode = .defVar) (hv : i.var 0 = .ok v)
      (h : fs.lookup v = .ok c) : Misses i fs (.redefinition v.text)
  | temporary (hop : i.opcode = .pushFrame) (h : fs.temporary = none) : Misses i fs .noTemporaryFrame
  | locals (hop : i.opcode = .popFrame) (h : fs.locals = []) : Misses i fs .noLocalFrame

/-- An instruction may raise the fault, with those frames. -/
structure Instruction.Raises (i : Instruction) (fs : Frames) (fault : Fault) : Prop where
  faultOf : i.FaultOf fault
  misses  : ∀ why, fault = .frame why → i.Misses fs why

/-- What goes wrong, if anything, has the property. -/
def FailsIn (P : Fault → Prop) (x : Except Fault α) : Prop := ∀ fault, x = .error fault → P fault

namespace FailsIn

variable {P : Fault → Prop}

theorem ok (a : α) : FailsIn P (.ok a) := by
  intro fault h
  cases h

theorem error {fault : Fault} (h : P fault) : FailsIn P (.error fault : Except Fault α) := by
  intro fault' h'
  cases h'
  exact h

theorem bind_of_ok {x : Except Fault α} {f : α → Except Fault β} (hx : FailsIn P x)
    (hf : ∀ a, x = .ok a → FailsIn P (f a)) : FailsIn P (x >>= f) := by
  cases x with
  | ok a => exact hf a rfl
  | error fault => exact error (hx fault rfl)

theorem bind {x : Except Fault α} {f : α → Except Fault β} (hx : FailsIn P x)
    (hf : ∀ a, FailsIn P (f a)) : FailsIn P (x >>= f) :=
  bind_of_ok hx fun a _ => hf a

end FailsIn

/-! ## Looking at operands -/

namespace Instruction

variable {i : Instruction} {k : Nat} {fs : Frames}

/-- A fault that is not about the frames needs no reason in them. -/
theorem raises_of_faultOf {fault : Fault} (h : i.FaultOf fault) (hno : ∀ why, fault ≠ .frame why) :
    i.Raises fs fault :=
  ⟨h, fun why hwhy => absurd hwhy (hno why)⟩

theorem raises_of_misses {why : FrameError} (h : i.Misses fs why) : i.Raises fs (.frame why) := by
  refine ⟨trivial, fun why' hwhy => ?_⟩
  cases hwhy
  exact h

theorem mem_args_of_var {v : Variable} (h : i.var k = .ok v) : .var v ∈ i.args := by
  unfold var at h
  split at h
  · rename_i hk
    cases h
    exact List.mem_of_getElem? hk
  · cases h

theorem mem_args_of_operand {o : Operand} (h : i.operand k = .ok o) : o ∈ i.args := by
  unfold operand at h
  split at h
  · rename_i hk
    cases h
    exact List.mem_of_getElem? hk
  · cases h

/-- **An operand is malformed** only in an instruction that does not fit its signature. -/
theorem raises_malformed {slot : Slot} (h : i.opcode.signature[k]? = some slot)
    (hno : ∀ o, i.args[k]? = some o → slot.fits o ≠ true) : i.Raises fs (.malformedOperand k i.opcode) := by
  refine raises_of_faultOf (fun hfits => ?_) nofun
  obtain ⟨o, ho, hfit⟩ := hfits.operand h
  exact hno o ho hfit

theorem raises_var (h : i.opcode.signature[k]? = some .var) : FailsIn (i.Raises fs) (i.var k) := by
  unfold var
  split
  · exact .ok _
  · rename_i hno
    refine .error (raises_malformed h fun o ho hfit => ?_)
    obtain ⟨v, rfl⟩ := Slot.fits_var hfit
    exact hno v ho

theorem raises_label (h : i.opcode.signature[k]? = some .label) : FailsIn (i.Raises fs) (i.label k) := by
  unfold label
  split
  · exact .ok _
  · rename_i hno
    refine .error (raises_malformed h fun o ho hfit => ?_)
    obtain ⟨name, rfl⟩ := Slot.fits_label hfit
    exact hno name ho

theorem raises_typeName (h : i.opcode.signature[k]? = some .type) : FailsIn (i.Raises fs) (i.typeName k) := by
  unfold typeName
  split
  · exact .ok _
  · rename_i hno
    refine .error (raises_malformed h fun o ho hfit => ?_)
    obtain ⟨n, rfl⟩ := Slot.fits_type hfit
    exact hno n ho

theorem raises_operand {slot : Slot} (h : i.opcode.signature[k]? = some slot) :
    FailsIn (i.Raises fs) (i.operand k) := by
  unfold operand
  split
  · exact .ok _
  · rename_i hno
    refine .error (raises_malformed h fun o ho => ?_)
    cases hno.symm.trans ho

end Instruction

open Instruction (raises_of_faultOf raises_of_misses mem_args_of_var mem_args_of_operand)

namespace State

variable {i : Instruction} {k : Nat} {slot : Slot} (s : State)

theorem raises_lookup {v : Variable} (hv : .var v ∈ i.args) : FailsIn (i.Raises s.frames) (s.lookup v) := by
  unfold lookup
  split
  · exact .ok _
  · rename_i why hwhy
    exact .error (raises_of_misses (.operand hv hwhy))

theorem raises_value? {o : Operand} (ho : o ∈ i.args) : FailsIn (i.Raises s.frames) (s.value? o) := by
  cases o with
  | var v => exact s.raises_lookup ho
  | const value => exact .ok _

theorem raises_valueOf {o : Operand} (ho : o ∈ i.args) : FailsIn (i.Raises s.frames) (s.valueOf o) := by
  cases o with
  | const value => exact .ok _
  | var v =>
    simp only [valueOf]
    split
    · rename_i fault hfault
      exact .error (s.raises_lookup ho fault hfault)
    · exact .ok _
    · exact .error (raises_of_faultOf trivial nofun)

theorem raises_value (h : i.opcode.signature[k]? = some slot) : FailsIn (i.Raises s.frames) (s.value i k) :=
  .bind_of_ok (Instruction.raises_operand h) fun _ ho => s.raises_valueOf (mem_args_of_operand ho)

theorem raises_int (h : i.opcode.signature[k]? = some slot) : FailsIn (i.Raises s.frames) (s.int i k) := by
  refine .bind (s.raises_value h) fun value => ?_
  split
  · exact .ok _
  · exact .error (raises_of_faultOf trivial nofun)

theorem raises_bool (h : i.opcode.signature[k]? = some slot) : FailsIn (i.Raises s.frames) (s.bool i k) := by
  refine .bind (s.raises_value h) fun value => ?_
  split
  · exact .ok _
  · exact .error (raises_of_faultOf trivial nofun)

theorem raises_text (h : i.opcode.signature[k]? = some slot) : FailsIn (i.Raises s.frames) (s.text i k) := by
  refine .bind (s.raises_value h) fun value => ?_
  split
  · exact .ok _
  · exact .error (raises_of_faultOf trivial nofun)

theorem raises_destination (h : i.opcode.signature[0]? = some .var) :
    FailsIn (i.Raises s.frames) (s.destination i) :=
  .bind_of_ok (Instruction.raises_var h) fun v hv => .bind (s.raises_lookup (mem_args_of_var hv)) fun _ => .ok v

end State

/-! ## What operations make of values -/

namespace Compute

variable (i : Instruction) {fs : Frames}

theorem raises_equal (a b : Value) : FailsIn (i.Raises fs) (equal i a b) := by
  unfold equal
  split
  · exact .ok _
  · split
    · exact .ok _
    · exact .error (raises_of_faultOf trivial nofun)

theorem raises_order (a b : Value) : FailsIn (i.Raises fs) (order i a b) := by
  unfold order
  split
  · exact .error (raises_of_faultOf trivial nofun)
  · split
    · exact .error (raises_of_faultOf trivial nofun)
    · split
      · exact .ok _
      · exact .error (raises_of_faultOf trivial nofun)

theorem raises_quotient (a b : Int64) : FailsIn (i.Raises fs) (quotient a b) := by
  unfold quotient
  split
  · exact .error (raises_of_faultOf trivial nofun)
  · exact .ok _

theorem raises_position (t : Text) (index : Int64) : FailsIn (i.Raises fs) (position i t index) := by
  unfold position
  split
  · exact .ok _
  · exact .error (raises_of_faultOf trivial nofun)

theorem raises_charAt (t : Text) (index : Int64) : FailsIn (i.Raises fs) (charAt i t index) := by
  unfold charAt
  split
  · rename_i fault hfault
    exact .error (raises_position i t index fault hfault)
  · split
    · exact .ok _
    · exact .error (raises_of_faultOf trivial nofun)

theorem raises_setChar (t : Text) (index : Int64) (new : Text) :
    FailsIn (i.Raises fs) (setChar i t index new) := by
  unfold setChar
  split
  · rename_i fault hfault
    exact .error (raises_position i t index fault hfault)
  · split
    · exact .error (raises_of_faultOf trivial nofun)
    · exact .ok _

theorem raises_charOf (code : Int64) : FailsIn (i.Raises fs) (charOf code) := by
  unfold charOf
  split
  · exact .ok _
  · exact .error (raises_of_faultOf trivial nofun)

theorem raises_exitCode (code : Int64) : FailsIn (i.Raises fs) (exitCode code) := by
  unfold exitCode
  split
  · exact .ok _
  · exact .error (raises_of_faultOf trivial nofun)

end Compute

/-! ## Changes of the frames -/

namespace Frames

variable {fs fs' : Frames} {v : Variable} {why : FrameError}

theorem lookup_of_frame_error (h : fs.frame v.scope = .error why) : fs.lookup v = .error why := by
  simp only [lookup, h]

theorem lookup_of_cell {f : Frame} {c : Option Value} (h : fs.frame v.scope = .ok f) (hc : f.cell? v.name = some c) :
    fs.lookup v = .ok c := by
  simp only [lookup, h, hc]

theorem lookup_of_no_cell {f : Frame} (h : fs.frame v.scope = .ok f) (hc : f.cell? v.name = none) :
    fs.lookup v = .error (.undefined v.text) := by
  simp only [lookup, h, hc]

namespace Change

/-- An assignment fails as looking for its variable does. -/
theorem lookup_of_assign_error {value : Value} (h : assign v value fs = .error why fs') : fs.lookup v = .error why := by
  obtain ⟨hframe | ⟨f, hf, hset, rfl⟩, -⟩ := update_eq_error.1 h
  · exact lookup_of_frame_error hframe
  · unfold Frame.set? at hset
    split at hset
    · cases hset
    · rename_i hc
      exact lookup_of_no_cell hf hc

/-- A declaration fails where there is no frame for its variable, or where that has been declared. -/
theorem lookup_of_declare_error (h : declare v fs = .error why fs') :
    fs.lookup v = .error why ∨ (∃ c, fs.lookup v = .ok c) ∧ why = .redefinition v.text := by
  obtain ⟨hframe | ⟨f, hf, hdeclare, rfl⟩, -⟩ := update_eq_error.1 h
  · exact .inl (lookup_of_frame_error hframe)
  · unfold Frame.declare? at hdeclare
    split at hdeclare
    · rename_i c hc
      exact .inr ⟨⟨c, lookup_of_cell hf hc⟩, rfl⟩
    · cases hdeclare

end Change

end Frames

/-! ## What instructions do -/

namespace Action

/-- The fault that the action raises in the state, if any, has the property. -/
def FailsIn (P : Fault → Prop) (x : Action α) (s : State) : Prop :=
  ∀ fault s', x s = .error fault s' → P fault

namespace FailsIn

variable {P : Fault → Prop} {s : State}

theorem pure (a : α) : FailsIn P (Pure.pure a : Action α) s := by
  intro fault s' h
  cases h

theorem bind {x : Action α} {f : α → Action β} (hx : FailsIn P x s)
    (hf : ∀ a t, x s = .ok a t → FailsIn P (f a) t) : FailsIn P (x >>= f) s := by
  intro fault s' h
  rcases bind_eq_error.1 h with hfirst | ⟨a, t, ha, hrest⟩
  · exact hx fault s' hfirst
  · exact hf a t ha fault s' hrest

theorem look {f : State → Except Fault α} (h : IppCode.FailsIn P (f s)) : FailsIn P (look f) s :=
  fun fault _ hf => h fault (look_eq_error.1 hf).1

/-- What looks at the state first goes on in the same state. -/
theorem look_bind {f : State → Except Fault α} {k : α → Action β} (h : IppCode.FailsIn P (f s))
    (hk : ∀ a, f s = .ok a → FailsIn P (k a) s) : FailsIn P (Action.look f >>= k) s := by
  refine bind (look h) fun a t ha => ?_
  obtain ⟨hfa, rfl⟩ := look_eq_ok.1 ha
  exact hk a hfa

theorem modify (g : State → State) : FailsIn P (modify g : Action Unit) s := by
  intro fault s' h
  cases h

theorem change {c : Frames.Change α} (h : ∀ why frames, c s.frames = .error why frames → P (.frame why)) :
    FailsIn P (change c) s := by
  intro fault s' hf
  obtain ⟨why, frames, hwhy, rfl, -⟩ := change_eq_error.1 hf
  exact h why frames hwhy

theorem send (sink : Sink) (w : Write) (h : ∀ why, P (.output why)) : FailsIn P (send sink w) s := by
  intro fault s' hf
  obtain ⟨why, -, -, rfl, -⟩ := send_eq_error.1 hf
  exact h why

theorem proceed {a : Action Unit} (h : FailsIn P a s) : FailsIn P (proceed a) s :=
  bind h fun _ _ _ => pure _

end FailsIn

variable {i : Instruction} {s : State}

/-- Also where something else than the frames has been changed since. -/
theorem raises_assign {fs : Frames} {v : Variable} {value : Value} (hv : .var v ∈ i.args) (hs : s.frames = fs) :
    FailsIn (i.Raises fs) (proceed (change (.assign v value))) s := by
  subst hs
  refine .proceed (.change fun why _ hwhy => raises_of_misses ?_)
  exact .operand hv (Frames.Change.lookup_of_assign_error hwhy)

theorem mem_args_of_destination {v : Variable} (h : s.destination i = .ok v) : .var v ∈ i.args :=
  mem_args_of_var (destination_eq_ok.1 h).1

theorem raises_store {value : State → Except Fault Value} (h : i.opcode.signature[0]? = some .var)
    (hvalue : IppCode.FailsIn (i.Raises s.frames) (value s)) : FailsIn (i.Raises s.frames) (store i value) s :=
  .look_bind (s.raises_destination h) fun _ hv =>
    .look_bind hvalue fun _ _ => raises_assign (mem_args_of_destination hv) rfl

theorem raises_arithmetic {op : Int64 → Int64 → Except Fault Int64} (h : i.opcode.signature = [.var, .symb, .symb])
    (hop : ∀ a b, IppCode.FailsIn (i.Raises s.frames) (op a b)) :
    FailsIn (i.Raises s.frames) (arithmetic i op) s :=
  raises_store (by rw [h]; rfl) <|
    .bind (s.raises_int (by rw [h]; rfl)) fun a =>
      .bind (s.raises_int (by rw [h]; rfl)) fun b => .bind (hop a b) fun _ => .ok _

theorem raises_relation (wanted : Ordering) (h : i.opcode.signature = [.var, .symb, .symb]) :
    FailsIn (i.Raises s.frames) (relation i wanted) s :=
  raises_store (by rw [h]; rfl) <|
    .bind (s.raises_value (by rw [h]; rfl)) fun a =>
      .bind (s.raises_value (by rw [h]; rfl)) fun b => .bind (Compute.raises_order i a b) fun _ => .ok _

theorem raises_logic (op : Bool → Bool → Bool) (h : i.opcode.signature = [.var, .symb, .symb]) :
    FailsIn (i.Raises s.frames) (logic i op) s :=
  raises_store (by rw [h]; rfl) <|
    .bind (s.raises_bool (by rw [h]; rfl)) fun _ =>
      .bind (s.raises_bool (by rw [h]; rfl)) fun _ => .ok _

theorem raises_popTo (h : i.opcode.signature[0]? = some .var) : FailsIn (i.Raises s.frames) (popTo i) s := by
  refine .look_bind (s.raises_destination h) fun v hv => .bind ?_ fun value t hpop => ?_
  · intro fault s' hpop
    obtain ⟨-, rfl, -⟩ := popData_eq_error.1 hpop
    exact raises_of_faultOf trivial nofun
  · obtain ⟨data, -, rfl⟩ := popData_eq_ok.1 hpop
    exact raises_assign (mem_args_of_destination hv) rfl

theorem raises_readTo (h : i.opcode.signature = [.var, .type]) : FailsIn (i.Raises s.frames) (readTo i) s := by
  refine .look_bind (s.raises_destination (by rw [h]; rfl)) fun v hv => ?_
  refine .look_bind (Instruction.raises_typeName (by rw [h]; rfl)) fun n _ => .bind ?_ fun value t hline => ?_
  · intro fault s' hline
    cases hline
  · cases hline
    exact raises_assign (mem_args_of_destination hv) rfl

theorem raises_popCall : FailsIn (i.Raises s.frames) popCall s := by
  intro fault s' h
  obtain ⟨-, rfl, -⟩ := popCall_eq_error.1 h
  exact raises_of_faultOf trivial nofun

theorem raises_declare {v : Variable} (hop : i.opcode = .defVar) (hv : i.var 0 = .ok v) :
    FailsIn (i.Raises s.frames) (proceed (change (.declare v))) s := by
  refine .proceed (.change fun why _ hwhy => raises_of_misses ?_)
  rcases Frames.Change.lookup_of_declare_error hwhy with hmissing | ⟨⟨c, hc⟩, rfl⟩
  · exact .operand (mem_args_of_var hv) hmissing
  · exact .declared hop hv hc

theorem raises_send (sink : Sink) (w : Write) : FailsIn (i.Raises s.frames) (proceed (send sink w)) s :=
  .proceed (.send _ _ fun _ => raises_of_faultOf trivial nofun)

end Action

namespace State

variable {i : Instruction} (s : State)

theorem raises_equalOperands {slot : Slot} (h : i.opcode.signature = [slot, .symb, .symb]) :
    FailsIn (i.Raises s.frames) (s.equalOperands i) :=
  .bind (s.raises_value (by rw [h]; rfl)) fun a =>
    .bind (s.raises_value (by rw [h]; rfl)) fun b => Compute.raises_equal i a b

theorem raises_replaced (h : i.opcode.signature = [.var, .symb, .symb]) :
    FailsIn (i.Raises s.frames) (s.replaced i) :=
  .bind (s.raises_text (by rw [h]; rfl)) fun t =>
    .bind (s.raises_int (by rw [h]; rfl)) fun index =>
      .bind (s.raises_text (by rw [h]; rfl)) fun new =>
        .bind (Compute.raises_setChar i t index new) fun _ => .ok _

theorem raises_typeOf (h : i.opcode.signature = [.var, .symb]) : FailsIn (i.Raises s.frames) (s.typeOf i) := by
  refine .bind_of_ok (Instruction.raises_operand (by rw [h]; rfl)) fun o ho => ?_
  refine .bind (s.raises_value? (mem_args_of_operand ho)) fun value => ?_
  cases value <;> exact .ok _

theorem raises_shown (h : i.opcode.signature = [.symb]) : FailsIn (i.Raises s.frames) (s.shown i) := by
  refine .bind_of_ok (Instruction.raises_operand (by rw [h]; rfl)) fun o ho => ?_
  refine .bind (s.raises_value? (mem_args_of_operand ho)) fun value => ?_
  cases value <;> exact .ok _

end State

namespace Machine

open IppCode.Action (raises_store raises_arithmetic raises_relation raises_logic)

variable (m : Machine) (i : Instruction)

theorem raises_target {fs : Frames} (name : Text) : FailsIn (i.Raises fs) (m.target name) := by
  unfold target
  split
  · exact .ok _
  · exact .error (raises_of_faultOf trivial nofun)

variable {i}

theorem raises_destination {fs : Frames} (h : i.opcode.signature = [.label]) :
    FailsIn (i.Raises fs) (m.destination i) :=
  .bind (Instruction.raises_label (by rw [h]; rfl)) fun name => m.raises_target i name

theorem raises_branch (wanted : Bool) (s : State) (h : i.opcode.signature = [.label, .symb, .symb]) :
    FailsIn (i.Raises s.frames) (m.branch i wanted s) := by
  refine .bind (Instruction.raises_label (by rw [h]; rfl)) fun name => ?_
  refine .bind (s.raises_equalOperands h) fun equal => ?_
  split
  · exact .bind (m.raises_target i name) fun _ => .ok _
  · exact .ok _

/-- **What an instruction may raise**: nothing about the step limit or the label map, malformed
operands only if it does not fit its signature, and errors of the frames only where they do not
have what it needs. -/
theorem raises_perform (m : Machine) (i : Instruction) (s : State) :
    Action.FailsIn (i.Raises s.frames) (m.perform i) s := by
  -- Once the opcode is a constructor, its signature is a list, and every slot below is read off it.
  obtain ⟨opcode, order, args⟩ := i
  cases opcode with
  | move => exact raises_store rfl (s.raises_value rfl)
  | createFrame => exact .proceed (.change fun why frames h => by cases h)
  | pushFrame =>
    refine .proceed (.change fun why frames h => raises_of_misses ?_)
    obtain ⟨hnone, rfl, -⟩ := Frames.Change.push_eq_error.1 h
    exact .temporary rfl hnone
  | popFrame =>
    refine .proceed (.change fun why frames h => raises_of_misses ?_)
    obtain ⟨hnone, rfl, -⟩ := Frames.Change.pop_eq_error.1 h
    exact .locals rfl hnone
  | defVar => exact .look_bind (Instruction.raises_var rfl) fun v hv => Action.raises_declare rfl hv
  | call =>
    refine .look_bind (m.raises_destination rfl) fun target _ => ?_
    exact .bind (.modify _) fun _ _ _ => .pure _
  | ret => exact .bind Action.raises_popCall fun _ _ _ => .pure _
  | pushs => exact .look_bind (s.raises_value rfl) fun _ _ => .proceed (.modify _)
  | pops => exact Action.raises_popTo rfl
  | add | sub | mul => exact raises_arithmetic rfl fun _ _ => .ok _
  | idiv => exact raises_arithmetic rfl (Compute.raises_quotient _)
  | lt | gt => exact raises_relation _ rfl
  | eq => exact raises_store rfl (.bind (s.raises_equalOperands rfl) fun _ => .ok _)
  | and | or => exact raises_logic _ rfl
  | not => exact raises_store rfl (.bind (s.raises_bool rfl) fun _ => .ok _)
  | int2char =>
    refine raises_store rfl (.bind (s.raises_int rfl) fun code => ?_)
    exact .bind (Compute.raises_charOf _ code) fun _ => .ok _
  | stri2int | getchar =>
    refine raises_store rfl (.bind (s.raises_text rfl) fun t => .bind (s.raises_int rfl) fun index => ?_)
    exact .bind (Compute.raises_charAt _ t index) fun _ => .ok _
  | read => exact Action.raises_readTo rfl
  | write => exact .look_bind (s.raises_value rfl) fun _ _ => Action.raises_send _ _
  | concat =>
    refine raises_store rfl (.bind (s.raises_text rfl) fun _ => ?_)
    exact .bind (s.raises_text rfl) fun _ => .ok _
  | strlen => exact raises_store rfl (.bind (s.raises_text rfl) fun _ => .ok _)
  | setchar => exact raises_store rfl (s.raises_replaced rfl)
  | type => exact raises_store rfl (s.raises_typeOf rfl)
  | label => exact .pure _
  | jump => exact .look_bind (m.raises_destination rfl) fun _ _ => .pure _
  | jumpIfEq | jumpIfNeq => exact .look (m.raises_branch _ s rfl)
  | exit =>
    refine .look_bind ?_ fun _ _ => .pure _
    exact .bind (s.raises_int rfl) fun code => Compute.raises_exitCode _ code
  | dprint => exact .look_bind (s.raises_shown rfl) fun _ _ => Action.raises_send _ _
  | brk => exact .look_bind (.ok _) fun _ _ => Action.raises_send _ _

theorem faultOf_perform (m : Machine) (i : Instruction) (s : State) : Action.FailsIn i.FaultOf (m.perform i) s :=
  fun fault s' h => (m.raises_perform i s fault s' h).faultOf

end Machine

/-! ## Runs of a bound program -/

theorem Fault.kind_eq_sourceStructure {fault : Fault} (h : fault.kind = .sourceStructure) :
    ∃ k opcode, fault = .malformedOperand k opcode := by
  cases fault with
  | malformedOperand k opcode => exact ⟨k, opcode, rfl⟩
  | frame why => cases why <;> cases h
  | _ => cases h

theorem Instruction.Fits.exists_isLabel {i : Instruction} (h : i.Fits) (hop : i.opcode = .label) :
    ∃ name, i.IsLabel name := by
  have hslot : i.opcode.signature[0]? = some .label := by rw [hop]; rfl
  obtain ⟨o, ho, hfit⟩ := h.operand hslot
  obtain ⟨name, rfl⟩ := Slot.fits_label hfit
  exact ⟨name, hop, List.head?_eq_getElem?.trans ho⟩

/-- Instructions that fit their signatures can only define a label twice. -/
theorem Labels.fault_of_collect {is : List Instruction} {known : Labels} {k : Nat} {e : RuntimeError}
    (hfits : ∀ i ∈ is, i.Fits) (h : collect known k is = .error e) : ∃ name, e.fault = .duplicateLabel name := by
  have hknown : known.Holds fun name => known.lookup name ≠ none := fun _ => Iff.rfl
  obtain ⟨n, -, ⟨i, hi, hrefused⟩, -⟩ := (collect_eq_error hknown).1 h
  obtain ⟨position, fault⟩ := e
  cases hrefused with
  | unnamed hop hname =>
    obtain ⟨name, hdef⟩ := (hfits i (List.mem_of_getElem? hi)).exists_isLabel hop
    exact absurd hdef (hname name)
  | repeated => exact ⟨_, rfl⟩

/-- **A step that fails** has met the limit, or its instruction may raise the fault. -/
theorem Machine.raises_of_step {m : Machine} {s s' : State} {e : RuntimeError} (h : m.step s = (s', .failed e)) :
    (∃ limit, e.fault = .stepLimit limit) ∨ ∃ i, m.code[s.ip]? = some i ∧ i.Raises s.frames e.fault := by
  unfold step at h
  split at h
  · cases h
  · rename_i i hi
    split at h
    · rename_i limit _
      cases h
      exact .inl ⟨limit, rfl⟩
    · split at h
      · rename_i flow t _
        cases flow <;> cases h
      · rename_i fault t hfault
        cases h
        exact .inr ⟨i, hi, m.raises_perform i { s with steps := s.steps + 1 } _ _ hfault⟩

theorem Machine.step_not_malformed {m : Machine} (hfits : ∀ i ∈ m.code, i.Fits) {s s' : State}
    {e : RuntimeError} (h : m.step s = (s', .failed e)) (k : Nat) (opcode : Opcode) :
    e.fault ≠ .malformedOperand k opcode := by
  intro hmal
  rcases m.raises_of_step h with ⟨limit, hlim⟩ | ⟨i, hi, hfault, -⟩
  · rw [hmal] at hlim
    cases hlim
  · rw [hmal] at hfault
    exact hfault (hfits i (Array.mem_of_getElem? hi))

/-- **A bound program meets no malformed operand**: not when its labels are collected, and
not in any call of a step, for every input, sink and limit.  So no run of it, and no
attempt to start one, ends with an error about its structure. -/
theorem Program.never_malformed {rs : List Record} {p : Program} (h : ofRecords rs = .ok p) :
    (∀ e, Labels.ofProgram p = .error e →
      (∀ k opcode, e.fault ≠ .malformedOperand k opcode) ∧ e.kind ≠ .sourceStructure) ∧
    ∀ limit sink m, Machine.load p limit sink = .ok m → ∀ input n s e,
      (m.step (m.after n (.start input)) = (s, .failed e) →
        (∀ k opcode, e.fault ≠ .malformedOperand k opcode) ∧ e.kind ≠ .sourceStructure) ∧
      (m.run n (.start input) = (s, .failed e) → e.kind ≠ .sourceStructure) := by
  have hkind : ∀ {e : RuntimeError}, (∀ k opcode, e.fault ≠ .malformedOperand k opcode) →
      e.kind ≠ .sourceStructure := fun hno hk => by
    obtain ⟨k, opcode, hmal⟩ := Fault.kind_eq_sourceStructure hk
    exact hno k opcode hmal
  constructor
  · intro e he
    obtain ⟨name, hname⟩ := Labels.fault_of_collect (fun i hi => fits_of_mem h hi) he
    have hno : ∀ k opcode, e.fault ≠ .malformedOperand k opcode := fun k opcode hmal => by
      rw [hmal] at hname
      cases hname
    exact ⟨hno, hkind hno⟩
  · intro limit sink m hm input n s e
    obtain ⟨labels, -, rfl⟩ := Machine.load_eq_ok.1 hm
    have hfits : ∀ i ∈ p.instructions.toArray, i.Fits := fun i hi => fits_of_mem h (List.mem_toArray.1 hi)
    constructor
    · intro hstep
      have hno := Machine.step_not_malformed hfits hstep
      exact ⟨hno, hkind hno⟩
    · intro hrun
      obtain ⟨k, hstep⟩ := Machine.exists_call hrun (by simp)
      exact hkind (Machine.step_not_malformed hfits hstep)

/-- Arguments out of their order, and a label that is not defined. -/
theorem Program.jump_not_malformed :
    ∃ p m s e, ofRecords [⟨7, "JumpIfEq", [⟨2, "int", "1"⟩, ⟨3, "int", "0x1"⟩, ⟨1, "label", "end"⟩]⟩] = .ok p ∧
      Machine.load p none .quiet = .ok m ∧ m.run 1 (.start .nothing) = (s, .failed e) ∧
      e.kind ≠ .sourceStructure := by
  have hp : ofRecords [⟨7, "JumpIfEq", [⟨2, "int", "1"⟩, ⟨3, "int", "0x1"⟩, ⟨1, "label", "end"⟩]⟩] =
      .ok ⟨[⟨.jumpIfEq, 7, [.const (.label "end"), .const (.int 1), .const (.int 1)]⟩]⟩ := by rfl
  have hm : Machine.load ⟨[⟨.jumpIfEq, 7, [.const (.label "end"), .const (.int 1), .const (.int 1)]⟩]⟩ none .quiet =
      .ok ⟨#[⟨.jumpIfEq, 7, [.const (.label "end"), .const (.int 1), .const (.int 1)]⟩], [], none, .quiet⟩ := rfl
  exact ⟨_, _, _, _, hp, hm, rfl, ((never_malformed hp).2 none .quiet _ hm .nothing 1 _ ⟨0, .undefinedLabel "end"⟩).2 rfl⟩

end IppCode
