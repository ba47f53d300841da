import IppCode.Proofs.Causality
import IppCode.Proofs.Control
import IppCode.Proofs.Writes
/-!
# Data — what variables and the data stack hold

Labels and names of types are values, but only as the operands of the operations that take
them.  No other slot takes one (`Slot.isData_of_fits`), no operation computes one from data
(`isData_of_computes`), and everything else moves values from one place of the state to
another.  So the variables and the data stack hold data if nothing else is read
(`holdsData_step`), whatever the program, the lines of its input and the length of the run
(`holdsData_of_bound`).
-/
namespace IppCode

/-! ## Data -/

namespace Value

/-- The values that programs compute with: neither labels nor names of types. -/
def isData : Value → Bool
  | int _ | bool _ | text _ | nil => true
  | type _ | label _              => false

/-- What `TYPE` can find: nothing, or the name of the type of such a value. -/
def dataTypes : List Text := [[], "int", "bool", "string", "nil"]

theorem typeName_mem_dataTypes {value : Value} (h : value.isData = true) : value.typeName ∈ dataTypes := by
  cases value with
  | type _ | label _ => cases h
  | int _ => exact .tail _ (.head _)
  | bool _ => exact .tail _ (.tail _ (.head _))
  | text _ => exact .tail _ (.tail _ (.tail _ (.head _)))
  | nil => exact .tail _ (.tail _ (.tail _ (.tail _ (.head _))))

end Value

theorem Slot.isData_of_fits {value : Value} (h : Slot.symb.fits (.const value) = true) : value.isData = true := by
  cases value with
  | type _ | label _ => cases h
  | int _ | bool _ | text _ | nil => rfl

namespace Input

theorem isData_of_valueOf? {n : TypeName} {line : Text} {value : Value} (h : valueOf? n line = some value) :
    value.isData = true := by
  cases n with
  | int =>
    obtain ⟨z, -, rfl⟩ := Option.map_eq_some_iff.1 h
    rfl
  | bool | string =>
    cases h
    rfl

/-- The input has nothing but data to give, whatever is read of it. -/
def GivesData (input : Input) : Prop :=
  ∀ n bytes value, (input.reader n bytes).1 = some value → value.isData = true

theorem givesData_lines (bytes : Utf8.Bytes) : (lines bytes).GivesData := by
  intro n unread value h
  obtain ⟨line, -, hline⟩ := Option.bind_eq_some_iff.1 h
  exact isData_of_valueOf? hline

theorem givesData_nothing : nothing.GivesData := nofun

/-- What is read is data, and so is what is read after it. -/
theorem GivesData.read {input : Input} (h : input.GivesData) (n : TypeName) :
    ((input.read n).1.getD .nil).isData = true ∧ (input.read n).2.GivesData := by
  refine ⟨?_, h⟩
  cases hread : (input.read n).1 with
  | none => rfl
  | some value => exact h n input.unread value hread

end Input

/-! ## Where values are -/

/-- A variable of the frame has the value. -/
def Frame.Holds (f : Frame) (value : Value) : Prop := ∃ name, f.cell? name = some (some value)

namespace Frame

variable {f g : Frame} {name : Text} {value new : Value}

theorem not_holds_empty : ¬ Frame.empty.Holds value := by
  rintro ⟨name, h⟩
  rw [cell?_empty] at h
  cases h

theorem holds_of_declare (h : f.declare? name = some g) (hg : g.Holds value) : f.Holds value := by
  obtain ⟨x, hx⟩ := hg
  rw [cell?_declare h] at hx
  split at hx
  · cases hx
  · exact ⟨x, hx⟩

theorem holds_of_set (h : f.set? name new = some g) (hg : g.Holds value) : f.Holds value ∨ value = new := by
  obtain ⟨x, hx⟩ := hg
  rw [cell?_set h] at hx
  split at hx
  · cases hx
    exact .inr rfl
  · exact .inl ⟨x, hx⟩

end Frame

/-- **A variable has the value**, in whichever frame it is, visible or not. -/
inductive Frames.Holds (fs : Frames) (value : Value) : Prop
  | inGlobal (h : fs.global.Holds value)
  | inTemporary {f : Frame} (hf : fs.temporary = some f) (h : f.Holds value)
  | inLocal {f : Frame} (hf : f ∈ fs.locals) (h : f.Holds value)

namespace Frames

variable {fs fs' : Frames} {f g : Frame} {scope : Scope} {v : Variable} {value new : Value}

theorem not_holds_empty : ¬ Frames.empty.Holds value := by
  rintro (h | ⟨hf, -⟩ | ⟨hf, -⟩)
  · exact Frame.not_holds_empty h
  · cases hf
  · cases hf

theorem holds_of_frame (hf : fs.frame scope = .ok f) (h : f.Holds value) : fs.Holds value := by
  obtain ⟨global, temporary, locals⟩ := fs
  cases scope with
  | gf =>
    cases hf
    exact .inGlobal h
  | lf =>
    cases locals with
    | nil => cases hf
    | cons a r =>
      cases hf
      exact .inLocal List.mem_cons_self h
  | tf =>
    cases temporary with
    | none => cases hf
    | some a =>
      cases hf
      exact .inTemporary rfl h

theorem holds_of_lookup (h : fs.lookup v = .ok (some value)) : fs.Holds value := by
  unfold lookup at h
  split at h
  · cases h
  · rename_i f hf
    split at h
    · rename_i c hc
      cases h
      exact holds_of_frame hf ⟨v.name, hc⟩
    · cases h

theorem holds_of_replace (h : (fs.replace g scope).Holds value) : fs.Holds value ∨ g.Holds value := by
  cases scope with
  | gf =>
    rcases h with h | ⟨hf, h⟩ | ⟨hf, h⟩
    · exact .inr h
    · exact .inl (.inTemporary hf h)
    · exact .inl (.inLocal hf h)
  | lf =>
    rcases h with h | ⟨hf, h⟩ | ⟨hf, h⟩
    · exact .inl (.inGlobal h)
    · exact .inl (.inTemporary hf h)
    · rcases List.mem_cons.1 hf with rfl | hf
      · exact .inr h
      · exact .inl (.inLocal (List.mem_of_mem_tail hf) h)
  | tf =>
    rcases h with h | ⟨hf, h⟩ | ⟨hf, h⟩
    · exact .inl (.inGlobal h)
    · cases hf
      exact .inr h
    · exact .inl (.inLocal hf h)

theorem holds_of_create (h : fs.create.Holds value) : fs.Holds value := by
  rcases h with h | ⟨hf, h⟩ | ⟨hf, h⟩
  · exact .inGlobal h
  · cases hf
    exact absurd h Frame.not_holds_empty
  · exact .inLocal hf h

namespace Change

theorem holds_of_assign (h : assign v new fs = .ok () fs') (hheld : fs'.Holds value) :
    fs.Holds value ∨ value = new := by
  obtain ⟨f, g, hf, hg, rfl⟩ := assign_eq_ok.1 h
  rcases holds_of_replace hheld with hheld | hheld
  · exact .inl hheld
  · exact (Frame.holds_of_set hg hheld).imp_left (holds_of_frame hf)

theorem holds_of_declare (h : declare v fs = .ok () fs') (hheld : fs'.Holds value) : fs.Holds value := by
  obtain ⟨f, g, hf, hg, rfl⟩ := declare_eq_ok.1 h
  rcases holds_of_replace hheld with hheld | hheld
  · exact hheld
  · exact holds_of_frame hf (Frame.holds_of_declare hg hheld)

theorem holds_of_push (h : push fs = .ok () fs') (hheld : fs'.Holds value) : fs.Holds value := by
  obtain ⟨f, hf, rfl⟩ := push_eq_ok.1 h
  rcases hheld with hheld | ⟨hnone, -⟩ | ⟨hmem, hheld⟩
  · exact .inGlobal hheld
  · cases hnone
  · rcases List.mem_cons.1 hmem with rfl | hmem
    · exact .inTemporary hf hheld
    · exact .inLocal hmem hheld

theorem holds_of_pop (h : pop fs = .ok () fs') (hheld : fs'.Holds value) : fs.Holds value := by
  obtain ⟨f, r, hlocals, rfl⟩ := pop_eq_ok.1 h
  rcases hheld with hheld | ⟨hsome, hheld⟩ | ⟨hmem, hheld⟩
  · exact .inGlobal hheld
  · cases hsome
    exact .inLocal (by rw [hlocals]; exact List.mem_cons_self) hheld
  · exact .inLocal (by rw [hlocals]; exact List.mem_cons_of_mem _ hmem) hheld

end Change

end Frames

/-- **The variables and the data stack hold data**, in all frames, and the input has nothing else
to give. -/
structure State.HoldsData (s : State) : Prop where
  frames : ∀ value, s.frames.Holds value → value.isData = true
  data   : ∀ value ∈ s.data, value.isData = true
  input  : s.input.GivesData

/-! ## Operands -/

namespace State

variable {s : State} {i : Instruction} {o : Operand} {value : Value} {k : Nat}

theorem value?_of_valueOf (h : s.valueOf o = .ok value) : s.value? o = .ok (some value) := by
  cases o with
  | const c =>
    cases h
    rfl
  | var v =>
    simp only [valueOf] at h
    split at h
    · cases h
    · rename_i hv
      cases h
      exact hv
    · cases h

namespace HoldsData

theorem start {input : Input} (hinput : input.GivesData) : (State.start input).HoldsData :=
  ⟨fun _ h => absurd h Frames.not_holds_empty, fun _ h => absurd h List.not_mem_nil, hinput⟩

theorem counted (h : s.HoldsData) : s.counted.HoldsData := ⟨h.frames, h.data, h.input⟩

theorem isData_of_value? (h : s.HoldsData) (ho : Slot.symb.fits o = true) (hvalue : s.value? o = .ok (some value)) :
    value.isData = true := by
  cases o with
  | const c =>
    cases hvalue
    exact Slot.isData_of_fits ho
  | var v => exact h.frames value (Frames.holds_of_lookup (Action.lookup_eq_ok.1 hvalue))

/-- **An operand in a slot for values is data.** -/
theorem isData_of_value (h : s.HoldsData) (hi : i.Fits) (hk : i.opcode.signature[k]? = some .symb)
    (hvalue : s.value i k = .ok value) : value.isData = true := by
  obtain ⟨o, ho, hfits⟩ := hi.operand hk
  unfold State.value Instruction.operand at hvalue
  rw [ho] at hvalue
  exact h.isData_of_value? hfits (value?_of_valueOf hvalue)

theorem isData_of_assign {v : Variable} {new : Value} {frames : Frames} (h : s.HoldsData) (hnew : new.isData = true)
    (hassign : Frames.Change.assign v new s.frames = .ok () frames) :
    ∀ value, frames.Holds value → value.isData = true := by
  intro value hheld
  rcases Frames.Change.holds_of_assign hassign hheld with hheld | rfl
  · exact h.frames value hheld
  · exact hnew

/-- `TYPE` finds the name of a type of data, or nothing. -/
theorem mem_dataTypes_of_typeOf (h : s.HoldsData) (hi : i.Fits) (hop : i.opcode = .type) (hvalue : s.typeOf i = .ok value) :
    ∃ t ∈ Value.dataTypes, value = .text t := by
  have hslot : i.opcode.signature[1]? = some .symb := by
    rw [hop]
    rfl
  obtain ⟨o, ho, hfits⟩ := hi.operand hslot
  unfold typeOf Instruction.operand at hvalue
  rw [ho] at hvalue
  obtain ⟨o', ⟨⟩, hvalue⟩ := except_bind_eq_ok.1 hvalue
  obtain ⟨c, hc, hvalue⟩ := except_bind_eq_ok.1 hvalue
  cases c with
  | none =>
    cases hvalue
    exact ⟨[], List.mem_cons_self, rfl⟩
  | some found =>
    cases hvalue
    exact ⟨_, Value.typeName_mem_dataTypes (h.isData_of_value? hfits hc), rfl⟩

end HoldsData

end State

/-! ## Instructions -/

/-- If a value comes out, it is data. -/
def YieldsData (x : Except Fault Value) : Prop := ∀ value, x = .ok value → value.isData = true

namespace YieldsData

variable {α : Type} {x : Except Fault α} {f : α → Except Fault Value} {value : Value}

theorem bind (h : ∀ a, YieldsData (f a)) : YieldsData (x >>= f) := by
  intro value hvalue
  obtain ⟨a, -, ha⟩ := except_bind_eq_ok.1 hvalue
  exact h a value ha

theorem ok (h : value.isData = true) : YieldsData (.ok value) := by
  intro value hvalue
  cases hvalue
  exact h

end YieldsData

namespace Machine

variable {m : Machine} {i : Instruction} {s t : State} {flow : Flow}

/-- **What an operation computes from data is data.** -/
theorem isData_of_computes (m : Machine) (hop : i.opcode.computes = true) (hi : i.Fits) :
    ∃ value, m.perform i = Action.store i value ∧ ∀ s, s.HoldsData → YieldsData (value s) := by
  obtain ⟨opcode, order, args⟩ := i
  cases opcode with
  | move => exact ⟨_, rfl, fun s hs _ => hs.isData_of_value hi rfl⟩
  | type =>
    refine ⟨_, rfl, fun s hs value hvalue => ?_⟩
    obtain ⟨t, -, rfl⟩ := hs.mem_dataTypes_of_typeOf hi rfl hvalue
    rfl
  | not | strlen | eq => exact ⟨_, rfl, fun s _ => .bind fun _ => .ok rfl⟩
  | and | or | concat | int2char => exact ⟨_, rfl, fun s _ => .bind fun _ => .bind fun _ => .ok rfl⟩
  | add | sub | mul | idiv | lt | gt | stri2int | getchar =>
    exact ⟨_, rfl, fun s _ => .bind fun _ => .bind fun _ => .bind fun _ => .ok rfl⟩
  | setchar => exact ⟨_, rfl, fun s _ => .bind fun _ => .bind fun _ => .bind fun _ => .bind fun _ => .ok rfl⟩
  | _ => cases hop

/-- **An instruction whose operands are in their slots keeps data.** -/
theorem holdsData_perform (hi : i.Fits) (hs : s.HoldsData) (h : m.perform i s = .ok flow t) : t.HoldsData := by
  cases hop : i.opcode.computes with
  | true =>
    -- The effect does not say which value is assigned, so the operation itself is looked at.
    obtain ⟨value, hperform, hdata⟩ := m.isData_of_computes hop hi
    rw [hperform] at h
    obtain ⟨v, new, frames, -, hnew, hassign, rfl, -⟩ := Action.store_eq_ok.1 h
    exact ⟨hs.isData_of_assign (hdata s hs new hnew) hassign, hs.data, hs.input⟩
  | false =>
    cases effect_of_perform h with
    | assigned hcomputes =>
      rw [hop] at hcomputes
      cases hcomputes
    | popped _ _ hpop hassign =>
      have hdata := hs.data
      rw [hpop] at hdata
      exact ⟨hs.isData_of_assign (hdata _ List.mem_cons_self) hassign,
        fun value hmem => hdata value (List.mem_cons_of_mem _ hmem), hs.input⟩
    | @read _ n _ _ _ _ hassign =>
      obtain ⟨hdata, hinput⟩ := hs.input.read n
      exact ⟨hs.isData_of_assign hdata hassign, hs.data, hinput⟩
    | declared _ _ hdeclare =>
      exact ⟨fun value hheld => hs.frames value (Frames.Change.holds_of_declare hdeclare hheld), hs.data, hs.input⟩
    | created => exact ⟨fun value hheld => hs.frames value (Frames.holds_of_create hheld), hs.data, hs.input⟩
    | framePushed _ hpush =>
      exact ⟨fun value hheld => hs.frames value (Frames.Change.holds_of_push hpush hheld), hs.data, hs.input⟩
    | framePopped _ hpop =>
      exact ⟨fun value hheld => hs.frames value (Frames.Change.holds_of_pop hpop hheld), hs.data, hs.input⟩
    | pushed hpushs hvalue =>
      have hnew := hs.isData_of_value hi (by rw [hpushs]; rfl) hvalue
      exact ⟨hs.frames, List.forall_mem_cons.2 ⟨hnew, hs.data⟩, hs.input⟩
    | sent | passed | jumped | called | returned | exited => exact ⟨hs.frames, hs.data, hs.input⟩

/-! ## Steps and runs -/

/-- The operands of all instructions are in their slots. -/
def Fits (m : Machine) : Prop := ∀ (k : Nat) (i : Instruction), m.code[k]? = some i → i.Fits

theorem fits_of_load {rs : List Record} {p : Program} {limit : Option Nat} {sink : Sink}
    (hp : Program.ofRecords rs = .ok p) (h : load p limit sink = .ok m) : m.Fits := by
  intro k i hi
  rw [code_of_load h] at hi
  exact Program.fits_of_mem hp (List.mem_of_getElem? hi)

/-- A step keeps data, whatever it comes to. -/
theorem holdsData_step (hm : m.Fits) (hs : s.HoldsData) : (m.step s).1.HoldsData := by
  rcases hstep : m.step s with ⟨t, st⟩
  rcases step_cases hstep with ⟨hstays, -⟩ | ⟨rfl, -⟩
  · exact ⟨by rw [hstays.frames]; exact hs.frames, by rw [hstays.data]; exact hs.data,
      by rw [hstays.input]; exact hs.input⟩
  · obtain ⟨i, flow, u, hi, -, hperform, hfollow⟩ := performed_of_running (m := m) (s := s) (by rw [hstep])
    have hu : u.HoldsData := holdsData_perform (hm s.ip i hi) hs.counted hperform
    rw [eq_of_follow (hfollow.symm.trans hstep)]
    exact ⟨hu.frames, hu.data, hu.input⟩

theorem holdsData_after (hm : m.Fits) (n : Nat) (hs : s.HoldsData) : (m.after n s).HoldsData :=
  after_of_step (fun _ => holdsData_step hm) n hs

/-- All that `TYPE` does to the frames is to store the name of a type of data, or the empty text. -/
theorem frames_step_of_type (hs : s.HoldsData) (hi : m.code[s.ip]? = some i) (hfits : i.Fits)
    (hop : i.opcode = .type) : (m.step s).1.frames = s.frames ∨ ∃ v, ∃ t ∈ Value.dataTypes,
      i.var 0 = .ok v ∧ Frames.Change.assign v (.text t) s.frames = .ok () (m.step s).1.frames := by
  rcases hstep : m.step s with ⟨t, st⟩
  rcases step_cases hstep with ⟨hstays, -⟩ | ⟨rfl, -⟩
  · exact .inl hstays.frames
  · obtain ⟨i', flow, u, hi', -, hperform, hfollow⟩ := performed_of_running (m := m) (s := s) (by rw [hstep])
    obtain rfl : i = i' := Option.some.inj (hi.symm.trans hi')
    have hstore : m.perform i = Action.store i fun s => s.typeOf i := by
      unfold perform
      rw [hop]
    rw [hstore] at hperform
    obtain ⟨v, new, frames, hv, hnew, hassign, rfl, rfl⟩ := Action.store_eq_ok.1 hperform
    obtain ⟨text, htext, rfl⟩ := hs.counted.mem_dataTypes_of_typeOf hfits hop hnew
    cases hfollow.symm.trans hstep
    exact .inr ⟨v, text, htext, (Action.destination_eq_ok.1 hv).1, hassign⟩

/-- What `WRITE` hands to the sink is data. -/
theorem isData_of_writing {w : Write} (hs : s.HoldsData) (hfits : i.Fits) (hop : i.opcode = .write)
    (h : m.Writing s i w) : ∃ value, s.value i 0 = .ok value ∧ value.isData = true ∧ w = .output value := by
  have hwritten := h.written
  unfold State.written at hwritten
  rw [hop] at hwritten
  obtain ⟨value, hvalue, hw⟩ := except_bind_eq_ok.1 hwritten
  cases hw
  have hread : s.value i 0 = .ok value := hvalue
  exact ⟨value, hread, hs.isData_of_value hfits (by rw [hop]; rfl) hread, rfl⟩

/-- **Labels and names of types are never values of variables.**  In every state that a run of a
program bound from records reaches, whatever the lines of its input or without any, the
variables of all frames that have a value, and the values on the data stack, are integers,
booleans, texts or nil.  So the only texts that `TYPE` stores are the names of the types of
these and the empty one, and `WRITE` hands no other values to the sink. -/
theorem holdsData_of_bound {rs : List Record} {p : Program} {limit : Option Nat} {sink : Sink}
    (hp : Program.ofRecords rs = .ok p) (hload : load p limit sink = .ok m) {input : Input}
    (hinput : input = .nothing ∨ ∃ bytes, input = .lines bytes) (n : Nat) :
    let s : State := m.after n (.start input)
    s.HoldsData ∧ ∀ i, m.code[s.ip]? = some i →
      (i.opcode = .type → (m.step s).1.frames = s.frames ∨ ∃ v, ∃ t ∈ Value.dataTypes,
        i.var 0 = .ok v ∧ Frames.Change.assign v (.text t) s.frames = .ok () (m.step s).1.frames) ∧
      (i.opcode = .write → ∀ w, m.Writing s i w →
        ∃ value, s.value i 0 = .ok value ∧ value.isData = true ∧ w = .output value) := by
  intro s
  have hm : m.Fits := fits_of_load hp hload
  have hgives : input.GivesData := by
    rcases hinput with rfl | ⟨bytes, rfl⟩
    · exact Input.givesData_nothing
    · exact Input.givesData_lines bytes
  have hs : s.HoldsData := holdsData_after hm n (.start hgives)
  refine ⟨hs, fun i hi => ?_⟩
  have hfits : i.Fits := hm s.ip i hi
  exact ⟨frames_step_of_type hs hi hfits, fun hop w => isData_of_writing hs hfits hop⟩

/-- The type of what could not be read as an integer is stored, and written. -/
theorem holdsData_of_bound_read :
    let rs : List Record := [⟨1, "DEFVAR", [⟨1, "var", "GF@x"⟩]⟩,
      ⟨3, "TYPE", [⟨1, "var", "GF@x"⟩, ⟨2, "var", "GF@x"⟩]⟩,
      ⟨2, "READ", [⟨1, "var", "GF@x"⟩, ⟨2, "type", "int"⟩]⟩, ⟨4, "WRITE", [⟨1, "var", "GF@x"⟩]⟩]
    let x : Operand := .var ⟨.gf, "x"⟩
    let type : Instruction := ⟨.type, 3, [x, x]⟩
    let write : Instruction := ⟨.write, 4, [x]⟩
    let p : Program := ⟨[⟨.defVar, 1, [x]⟩, ⟨.read, 2, [x, .const (.type .int)]⟩, type, write]⟩
    let m : Machine := ⟨p.instructions.toArray, [], none, .unbounded⟩
    let s : Nat → State := fun n => m.after n (.start (.lines [0x61, 0x0A]))
    Program.ofRecords rs = .ok p ∧ load p none .unbounded = .ok m ∧ (s 4).HoldsData ∧
      m.code[(s 2).ip]? = some type ∧ (s 2).lookup ⟨.gf, "x"⟩ = .ok (some .nil) ∧
      (∃ v, ∃ t ∈ Value.dataTypes, Frames.Change.assign v (.text t) (s 2).frames = .ok () (m.step (s 2)).1.frames) ∧
      m.Writing (s 3) write (.output (.text "nil")) ∧ (Value.text "nil").isData = true := by
  intro rs x type write p m s
  have hp : Program.ofRecords rs = .ok p := by decide +kernel
  have hload : load p none .unbounded = .ok m := rfl
  have htype : m.code[(s 2).ip]? = some type := by decide +kernel
  have hwrite : m.code[(s 3).ip]? = some write := by decide +kernel
  have hchanged : (m.step (s 2)).1.frames ≠ (s 2).frames := by decide +kernel
  have hwriting : m.Writing (s 3) write (.output (.text "nil")) := ⟨hwrite, rfl, rfl, by decide +kernel⟩
  have hdata (n : Nat) := holdsData_of_bound hp hload (.inr ⟨[0x61, 0x0A], rfl⟩) n
  obtain ⟨v, t, ht, -, hassign⟩ := (((hdata 2).2 type htype).1 rfl).resolve_left hchanged
  obtain ⟨value, -, hvalue, hwritten⟩ := ((hdata 3).2 write hwrite).2 rfl _ hwriting
  cases hwritten
  exact ⟨hp, hload, (hdata 4).1, htype, by decide +kernel, ⟨v, t, ht, hassign⟩, hwriting, hvalue⟩

end Machine

end IppCode
