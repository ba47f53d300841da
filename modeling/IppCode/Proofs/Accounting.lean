import IppCode.Proofs.Effects
import IppCode.Proofs.Runs
/-!
# Accounting — what the instructions of a run add up to

Every instruction that succeeds adds one item to what its operation is there for, or takes one
away (`Effect.balance`), or does neither, and a step that fails carries out no instruction.  So
the depths of the stacks and the number of global variables are known from the instructions that
have been carried out, and whether there is a temporary frame from the last one that moved it
(`accounts_after`).
-/
namespace IppCode

/-! ## Frames -/

namespace Frame

variable {f g : Frame} {name : Text} {value : Value}

def names (f : Frame) : List Text := f.cells.map Prod.fst

theorem size_eq_length_names (f : Frame) : f.size = f.names.length := (List.length_map Prod.fst).symm

theorem names_assign (name : Text) (value : Value) :
    ∀ cells : List (Text × Option Value), (assign name value cells).map Prod.fst = cells.map Prod.fst
  | [] => rfl
  | (n, v) :: r => by
    unfold assign
    split
    · rfl
    · rw [List.map_cons, List.map_cons, names_assign name value r]

theorem names_set (h : f.set? name value = some g) : g.names = f.names := by
  unfold set? at h
  split at h
  · cases h
    exact names_assign name value f.cells
  · cases h

theorem names_declare (h : f.declare? name = some g) : name ∉ f.names ∧ g.names = f.names ++ [name] := by
  unfold declare? at h
  split at h
  · cases h
  · rename_i hnone
    cases h
    refine ⟨fun hmem => ?_, List.map_append⟩
    obtain ⟨c, hc, rfl⟩ := List.mem_map.1 hmem
    simpa using List.lookup_eq_none_iff.1 hnone c hc

end Frame

namespace Frames

variable {fs fs' : Frames} {f g : Frame} {scope : Scope} {v : Variable} {value : Value}

/-- There are as many local frames as before, and a temporary one iff there was one. -/
structure Alike (fs fs' : Frames) : Prop where
  locals    : fs'.locals.length = fs.locals.length
  temporary : fs'.temporary.isSome = fs.temporary.isSome

theorem alike_replace (h : fs.frame scope = .ok f) : fs.Alike (fs.replace g scope) := by
  obtain ⟨global, temporary, locals⟩ := fs
  cases scope with
  | gf => exact ⟨rfl, rfl⟩
  | lf =>
    cases locals with
    | nil => cases h
    | cons a r => exact ⟨rfl, rfl⟩
  | tf =>
    cases temporary with
    | none => cases h
    | some a => exact ⟨rfl, rfl⟩

theorem global_replace (hscope : scope ≠ .gf) : (fs.replace g scope).global = fs.global := by
  cases scope with
  | gf => exact absurd rfl hscope
  | lf | tf => rfl

namespace Change

theorem alike_of_assign (h : assign v value fs = .ok () fs') : fs.Alike fs' := by
  obtain ⟨f, g, hf, -, rfl⟩ := assign_eq_ok.1 h
  exact alike_replace hf

theorem alike_of_declare (h : declare v fs = .ok () fs') : fs.Alike fs' := by
  obtain ⟨f, g, hf, -, rfl⟩ := declare_eq_ok.1 h
  exact alike_replace hf

theorem names_of_assign (h : assign v value fs = .ok () fs') : fs'.global.names = fs.global.names := by
  obtain ⟨f, g, hf, hg, rfl⟩ := assign_eq_ok.1 h
  by_cases hscope : v.scope = .gf
  · rw [hscope] at hf ⊢
    cases hf
    exact Frame.names_set hg
  · rw [global_replace hscope]

/-- A declaration of a global variable adds its name, which is a new one. -/
theorem names_of_declare (h : declare v fs = .ok () fs') :
    if v.scope = .gf then v.name ∉ fs.global.names ∧ fs'.global.names = fs.global.names ++ [v.name]
    else fs'.global.names = fs.global.names := by
  obtain ⟨f, g, hf, hg, rfl⟩ := declare_eq_ok.1 h
  split
  · rename_i hscope
    rw [hscope] at hf ⊢
    cases hf
    exact Frame.names_declare hg
  · rename_i hscope
    rw [global_replace hscope]

end Change

end Frames

/-! ## Accounts -/

/-- The instruction declares a global variable. -/
@[simp]
def Instruction.declaresGlobal (i : Instruction) : Bool :=
  i.opcode = .defVar && match i.var 0 with
    | .ok v    => v.scope = .gf
    | .error _ => false

/-- **What is kept account of**: the local frames, the addresses on the call stack, the values on
the data stack, and the global variables. -/
inductive Account
  | locals
  | calls
  | data
  | globals

namespace Account

@[simp]
def size (s : State) : Account → Nat
  | locals  => s.frames.locals.length
  | calls   => s.calls.length
  | data    => s.data.length
  | globals => s.frames.global.names.length

/-- The instructions that add an item. -/
@[simp]
def adds : Account → Instruction → Bool
  | locals,  i => i.opcode = .pushFrame
  | calls,   i => i.opcode = .call
  | data,    i => i.opcode = .pushs
  | globals, i => i.declaresGlobal

/-- The instructions that take an item away. -/
@[simp]
def takes : Account → Instruction → Bool
  | locals,  i => i.opcode = .popFrame
  | calls,   i => i.opcode = .ret
  | data,    i => i.opcode = .pops
  | globals, _ => false

theorem idle_of_computes {i : Instruction} (a : Account) (h : i.opcode.computes = true) :
    a.adds i = false ∧ a.takes i = false := by
  have hne : ∀ op, op.computes = false → i.opcode ≠ op := by
    rintro op hop rfl
    rw [h] at hop
    cases hop
  cases a with
  | locals => simp [hne .pushFrame rfl, hne .popFrame rfl]
  | calls => simp [hne .call rfl, hne .ret rfl]
  | data => simp [hne .pushs rfl, hne .pops rfl]
  | globals => simp [hne .defVar rfl]

end Account

namespace Effect

variable {m : Machine} {i : Instruction} {s t : State} {flow : Flow}

/-- **An instruction that succeeds adds what its operation adds, and takes what it takes.** -/
theorem balance (a : Account) (h : Effect m i s flow t) :
    a.size t + [i].countP a.takes = a.size s + [i].countP a.adds := by
  cases h with
  | called hop | pushed hop | created hop | exited hop => cases a <;> simp [hop, Frames.create]
  | returned hop hcalls => cases a <;> simp [hop, hcalls]
  | framePushed hop hpush =>
    obtain ⟨f, -, rfl⟩ := Frames.Change.push_eq_ok.1 hpush
    cases a <;> simp [hop]
  | framePopped hop hpop =>
    obtain ⟨f, r, hlocals, rfl⟩ := Frames.Change.pop_eq_ok.1 hpop
    cases a <;> simp [hop, hlocals]
  | declared hop hv hdeclare =>
    have hlocals := (Frames.Change.alike_of_declare hdeclare).locals
    have hnames := Frames.Change.names_of_declare hdeclare
    cases a with
    | locals | calls | data => simp [hop, hlocals]
    | globals =>
      split at hnames
      · rename_i hscope
        simp [hop, hv, hscope, hnames.2]
      · rename_i hscope
        simp [hop, hv, hscope, hnames]
  | popped hop _ hdata hassign =>
    have hlocals := (Frames.Change.alike_of_assign hassign).locals
    cases a <;> simp [hop, hdata, hlocals, Frames.Change.names_of_assign hassign]
  | read hop _ _ hassign =>
    have hlocals := (Frames.Change.alike_of_assign hassign).locals
    cases a <;> simp [hop, hlocals, Frames.Change.names_of_assign hassign]
  | assigned hop _ hassign =>
    have hlocals := (Frames.Change.alike_of_assign hassign).locals
    obtain ⟨hadds, htakes⟩ := a.idle_of_computes hop
    rw [List.countP_singleton, List.countP_singleton, hadds, htakes]
    cases a <;> simp [hlocals, Frames.Change.names_of_assign hassign]
  | sent hop | passed hop | jumped hop => rcases hop with hop | hop | hop <;> cases a <;> simp [hop]

/-- The names of the global variables stay, and a new one may be added behind them. -/
theorem nodup_names (h : Effect m i s flow t) (hs : s.frames.global.names.Nodup) : t.frames.global.names.Nodup := by
  cases h with
  | assigned _ _ hassign | popped _ _ _ hassign | read _ _ _ hassign =>
    rw [Frames.Change.names_of_assign hassign]
    exact hs
  | declared _ _ hdeclare =>
    have hnames := Frames.Change.names_of_declare hdeclare
    split at hnames
    · obtain ⟨hnew, hnames⟩ := hnames
      rw [hnames]
      refine List.nodup_append.2 ⟨hs, List.pairwise_singleton _ _, fun a ha b hb e => hnew ?_⟩
      rwa [← List.mem_singleton.1 hb, ← e]
    · rw [hnames]
      exact hs
  | framePushed _ hpush =>
    obtain ⟨f, -, rfl⟩ := Frames.Change.push_eq_ok.1 hpush
    exact hs
  | framePopped _ hpop =>
    obtain ⟨f, r, -, rfl⟩ := Frames.Change.pop_eq_ok.1 hpop
    exact hs
  | _ => exact hs

end Effect

/-! ## The temporary frame -/

/-- The operations after which there is a temporary frame, or none, whatever there was before. -/
def Opcode.movesTemporary : Opcode → Bool
  | createFrame | pushFrame | popFrame => true
  | _ => false

theorem Opcode.movesTemporary_of_computes {op : Opcode} (h : op.computes = true) : op.movesTemporary = false := by
  cases op <;> first | rfl | cases h

namespace Instruction

variable {i : Instruction} {before : Bool}

/-- The last of the instructions that creates, pushes or pops a frame. -/
def lastMove? (is : List Instruction) : Option Instruction := is.reverse.find? fun i => i.opcode.movesTemporary

/-- Whether the instructions leave a temporary frame: only a push takes it away. -/
def leaveTemporary (before : Bool) (is : List Instruction) : Bool :=
  ((lastMove? is).map fun i => decide (i.opcode ≠ .pushFrame)).getD before

theorem leaveTemporary_append (before : Bool) (is js : List Instruction) :
    leaveTemporary before (is ++ js) = leaveTemporary (leaveTemporary before is) js := by
  unfold leaveTemporary lastMove?
  rw [List.reverse_append, List.find?_append]
  cases js.reverse.find? fun i => i.opcode.movesTemporary <;> rfl

theorem leaveTemporary_of_moves (h : i.opcode.movesTemporary = true) :
    leaveTemporary before [i] = decide (i.opcode ≠ .pushFrame) := by
  simp [leaveTemporary, lastMove?, h]

theorem leaveTemporary_of_not_moves (h : i.opcode.movesTemporary = false) : leaveTemporary before [i] = before := by
  simp [leaveTemporary, lastMove?, h]

/-- From no temporary frame, there is one iff the last move was a creation or a pop. -/
theorem leaveTemporary_false {is : List Instruction} : leaveTemporary false is = true ↔
    ∃ i, lastMove? is = some i ∧ (i.opcode = .createFrame ∨ i.opcode = .popFrame) := by
  unfold leaveTemporary
  cases hlast : lastMove? is with
  | none => simp
  | some i =>
    unfold lastMove? at hlast
    have hmoves := List.find?_some hlast
    simp only [Option.map_some, Option.getD_some, decide_eq_true_eq, Option.some.injEq, exists_eq_left']
    constructor
    · intro hpush
      cases hop : i.opcode with
      | createFrame => exact .inl rfl
      | popFrame => exact .inr rfl
      | pushFrame => exact absurd hop hpush
      | _ =>
        rw [hop] at hmoves
        cases hmoves
    · rintro (hop | hop) <;> simp [hop]

end Instruction

open Instruction (leaveTemporary leaveTemporary_of_moves leaveTemporary_of_not_moves) in
theorem Effect.temporary {m : Machine} {i : Instruction} {s t : State} {flow : Flow} (h : Effect m i s flow t) :
    t.frames.temporary.isSome = leaveTemporary s.frames.temporary.isSome [i] := by
  cases h with
  | created hop =>
    rw [leaveTemporary_of_moves (by rw [hop]; rfl), hop]
    rfl
  | framePushed hop hpush =>
    obtain ⟨f, -, rfl⟩ := Frames.Change.push_eq_ok.1 hpush
    rw [leaveTemporary_of_moves (by rw [hop]; rfl), hop]
    rfl
  | framePopped hop hpop =>
    obtain ⟨f, r, -, rfl⟩ := Frames.Change.pop_eq_ok.1 hpop
    rw [leaveTemporary_of_moves (by rw [hop]; rfl), hop]
    rfl
  | assigned hop _ hassign =>
    rw [leaveTemporary_of_not_moves (Opcode.movesTemporary_of_computes hop)]
    exact (Frames.Change.alike_of_assign hassign).temporary
  | popped hop _ _ hassign | read hop _ _ hassign =>
    rw [leaveTemporary_of_not_moves (by rw [hop]; rfl)]
    exact (Frames.Change.alike_of_assign hassign).temporary
  | declared hop _ hdeclare =>
    rw [leaveTemporary_of_not_moves (by rw [hop]; rfl)]
    exact (Frames.Change.alike_of_declare hdeclare).temporary
  | called hop | returned hop | pushed hop | exited hop => rw [leaveTemporary_of_not_moves (by rw [hop]; rfl)]
  | sent hop | passed hop | jumped hop =>
    rw [leaveTemporary_of_not_moves]
    rcases hop with hop | hop | hop <;> rw [hop] <;> rfl

namespace Machine

variable {m : Machine} {i : Instruction} {s : State}

/-! ## Runs -/

/-- The instruction that a step carries out: none past the last one, and none if the step fails. -/
def executed? (m : Machine) (s : State) : Option Instruction :=
  match (m.step s).2 with
  | .failed _ => none
  | _         => m.code[s.ip]?

/-- The instructions that so many calls of a step carry out, one after another. -/
def executed (m : Machine) : Nat → State → List Instruction
  | 0,     _ => []
  | n + 1, s => (m.executed? s).toList ++ executed m n (m.step s).1

theorem effect_of_executed (h : m.executed? s = some i) :
    ∃ flow u, Effect m i s.counted flow u ∧ m.step s = follow u flow := by
  unfold executed? at h
  cases hst : (m.step s).2 with
  | failed why =>
    rw [hst] at h
    cases h
  | running | ended =>
    simp only [hst] at h
    cases hlimit : m.exhausted? s with
    | some limit =>
      unfold step at hst
      simp only [h, hlimit] at hst
      cases hst
    | none =>
      cases hperform : m.perform i s.counted with
      | ok flow u => exact ⟨flow, u, effect_of_perform hperform, step_of_perform h hlimit hperform⟩
      | error fault u =>
        rw [step_of_fault h hlimit hperform] at hst
        cases hst

theorem stays_of_not_executed (h : m.executed? s = none) : s.Stays (m.step s).1 := by
  rcases hstep : m.step s with ⟨t, st⟩
  rcases step_cases hstep with ⟨hstays, -⟩ | ⟨rfl, i, flow, u, hi, -⟩
  · exact hstays
  · unfold executed? at h
    rw [hstep, hi] at h
    cases h

end Machine

/-- **The state is what the instructions add up to**, from the first one on. -/
structure State.AddsUp (s : State) (done : List Instruction) : Prop where
  balance   : ∀ a : Account, a.size s + done.countP a.takes = done.countP a.adds
  nodup     : s.frames.global.names.Nodup
  temporary : s.frames.temporary.isSome = Instruction.leaveTemporary false done

namespace State.AddsUp

variable {m : Machine} {i : Instruction} {s t : State} {flow : Flow} {done : List Instruction}

theorem start (input : Input) : (State.start input).AddsUp [] := by
  refine ⟨fun a => ?_, List.nodup_nil, rfl⟩
  cases a <;> rfl

/-- What adds up are the frames and the stacks. -/
theorem congr (h : s.AddsUp done) (hframes : t.frames = s.frames) (hcalls : t.calls = s.calls)
    (hdata : t.data = s.data) : t.AddsUp done := by
  refine ⟨fun a => ?_, by rw [hframes]; exact h.nodup, by rw [hframes]; exact h.temporary⟩
  rw [← h.balance a]
  cases a <;> simp [hframes, hcalls, hdata]

/-- **An instruction that succeeds is one more in the sums.** -/
theorem effect (h : s.AddsUp done) (heffect : Effect m i s flow t) : t.AddsUp (done ++ [i]) := by
  refine ⟨fun a => ?_, heffect.nodup_names h.nodup, ?_⟩
  · have hdone := h.balance a
    have hone := heffect.balance a
    rw [List.countP_append, List.countP_append]
    omega
  · rw [Instruction.leaveTemporary_append, ← h.temporary]
    exact heffect.temporary

/-- **A step carries out its instruction, or leaves the sums as they are.** -/
theorem step (h : s.AddsUp done) : (m.step s).1.AddsUp (done ++ (m.executed? s).toList) := by
  cases hi : m.executed? s with
  | none =>
    have hstays := Machine.stays_of_not_executed hi
    rw [Option.toList_none, List.append_nil]
    exact h.congr hstays.frames hstays.calls hstays.data
  | some i =>
    obtain ⟨flow, u, heffect, hstep⟩ := Machine.effect_of_executed hi
    have hcounted : s.counted.AddsUp done := h.congr rfl rfl rfl
    have hu := hcounted.effect heffect
    rw [hstep]
    cases flow <;> exact hu.congr rfl rfl rfl

theorem after : ∀ (n : Nat) {s : State} {done : List Instruction}, s.AddsUp done →
    (m.after n s).AddsUp (done ++ m.executed n s)
  | 0, _, _, h => by
    rw [Machine.executed, List.append_nil]
    exact h
  | n + 1, _, _, h => by
    rw [Machine.executed, ← List.append_assoc]
    exact after n h.step

end State.AddsUp

/-- **The state is accounted for by the instructions that have been carried out.**  After any
number of steps from the start, there are as many local frames as have been pushed and not
popped, as many addresses on the call stack as calls have been made and not returned from, as
many values on the data stack as have been pushed and not popped, and as many global variables,
all of different names, as have been declared.  There is a temporary frame iff the last
instruction that created, pushed or popped a frame was no push. -/
theorem Machine.accounts_after (m : Machine) (input : Input) (n : Nat) :
    let s : State := m.after n (.start input)
    let done := m.executed n (.start input)
    let count (op : Opcode) := done.countP fun i => i.opcode = op
    s.frames.locals.length + count .popFrame = count .pushFrame ∧
    s.calls.length + count .ret = count .call ∧
    s.data.length + count .pops = count .pushs ∧
    s.frames.global.size = done.countP Instruction.declaresGlobal ∧ s.frames.global.names.Nodup ∧
    (s.frames.temporary.isSome = true ↔ ∃ i, Instruction.lastMove? done = some i ∧
      (i.opcode = .createFrame ∨ i.opcode = .popFrame)) := by
  intro s done count
  have h : s.AddsUp done := (State.AddsUp.start input).after n
  refine ⟨h.balance .locals, h.balance .calls, h.balance .data, ?_, h.nodup, ?_⟩
  · rw [Frame.size_eq_length_names]
    have hnone : done.countP (Account.takes .globals) = 0 := List.countP_eq_zero.2 fun _ _ => Bool.false_ne_true
    have hglobals := h.balance .globals
    rwa [hnone] at hglobals
  · rw [h.temporary]
    exact Instruction.leaveTemporary_false

/-- A pop over a temporary frame that there is. -/
example :
    let m : Machine := ⟨#[⟨.createFrame, 1, []⟩, ⟨.pushFrame, 2, []⟩, ⟨.createFrame, 3, []⟩, ⟨.popFrame, 4, []⟩], [],
      none, .quiet⟩
    let s : State := m.after 4 (.start .nothing)
    (m.executed 4 (.start .nothing)).length = 4 ∧ s.frames = ⟨.empty, some .empty, []⟩ := by
  decide +kernel

end IppCode
