import IppCode.Proofs.Accounting
import IppCode.Proofs.Causality
/-!
# Destinations — which variables an instruction changes

An instruction that assigns its first operand changes the value of that variable, and of no
other one that has the same name in another frame; a declaration adds its variable and nothing
else (`Frames.SameExcept`); eleven operations leave all frames alone.  Which operations do what is
known from their signatures, and `only_destination_changes` says it of the steps.
-/
namespace IppCode

namespace Opcode

/-- The operations that assign their first operand: all that have a variable there, but for the
declaration. -/
def assigns (op : Opcode) : Bool := op.signature.head? = some .var && op ≠ .defVar

/-- The operations that leave all frames as they are. -/
def keepsFrames : Opcode → Bool
  | pushs | write | call | ret | label | jump | jumpIfEq | jumpIfNeq | exit | dprint | brk => true
  | _ => false

theorem keepsFrames_of_computes {op : Opcode} (h : op.computes = true) : op.keepsFrames = false := by
  cases op <;> first | rfl | cases h

end Opcode

/-! ## Frames -/

namespace Frames

variable {fs fs' : Frames} {f g : Frame} {scope : Scope} {v w : Variable} {value : Value}

/-- The names of the variables in every frame that there is. -/
def names (fs : Frames) : List Text × Option (List Text) × List (List Text) :=
  (fs.global.names, fs.temporary.map Frame.names, fs.locals.map Frame.names)

/-- **The frames differ in one variable at most**: every other reference resolves as before, with the
same value or the same error, and the same frames are there, of which the hidden local ones have
not changed at all. -/
structure SameExcept (v : Variable) (fs fs' : Frames) : Prop where
  lookup : ∀ w, w ≠ v → fs'.lookup w = fs.lookup w
  hidden : fs'.locals.tail = fs.locals.tail
  alike  : fs.Alike fs'

theorem frame_replace (fs : Frames) (g : Frame) (scope other : Scope) :
    (fs.replace g scope).frame other = if other = scope then .ok g else fs.frame other := by
  cases scope <;> cases other <;> rfl

theorem lookup_replace_self (g : Frame) {c : Option Value} (hc : g.cell? v.name = some c) :
    (fs.replace g v.scope).lookup v = .ok c :=
  lookup_of_cell (by rw [frame_replace, if_pos rfl]) hc

/-- **References are told apart by their frames and by their names**: another frame is still there,
and in the same one the other names have what they had. -/
theorem lookup_replace_of_ne (hf : fs.frame v.scope = .ok f) (hg : ∀ x, x ≠ v.name → g.cell? x = f.cell? x)
    (hw : w ≠ v) : (fs.replace g v.scope).lookup w = fs.lookup w := by
  unfold lookup
  rw [frame_replace]
  by_cases hscope : w.scope = v.scope
  · have hname : w.name ≠ v.name := by
      intro hname
      apply hw
      cases w
      cases v
      simp_all
    rw [if_pos hscope, hscope, hf]
    simp only [hg w.name hname]
  · rw [if_neg hscope]

theorem locals_tail_replace (fs : Frames) (g : Frame) (scope : Scope) :
    (fs.replace g scope).locals.tail = fs.locals.tail := by
  cases scope <;> rfl

theorem sameExcept_replace (hf : fs.frame v.scope = .ok f) (hg : ∀ x, x ≠ v.name → g.cell? x = f.cell? x) :
    fs.SameExcept v (fs.replace g v.scope) :=
  ⟨fun _ hw => lookup_replace_of_ne hf hg hw, locals_tail_replace fs g v.scope, alike_replace hf⟩

theorem names_replace (hf : fs.frame scope = .ok f) (hg : g.names = f.names) :
    (fs.replace g scope).names = fs.names := by
  obtain ⟨global, temporary, locals⟩ := fs
  cases scope with
  | gf =>
    cases hf
    simp [names, replace, hg]
  | lf =>
    cases locals with
    | nil => cases hf
    | cons a r =>
      cases hf
      simp [names, replace, hg]
  | tf =>
    cases temporary with
    | none => cases hf
    | some a =>
      cases hf
      simp [names, replace, hg]

namespace Change

theorem sameExcept_of_assign (h : assign v value fs = .ok () fs') : fs.SameExcept v fs' := by
  obtain ⟨f, g, hf, hg, rfl⟩ := assign_eq_ok.1 h
  exact sameExcept_replace hf fun x hx => by rw [Frame.cell?_set hg, if_neg hx]

theorem names_eq_of_assign (h : assign v value fs = .ok () fs') : fs'.names = fs.names := by
  obtain ⟨f, g, hf, hg, rfl⟩ := assign_eq_ok.1 h
  exact names_replace hf (Frame.names_set hg)

theorem sameExcept_of_declare (h : declare v fs = .ok () fs') : fs.SameExcept v fs' := by
  obtain ⟨f, g, hf, hg, rfl⟩ := declare_eq_ok.1 h
  exact sameExcept_replace hf fun x hx => by rw [Frame.cell?_declare hg, if_neg hx]

/-- **A variable that is declared was not there, and has no value then.** -/
theorem lookup_of_declare (h : declare v fs = .ok () fs') :
    fs.lookup v = .error (.undefined v.text) ∧ fs'.lookup v = .ok none := by
  obtain ⟨f, g, hf, hg, rfl⟩ := declare_eq_ok.1 h
  have hnew : g.cell? v.name = some none := by rw [Frame.cell?_declare hg, if_pos rfl]
  refine ⟨lookup_of_no_cell hf ?_, lookup_replace_self g hnew⟩
  unfold Frame.declare? at hg
  split at hg
  · cases hg
  · assumption

end Change

end Frames

/-! ## Instructions -/

namespace Effect

variable {m : Machine} {i : Instruction} {s t : State} {flow : Flow}

/-- **What assigns its first operand** does so, and at most takes a value off the data stack. -/
theorem assigned_of_assigns (h : Effect m i s flow t) (hop : i.opcode.assigns = true) :
    ∃ v value, i.var 0 = .ok v ∧ Frames.Change.assign v value s.frames = .ok () t.frames ∧ t.calls = s.calls ∧
      (i.opcode = .pops → ∃ top, s.data = top :: t.data) ∧ (i.opcode ≠ .pops → t.data = s.data) := by
  cases h with
  | assigned hcomputes hv hassign =>
    refine ⟨_, _, hv, hassign, rfl, fun hpops => ?_, fun _ => rfl⟩
    rw [hpops] at hcomputes
    cases hcomputes
  | popped hpops hv hdata hassign =>
    exact ⟨_, _, hv, hassign, rfl, fun _ => ⟨_, hdata⟩, fun hne => absurd hpops hne⟩
  | read hread hv _ hassign =>
    refine ⟨_, _, hv, hassign, rfl, fun hpops => ?_, fun _ => rfl⟩
    rw [hread] at hpops
    cases hpops
  | declared hother | created hother | framePushed hother | framePopped hother | pushed hother | called hother
  | returned hother | exited hother =>
    rw [hother] at hop
    cases hop
  | sent hother | passed hother | jumped hother =>
    rcases hother with hother | hother | hother <;> rw [hother] at hop <;> cases hop

theorem declared_of_defVar (h : Effect m i s flow t) (hop : i.opcode = .defVar) :
    ∃ v, i.var 0 = .ok v ∧ Frames.Change.declare v s.frames = .ok () t.frames ∧
      t.calls = s.calls ∧ t.data = s.data := by
  cases h with
  | declared _ hv hdeclare => exact ⟨_, hv, hdeclare, rfl, rfl⟩
  | assigned hcomputes =>
    rw [hop] at hcomputes
    cases hcomputes
  | popped hother | read hother | created hother | framePushed hother | framePopped hother | pushed hother
  | called hother | returned hother | exited hother =>
    rw [hop] at hother
    cases hother
  | sent hother | passed hother | jumped hother =>
    rcases hother with hother | hother | hother <;> rw [hop] at hother <;> cases hother

theorem frames_eq_of_keepsFrames (h : Effect m i s flow t) (hop : i.opcode.keepsFrames = true) :
    t.frames = s.frames := by
  cases h with
  | assigned hcomputes =>
    rw [Opcode.keepsFrames_of_computes hcomputes] at hop
    cases hop
  | popped hother | read hother | declared hother | created hother | framePushed hother | framePopped hother =>
    rw [hother] at hop
    cases hop
  | pushed | called | returned | exited | sent | passed | jumped => rfl

end Effect

/-! ## Steps -/

namespace Machine

variable {m : Machine} {i : Instruction} {s t : State} {st : Status}

theorem effect_of_code (hi : m.code[s.ip]? = some i) (h : m.step s = (t, .running)) :
    ∃ flow u, Effect m i s.counted flow u ∧ t = { u with ip := t.ip } := by
  obtain ⟨i', flow, u, hi', heffect, hfollow⟩ := effect_of_running h
  obtain rfl : i = i' := Option.some.inj (hi.symm.trans hi')
  exact ⟨flow, u, heffect, eq_of_follow hfollow⟩

/-- A step over an operation that leaves the frames alone leaves them alone, whatever it comes to. -/
theorem frames_step_of_keepsFrames (hi : m.code[s.ip]? = some i) (h : m.step s = (t, st))
    (hop : i.opcode.keepsFrames = true) : t.frames = s.frames := by
  rcases step_cases h with ⟨hstays, -⟩ | ⟨rfl, -⟩
  · exact hstays.frames
  · obtain ⟨flow, u, heffect, ht⟩ := effect_of_code hi h
    rw [ht]
    exact heffect.frames_eq_of_keepsFrames hop

/-- **Only the destination changes.**  After a step over an instruction that assigns its first
operand, that variable has a value, every other reference resolves as it did before, also one to
the same name in another frame; the frames and their variables are the same ones, the hidden local
frames and the call stack have not changed, and from the data stack at most `POPS` has taken its
top.  After a declaration there is one variable more, without a value.  All other operations but
those on frames leave the frames alone, whether they go well or not. -/
theorem only_destination_changes (hi : m.code[s.ip]? = some i) (h : m.step s = (t, st)) :
    (i.opcode.assigns = true → st = .running → ∃ v, i.var 0 = .ok v ∧
      (∃ value, t.frames.lookup v = .ok (some value)) ∧ s.frames.SameExcept v t.frames ∧
      t.frames.names = s.frames.names ∧ t.calls = s.calls ∧
      (i.opcode = .pops → ∃ top, s.data = top :: t.data) ∧ (i.opcode ≠ .pops → t.data = s.data)) ∧
    (i.opcode = .defVar → st = .running → ∃ v, i.var 0 = .ok v ∧
      s.frames.lookup v = .error (.undefined v.text) ∧ t.frames.lookup v = .ok none ∧
      s.frames.SameExcept v t.frames ∧ t.calls = s.calls ∧ t.data = s.data) ∧
    (i.opcode.keepsFrames = true → t.frames = s.frames) := by
  refine ⟨fun hop hst => ?_, fun hop hst => ?_, frames_step_of_keepsFrames hi h⟩
  · subst hst
    obtain ⟨flow, u, heffect, ht⟩ := effect_of_code hi h
    obtain ⟨v, value, hv, hassign, hcalls, hpops, hdata⟩ := heffect.assigned_of_assigns hop
    rw [ht]
    exact ⟨v, hv, ⟨value, Frames.Change.lookup_of_assign hassign⟩, Frames.Change.sameExcept_of_assign hassign,
      Frames.Change.names_eq_of_assign hassign, hcalls, hpops, hdata⟩
  · subst hst
    obtain ⟨flow, u, heffect, ht⟩ := effect_of_code hi h
    obtain ⟨v, hv, hdeclare, hcalls, hdata⟩ := heffect.declared_of_defVar hop
    obtain ⟨hbefore, hafter⟩ := Frames.Change.lookup_of_declare hdeclare
    rw [ht]
    exact ⟨v, hv, hbefore, hafter, Frames.Change.sameExcept_of_declare hdeclare, hcalls, hdata⟩

/-- One name in every frame: a sum is stored in the local variable, which is one of its operands, then a
value is popped into it, then the name is declared in the temporary frame. -/
theorem only_destination_changes_of_shared_name :
    let x (scope : Scope) : Operand := .var ⟨scope, "x"⟩
    let m : Machine := ⟨#[⟨.add, 1, [x .lf, x .gf, x .lf]⟩, ⟨.pops, 2, [x .lf]⟩, ⟨.defVar, 3, [x .tf]⟩,
      ⟨.exit, 4, [x .gf]⟩], [], none, .quiet⟩
    let one : Frame := ⟨[("x", some (.int 1))]⟩
    let s (k : Nat) : State := m.after k { State.start .nothing with
      frames := ⟨one, some .empty, [⟨[("x", some (.int 2))]⟩, one]⟩, data := [.nil, .bool true] }
    (s 1).frames = ⟨one, some .empty, [⟨[("x", some (.int 3))]⟩, one]⟩ ∧
    (∃ value, (s 1).frames.lookup ⟨.lf, "x"⟩ = .ok (some value)) ∧
    (∀ w, w ≠ ⟨.lf, "x"⟩ → (s 1).frames.lookup w = (s 0).frames.lookup w) ∧
    (∃ top, (s 1).data = top :: (s 2).data) ∧ (s 2).frames.SameExcept ⟨.tf, "x"⟩ (s 3).frames ∧
    (s 3).frames.lookup ⟨.tf, "x"⟩ = .ok none ∧ (m.step (s 3)).2 = .ended (.exited 1) ∧
    (s 4).frames = (s 3).frames := by
  intro x m one s
  have hadd : m.step (s 0) = (s 1, .running) := rfl
  have hpops : m.step (s 1) = (s 2, .running) := rfl
  have hdefVar : m.step (s 2) = (s 3, .running) := rfl
  have hexit : m.step (s 3) = (s 4, .ended (.exited 1)) := rfl
  obtain ⟨v, hv, hvalue, hsame, -⟩ :=
    (only_destination_changes (i := ⟨.add, 1, [x .lf, x .gf, x .lf]⟩) rfl hadd).1 rfl rfl
  obtain rfl : Variable.mk .lf "x" = v := Except.ok.inj hv
  obtain ⟨-, -, -, -, -, -, htop, -⟩ :=
    (only_destination_changes (i := ⟨.pops, 2, [x .lf]⟩) (by decide +kernel) hpops).1 rfl rfl
  obtain ⟨w, hw, -, hnew, hdeclared, -⟩ :=
    (only_destination_changes (i := ⟨.defVar, 3, [x .tf]⟩) (by decide +kernel) hdefVar).2.1 rfl rfl
  obtain rfl : Variable.mk .tf "x" = w := Except.ok.inj hw
  have hkept := (only_destination_changes (i := ⟨.exit, 4, [x .gf]⟩) (by decide +kernel) hexit).2.2 rfl
  exact ⟨by decide +kernel, hvalue, hsame.lookup, htop rfl, hdeclared, hnew, by rw [hexit], hkept⟩

end Machine

end IppCode
