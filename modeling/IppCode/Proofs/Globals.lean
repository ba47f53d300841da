import IppCode.Proofs.Accounting
/-!
# Globals — global variables stay

No instruction takes a variable out of the global frame or the value of one away
(`Effect.global_grows`), so the frame only grows along a run (`global_grows_after`).  What has
been declared there can be declared no more, and is found from then on: an instruction that
misses a variable or a frame misses another one (`globals_stay`).
-/
namespace IppCode

/-! ## Frames -/

namespace Frame

/-- The frame has the variable, with a value or without. -/
def Declares (f : Frame) (name : Text) : Prop := ∃ c, f.cell? name = some c

/-- The variable has a value in the frame. -/
def Initializes (f : Frame) (name : Text) : Prop := ∃ value, f.cell? name = some (some value)

/-- **The variables of the first frame are all in the second**, and those that have a value have
one there. -/
structure Grows (f g : Frame) : Prop where
  declares    : ∀ name, f.Declares name → g.Declares name
  initializes : ∀ name, f.Initializes name → g.Initializes name

variable {f g h : Frame} {name : Text} {value : Value}

namespace Grows

theorem refl (f : Frame) : f.Grows f := ⟨fun _ => id, fun _ => id⟩

theorem trans (hfg : f.Grows g) (hgh : g.Grows h) : f.Grows h :=
  ⟨fun x hx => hgh.declares x (hfg.declares x hx), fun x hx => hgh.initializes x (hfg.initializes x hx)⟩

theorem of_declare (hg : f.declare? name = some g) : f.Grows g := by
  have hold : ∀ {x c}, f.cell? x = some c → g.cell? x = some c := by
    intro x c hx
    rw [cell?_declare hg]
    by_cases hname : x = name
    · subst hname
      unfold declare? at hg
      rw [hx] at hg
      cases hg
    · rw [if_neg hname, hx]
  exact ⟨fun x ⟨c, hc⟩ => ⟨c, hold hc⟩, fun x ⟨v, hv⟩ => ⟨v, hold hv⟩⟩

/-- A variable that is set has a value, whether it had one before or not. -/
theorem of_set (hg : f.set? name value = some g) : f.Grows g := by
  constructor
  · rintro x ⟨c, hc⟩
    by_cases hname : x = name
    · exact ⟨some value, by rw [cell?_set hg, if_pos hname]⟩
    · exact ⟨c, by rw [cell?_set hg, if_neg hname, hc]⟩
  · rintro x ⟨v, hv⟩
    by_cases hname : x = name
    · exact ⟨value, by rw [cell?_set hg, if_pos hname]⟩
    · exact ⟨v, by rw [cell?_set hg, if_neg hname, hv]⟩

end Grows

theorem declares_of_declare (hg : f.declare? name = some g) : g.Declares name :=
  ⟨none, by rw [cell?_declare hg, if_pos rfl]⟩

end Frame

namespace Frames

variable {fs fs' : Frames} {f g : Frame} {scope : Scope} {v : Variable} {value : Value}

theorem global_grows_replace (hf : fs.frame scope = .ok f) (hg : f.Grows g) :
    fs.global.Grows (fs.replace g scope).global := by
  by_cases hscope : scope = .gf
  · subst hscope
    cases hf
    exact hg
  · rw [global_replace hscope]
    exact .refl _

/-- A variable of the global frame is found. -/
theorem lookup_of_declares {x : Text} (h : fs.global.Declares x) : ∃ c, fs.lookup ⟨.gf, x⟩ = .ok c := by
  obtain ⟨c, hc⟩ := h
  exact ⟨c, lookup_of_cell (f := fs.global) rfl hc⟩

theorem text_of_undefined {t : Text} (h : fs.lookup v = .error (.undefined t)) : t = v.text := by
  unfold lookup at h
  split at h
  · rename_i why hwhy
    cases h
    unfold frame at hwhy
    split at hwhy
    · cases hwhy
    · split at hwhy <;> cases hwhy
    · split at hwhy <;> cases hwhy
  · split at h <;> cases h
    rfl

namespace Change

theorem global_grows_of_assign (h : assign v value fs = .ok () fs') : fs.global.Grows fs'.global := by
  obtain ⟨f, g, hf, hg, rfl⟩ := assign_eq_ok.1 h
  exact global_grows_replace hf (.of_set hg)

theorem global_grows_of_declare (h : declare v fs = .ok () fs') : fs.global.Grows fs'.global := by
  obtain ⟨f, g, hf, hg, rfl⟩ := declare_eq_ok.1 h
  exact global_grows_replace hf (.of_declare hg)

/-- A variable that is found cannot be declared. -/
theorem declare_of_lookup {c : Option Value} (h : fs.lookup v = .ok c) :
    declare v fs = .error (.redefinition v.text) fs := by
  unfold lookup at h
  split at h
  · cases h
  · rename_i f hf
    split at h
    · rename_i c' hc
      have hdeclare : f.declare? v.name = none := by simp only [Frame.declare?, hc]
      exact update_eq_error.2 ⟨.inr ⟨f, hf, hdeclare, rfl⟩, rfl⟩
    · cases h

end Change

end Frames

/-! ## Instructions -/

/-- **An instruction that succeeds keeps the global variables**, and the values they have are
at most replaced. -/
theorem Effect.global_grows {m : Machine} {i : Instruction} {s t : State} {flow : Flow} (h : Effect m i s flow t) :
    s.frames.global.Grows t.frames.global := by
  cases h with
  | assigned _ _ hassign | popped _ _ _ hassign | read _ _ _ hassign =>
    exact Frames.Change.global_grows_of_assign hassign
  | declared _ _ hdeclare => exact Frames.Change.global_grows_of_declare hdeclare
  | framePushed _ hpush =>
    obtain ⟨f, -, rfl⟩ := Frames.Change.push_eq_ok.1 hpush
    exact .refl _
  | framePopped _ hpop =>
    obtain ⟨f, r, -, rfl⟩ := Frames.Change.pop_eq_ok.1 hpop
    exact .refl _
  | _ => exact .refl _

/-- The instruction declares the variable. -/
structure Instruction.Declares (i : Instruction) (v : Variable) : Prop where
  opcode : i.opcode = .defVar
  var    : i.var 0 = .ok v

theorem Variable.text_injective {v w : Variable} (h : v.text = w.text) : v = w := by
  obtain ⟨scope, name⟩ := v
  obtain ⟨scope', name'⟩ := w
  cases scope <;> cases scope' <;> simp [text, Scope.text] at h ⊢ <;> exact h

/-- **An instruction that misses a frame or a variable** is about the frames themselves, or one of
its operands is a variable that cannot be looked up. -/
theorem Instruction.Misses.of_access {i : Instruction} {fs : Frames} {why : FrameError} (h : i.Misses fs why)
    (hkind : why.kind = .frameAccess ∨ why.kind = .variableAccess) :
    i.opcode = .pushFrame ∨ i.opcode = .popFrame ∨ ∃ v, .var v ∈ i.args ∧ fs.lookup v = .error why := by
  cases h with
  | operand hv hlookup => exact .inr (.inr ⟨_, hv, hlookup⟩)
  | declared => rcases hkind with hkind | hkind <;> cases hkind
  | temporary hop => exact .inl hop
  | locals hop => exact .inr (.inl hop)

/-- A variable that is found is not what it misses. -/
theorem Instruction.Misses.ne_undefined {i : Instruction} {fs : Frames} {why : FrameError} {v : Variable}
    {c : Option Value} (h : i.Misses fs why) (hc : fs.lookup v = .ok c) : why ≠ .undefined v.text := by
  rintro rfl
  cases h with
  | operand _ hlookup =>
    rw [Variable.text_injective (Frames.text_of_undefined hlookup), hlookup] at hc
    cases hc

theorem Fault.exists_frame_of_access {fault : Fault}
    (h : fault.kind = .frameAccess ∨ fault.kind = .variableAccess) :
    ∃ why, fault = .frame why ∧ (why.kind = .frameAccess ∨ why.kind = .variableAccess) := by
  cases fault with
  | frame why => exact ⟨why, rfl, h⟩
  | _ => rcases h with h | h <;> cases h

namespace Machine

variable {m : Machine} {i : Instruction} {s t : State} {v : Variable} {x : Text}

theorem perform_declaration (hi : i.Declares v) : m.perform i =
    (Action.look fun _ => i.var 0) >>= fun v => Action.proceed (Action.change (.declare v)) := by
  unfold perform
  rw [hi.opcode]

theorem declares_of_step (hi : m.code[s.ip]? = some i) (hv : i.Declares ⟨.gf, x⟩) (h : m.step s = (t, .running)) :
    t.frames.global.Declares x := by
  obtain ⟨i', flow, u, hi', -, hperform, hstep⟩ := performed_of_running (m := m) (s := s) (by rw [h])
  obtain rfl : i = i' := Option.some.inj (hi.symm.trans hi')
  rw [perform_declaration hv] at hperform
  obtain ⟨v, hvar, hdeclare⟩ := Action.look_bind_eq_ok.1 hperform
  obtain rfl : v = ⟨.gf, x⟩ := Except.ok.inj (hvar.symm.trans hv.var)
  obtain ⟨frames, hframes, rfl, rfl⟩ := Action.proceed_change_eq_ok.1 hdeclare
  obtain ⟨f, g, -, hg, rfl⟩ := Frames.Change.declare_eq_ok.1 hframes
  cases h.symm.trans hstep
  exact Frame.declares_of_declare hg

/-- **What is found is not declared again.** -/
theorem step_of_redeclared {c : Option Value} (hi : m.code[s.ip]? = some i) (hv : i.Declares v)
    (hc : s.frames.lookup v = .ok c) (hlimit : m.exhausted? s = none) :
    (m.step s).2 = .failed ⟨s.ip, .frame (.redefinition v.text)⟩ := by
  have hdeclare : (Action.proceed (Action.change (.declare v))) s.counted =
      .error (.frame (.redefinition v.text)) s.counted := by
    refine Action.proceed_eq_error.2 (Action.change_eq_error.2 ?_)
    exact ⟨_, _, Frames.Change.declare_of_lookup hc, rfl, rfl⟩
  have hperform : m.perform i s.counted = .error (.frame (.redefinition v.text)) s.counted := by
    rw [perform_declaration hv]
    exact bind_eq_error.2 (.inr ⟨v, s.counted, Action.look_eq_ok.2 ⟨hv.var, rfl⟩, hdeclare⟩)
  rw [step_of_fault hi hlimit hperform]
  rfl

/-! ## Steps and runs -/

/-- A step keeps the global variables, whatever it comes to. -/
theorem global_grows_step (m : Machine) (s : State) : s.frames.global.Grows (m.step s).1.frames.global := by
  rcases hstep : m.step s with ⟨t, st⟩
  rcases step_cases hstep with ⟨hstays, -⟩ | ⟨-, i, flow, u, -, heffect, hfollow⟩
  · rw [hstays.frames]
    exact .refl _
  · rw [eq_of_follow hfollow]
    exact heffect.global_grows

theorem global_grows_after (m : Machine) (n : Nat) (s : State) :
    s.frames.global.Grows (m.after n s).frames.global :=
  after_of_step (P := fun t => s.frames.global.Grows t.frames.global)
    (fun t ht => ht.trans (m.global_grows_step t)) n (.refl _)

/-- A step that misses a frame or a variable misses none that is found. -/
theorem missed_of_step {e : RuntimeError} {c : Option Value} (hi : m.code[s.ip]? = some i)
    (h : (m.step s).2 = .failed e) (hkind : e.kind = .frameAccess ∨ e.kind = .variableAccess)
    (hc : s.frames.lookup v = .ok c) : e.fault ≠ .frame (.undefined v.text) ∧
      (i.opcode = .pushFrame ∨ i.opcode = .popFrame ∨
        ∃ w why, .var w ∈ i.args ∧ w ≠ v ∧ s.frames.lookup w = .error why ∧ e.fault = .frame why) := by
  obtain ⟨why, hwhy, hkind⟩ := Fault.exists_frame_of_access hkind
  have hfailed : m.step s = ((m.step s).1, .failed e) := by rw [← h]
  have hmisses : i.Misses s.frames why := by
    rcases raises_of_step hfailed with ⟨limit, hlimit⟩ | ⟨i', hi', hraises⟩
    · rw [hwhy] at hlimit
      cases hlimit
    · obtain rfl : i = i' := Option.some.inj (hi.symm.trans hi')
      exact hraises.misses why hwhy
  refine ⟨fun hundefined => ?_, ?_⟩
  · rw [hwhy] at hundefined
    exact hmisses.ne_undefined hc (Fault.frame.inj hundefined)
  · rcases hmisses.of_access hkind with hop | hop | ⟨w, hw, hlookup⟩
    · exact .inl hop
    · exact .inr (.inl hop)
    · refine .inr (.inr ⟨w, why, hw, fun hwv => ?_, hlookup, hwhy⟩)
      rw [hwv, hc] at hlookup
      cases hlookup

/-- **Global variables stay.**  Between any two states of a run, with whatever steps that fail in
between, no global variable goes and none loses its value.  So after a declaration of one that
has succeeded the variable is always found; each further declaration of it that is carried out
fails with a semantic error; and whenever an instruction fails because a frame or a variable is
missing, it is about the frames themselves, or another one of its variables is missing. -/
theorem globals_stay (m : Machine) (s : State) (n : Nat) :
    s.frames.global.Grows (m.after n s).frames.global ∧
    ∀ i x t, m.code[s.ip]? = some i → i.Declares ⟨.gf, x⟩ → m.step s = (t, .running) →
      let u : State := m.after n t
      let v : Variable := ⟨.gf, x⟩
      (∃ c, u.frames.lookup v = .ok c) ∧ ∀ j, m.code[u.ip]? = some j →
        (j.Declares v → m.exhausted? u = none → ∃ e, (m.step u).2 = .failed e ∧ e.kind = .semantic) ∧
        ∀ e, (m.step u).2 = .failed e → e.kind = .frameAccess ∨ e.kind = .variableAccess →
          e.fault ≠ .frame (.undefined v.text) ∧
          (j.opcode = .pushFrame ∨ j.opcode = .popFrame ∨
            ∃ w why, .var w ∈ j.args ∧ w ≠ v ∧ u.frames.lookup w = .error why ∧ e.fault = .frame why) := by
  refine ⟨m.global_grows_after n s, fun i x t hi hx ht => ?_⟩
  intro u v
  have hdeclared : u.frames.global.Declares x := (m.global_grows_after n t).declares x (declares_of_step hi hx ht)
  obtain ⟨c, hc⟩ := Frames.lookup_of_declares hdeclared
  refine ⟨⟨c, hc⟩, fun j hj => ⟨fun hv hlimit => ?_, fun e he hkind => missed_of_step hj he hkind hc⟩⟩
  exact ⟨_, step_of_redeclared hj hv hc hlimit, rfl⟩

/-- A declaration made twice, and a look for a local frame that there is not. -/
theorem globals_stay_redeclared :
    let x : Operand := .var ⟨.gf, "x"⟩
    let again : Instruction := ⟨.defVar, 2, [x]⟩
    let copy : Instruction := ⟨.move, 2, [x, .var ⟨.lf, "x"⟩]⟩
    let m (i : Instruction) : Machine := ⟨#[⟨.defVar, 1, [x]⟩, i], [], none, .quiet⟩
    let t : State := { State.start .nothing with ip := 1, steps := 1, frames := ⟨⟨[("x", none)]⟩, none, []⟩ }
    (m again).step (.start .nothing) = (t, .running) ∧ (m copy).step (.start .nothing) = (t, .running) ∧
    (∃ c, t.frames.lookup ⟨.gf, "x"⟩ = .ok c) ∧
    (∃ e, ((m again).step t).2 = .failed e ∧ e.kind = .semantic) ∧
    ((m copy).step t).2 = .failed ⟨1, .frame .noLocalFrame⟩ ∧
    ∃ w why, w ≠ ⟨.gf, "x"⟩ ∧ t.frames.lookup w = .error why ∧ Fault.frame .noLocalFrame = .frame why := by
  intro x again copy m t
  have hagain : (m again).step (.start .nothing) = (t, .running) := rfl
  have hcopy : (m copy).step (.start .nothing) = (t, .running) := rfl
  have hfailed : ((m copy).step t).2 = .failed ⟨1, .frame .noLocalFrame⟩ := by decide +kernel
  have hx : Instruction.Declares ⟨.defVar, 1, [x]⟩ ⟨.gf, "x"⟩ := ⟨rfl, rfl⟩
  obtain ⟨hfound, hlater⟩ := (globals_stay (m again) (.start .nothing) 0).2 _ "x" t rfl hx hagain
  obtain ⟨-, hmissed⟩ := (globals_stay (m copy) (.start .nothing) 0).2 _ "x" t rfl hx hcopy
  have hredeclared := (hlater again rfl).1 ⟨rfl, rfl⟩ rfl
  obtain ⟨-, hop | hop | ⟨w, why, -, hw⟩⟩ := (hmissed copy rfl).2 _ hfailed (.inl rfl)
  · cases hop
  · cases hop
  · exact ⟨hagain, hcopy, hfound, hredeclared, hfailed, w, why, hw⟩

end Machine

end IppCode
