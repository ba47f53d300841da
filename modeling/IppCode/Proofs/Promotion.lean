import IppCode.Proofs.Atomicity
/-!
# Promotion — the temporary frame becomes the innermost local one, and back

Pushing and popping move a frame as it is, so what was found under `TF@` before a push is found
under `LF@` after it, and the other way round after a pop (`resolvesAs_of_frame`).  The frame that
was the innermost local one before a push is the next one after it, so the one change takes back
the other; only a temporary frame that is in the way of a pop is lost (`push_pop_renames`).
-/
namespace IppCode

namespace Frames

variable {fs fs' : Frames} {f : Frame} {v v' : Variable}

/-- **The reference is resolved in the frame**: to what the frame has under its name, or to nothing. -/
def ResolvedIn (fs : Frames) (v : Variable) (f : Frame) : Prop :=
  fs.lookup v = match f.cell? v.name with
    | some c => .ok c
    | none   => .error (.undefined v.text)

/-- **One reference resolves as another one does**, in the same frames or in others: both variables
have the same value or none yet, or neither is defined, and each is reported as it is written. -/
def ResolvesAs (fs' : Frames) (v' : Variable) (fs : Frames) (v : Variable) : Prop :=
  (∃ c, fs'.lookup v' = .ok c ∧ fs.lookup v = .ok c) ∨
    fs'.lookup v' = .error (.undefined v'.text) ∧ fs.lookup v = .error (.undefined v.text)

/-- **References to the variable fail**: it is not found, and neither declared nor assigned to. -/
structure FailsWith (fs : Frames) (v : Variable) (why : FrameError) : Prop where
  lookup  : fs.lookup v = .error why
  declare : Change.declare v fs = .error why fs
  assign  : ∀ value, Change.assign v value fs = .error why fs

theorem resolvedIn_of_frame (h : fs.frame v.scope = .ok f) : fs.ResolvedIn v f := by
  unfold ResolvedIn
  cases hc : f.cell? v.name with
  | some c => exact lookup_of_cell h hc
  | none => exact lookup_of_no_cell h hc

/-- A frame that is named by another scope has the same variables under another scope. -/
theorem resolvesAs_of_frame (h' : fs'.frame v'.scope = .ok f) (h : fs.frame v.scope = .ok f)
    (hname : v'.name = v.name) : ResolvesAs fs' v' fs v := by
  cases hc : f.cell? v.name with
  | some c => exact .inl ⟨c, lookup_of_cell h' (hname ▸ hc), lookup_of_cell h hc⟩
  | none => exact .inr ⟨lookup_of_no_cell h' (hname ▸ hc), lookup_of_no_cell h hc⟩

theorem failsWith_of_frame {why : FrameError} (h : fs.frame v.scope = .error why) : fs.FailsWith v why where
  lookup := lookup_of_frame_error h
  declare := Change.update_eq_error.2 ⟨.inl h, rfl⟩
  assign _ := Change.update_eq_error.2 ⟨.inl h, rfl⟩

/-- What a look-up comes to depends on the frame that it is made in and on nothing else. -/
theorem lookup_congr (h : fs'.frame v.scope = fs.frame v.scope) : fs'.lookup v = fs.lookup v := by
  unfold lookup
  rw [h]

theorem frame_of_temporary (h : fs.temporary = some f) : fs.frame .tf = .ok f := by
  unfold frame
  rw [h]

theorem frame_of_locals_nil (h : fs.locals = []) : fs.frame .lf = .error .noLocalFrame := by
  unfold frame
  rw [h]

theorem frame_of_locals_cons {r : List Frame} (h : fs.locals = f :: r) : fs.frame .lf = .ok f := by
  unfold frame
  rw [h]

namespace Change

/-- **A push takes the temporary frame away and names it anew.** -/
theorem push_of_temporary (h : fs.temporary = some f) : ∃ fs', push fs = .ok () fs' ∧
    fs'.frame .lf = .ok f ∧ fs'.frame .tf = .error .noTemporaryFrame ∧ fs'.frame .gf = fs.frame .gf ∧
      pop fs' = .ok () fs := by
  refine ⟨_, push_eq_ok.2 ⟨f, h, rfl⟩, rfl, rfl, rfl, pop_eq_ok.2 ⟨f, fs.locals, rfl, ?_⟩⟩
  rw [← h]

/-- **A pop takes the innermost local frame away and names it anew**; the temporary frame that there
was is gone. -/
theorem pop_of_locals {r : List Frame} (h : fs.locals = f :: r) : ∃ fs', pop fs = .ok () fs' ∧
    fs'.frame .tf = .ok f ∧ fs'.locals = r ∧ fs'.frame .gf = fs.frame .gf ∧
      push fs' = .ok () { fs with temporary := none } := by
  refine ⟨_, pop_eq_ok.2 ⟨f, r, h, rfl⟩, rfl, rfl, rfl, push_eq_ok.2 ⟨f, rfl, ?_⟩⟩
  rw [← h]

/-- **Pushing and popping frames rename their variables**, and take each other back.  After a push
each local variable resolves as the temporary one of its name did, references to temporary ones fail,
and global variables are what they were; a pop then gives the frames from before.  After a pop each
temporary variable resolves as the local one of its name did, whatever temporary frame there was,
and local variables are those of the next local frame, if there is one; a push then gives the local
frames from before, and no temporary frame.  What fails changes no frame: neither a push, a pop, a
declaration or an assignment, nor an instruction that looks for a variable. -/
theorem push_pop_renames (fs : Frames) :
    (∀ f, fs.temporary = some f → ∃ fs', push fs = .ok () fs' ∧
      (∀ x, ResolvesAs fs' ⟨.lf, x⟩ fs ⟨.tf, x⟩) ∧ (∀ x, fs'.FailsWith ⟨.tf, x⟩ .noTemporaryFrame) ∧
      (∀ x, fs'.lookup ⟨.gf, x⟩ = fs.lookup ⟨.gf, x⟩) ∧ pop fs' = .ok () fs) ∧
    (∀ f r, fs.locals = f :: r → ∃ fs', pop fs = .ok () fs' ∧
      (∀ x, ResolvesAs fs' ⟨.tf, x⟩ fs ⟨.lf, x⟩) ∧
      (r = [] → ∀ x, fs'.FailsWith ⟨.lf, x⟩ .noLocalFrame) ∧
      (∀ g r', r = g :: r' → ∀ x, fs'.ResolvedIn ⟨.lf, x⟩ g) ∧
      (∀ x, fs'.lookup ⟨.gf, x⟩ = fs.lookup ⟨.gf, x⟩) ∧ push fs' = .ok () { fs with temporary := none }) ∧
    (∀ why fs', push fs = .error why fs' ∨ pop fs = .error why fs' ∨ (∃ v, declare v fs = .error why fs') ∨
      (∃ v value, assign v value fs = .error why fs') → fs' = fs) ∧
    ∀ v s fault s', s.frames = fs → Action.look (fun s => s.lookup v) s = .error fault s' → s'.frames = fs := by
  refine ⟨fun f hf => ?_, fun f r hlocals => ?_, fun why fs' h => ?_, fun v s fault s' hs h => ?_⟩
  · obtain ⟨fs', hpush, hlf, htf, hgf, hpop⟩ := push_of_temporary hf
    have hbefore : fs.frame .tf = .ok f := frame_of_temporary hf
    exact ⟨fs', hpush, fun x => resolvesAs_of_frame hlf hbefore rfl, fun x => failsWith_of_frame htf,
      fun x => lookup_congr hgf, hpop⟩
  · obtain ⟨fs', hpop, htf, hrest, hgf, hpush⟩ := pop_of_locals hlocals
    have hbefore : fs.frame .lf = .ok f := frame_of_locals_cons hlocals
    exact ⟨fs', hpop, fun x => resolvesAs_of_frame htf hbefore rfl,
      fun hnil x => failsWith_of_frame (frame_of_locals_nil (hrest.trans hnil)),
      fun g r' hcons x => resolvedIn_of_frame (frame_of_locals_cons (hrest.trans hcons)), fun x => lookup_congr hgf, hpush⟩
  · rcases h with h | h | ⟨v, h⟩ | ⟨v, value, h⟩
    · exact atomic_push fs why fs' h
    · exact atomic_pop fs why fs' h
    · exact atomic_declare v fs why fs' h
    · exact atomic_assign v value fs why fs' h
  · rw [(Action.look_eq_error.1 h).2, hs]

/-- One name in every frame, and another one in the innermost local frame only: the frames after a push,
after a pop in place of it, and after a declaration that fails. -/
theorem push_pop_renames_of_shared_name :
    let frame (n : Int64) : Frame := ⟨[("x", some (.int n))]⟩
    let inner : Frame := ⟨[("x", some (.int 2)), ("y", none)]⟩
    let fs : Frames := ⟨frame 0, some (frame 1), [inner, frame 3]⟩
    let pushed : Frames := ⟨frame 0, none, [frame 1, inner, frame 3]⟩
    let popped : Frames := ⟨frame 0, some inner, [frame 3]⟩
    push fs = .ok () pushed ∧ ResolvesAs pushed ⟨.lf, "x"⟩ fs ⟨.tf, "x"⟩ ∧ ResolvesAs pushed ⟨.lf, "y"⟩ fs ⟨.tf, "y"⟩ ∧
      pop pushed = .ok () fs ∧
    pop fs = .ok () popped ∧ ResolvesAs popped ⟨.tf, "y"⟩ fs ⟨.lf, "y"⟩ ∧ popped.ResolvedIn ⟨.lf, "y"⟩ (frame 3) ∧
      push popped = .ok () { fs with temporary := none } ∧
    declare ⟨.lf, "y"⟩ fs = .error (.redefinition "LF@y") fs := by
  intro frame inner fs pushed popped
  have hpush : push fs = .ok () pushed := rfl
  have hpop : pop fs = .ok () popped := rfl
  have hdeclare : ∃ fs', declare ⟨.lf, "y"⟩ fs = .error (.redefinition "LF@y") fs' := ⟨_, rfl⟩
  obtain ⟨hpushes, hpops, hfails, -⟩ := push_pop_renames fs
  obtain ⟨fs₁, h₁, hlocal, -, -, hback⟩ := hpushes (frame 1) rfl
  cases hpush.symm.trans h₁
  obtain ⟨fs₂, h₂, htemporary, -, hnext, -, hforth⟩ := hpops inner [frame 3] rfl
  cases hpop.symm.trans h₂
  obtain ⟨fs₃, h₃⟩ := hdeclare
  obtain rfl := hfails _ fs₃ (.inr (.inr (.inl ⟨_, h₃⟩)))
  exact ⟨hpush, hlocal "x", hlocal "y", hback, hpop, htemporary "y", hnext (frame 3) [] rfl "y", hforth, h₃⟩

end Change

end Frames

end IppCode
