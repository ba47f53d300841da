import IppCode.Machine.Step
/-!
# Actions — what an action comes to

One equivalence for each way in which an action can come out, so that what holds of all
actions need not take them apart again.
-/
namespace IppCode

/-! ## One action after another -/

section Bind

variable {ε σ α β : Type} {x : EStateM ε σ α} {f : α → EStateM ε σ β} {s s' : σ}

theorem bind_eq_ok {b : β} : (x >>= f) s = .ok b s' ↔ ∃ a t, x s = .ok a t ∧ f a t = .ok b s' := by
  change EStateM.bind x f s = _ ↔ _
  unfold EStateM.bind
  cases hx : x s with
  | ok a t =>
    constructor
    · intro h
      exact ⟨a, t, rfl, h⟩
    · rintro ⟨a', t', e, h⟩
      cases e
      exact h
  | error e t => simp

theorem bind_eq_error {e : ε} : (x >>= f) s = .error e s' ↔
    x s = .error e s' ∨ ∃ a t, x s = .ok a t ∧ f a t = .error e s' := by
  change EStateM.bind x f s = _ ↔ _
  unfold EStateM.bind
  cases hx : x s with
  | ok a t =>
    constructor
    · intro h
      exact .inr ⟨a, t, rfl, h⟩
    · rintro (h | ⟨a', t', e', h⟩)
      · cases h
      · cases e'
        exact h
  | error e' t => simp

theorem except_bind_eq_ok {x : Except ε α} {f : α → Except ε β} {b : β} :
    (x >>= f) = .ok b ↔ ∃ a, x = .ok a ∧ f a = .ok b := by
  cases x <;> simp [bind, Except.bind]

end Bind

/-! ## Changes of the frames -/

namespace Frames.Change

variable {fs fs' : Frames}

theorem frame_eq_ok {scope : Scope} {f : Frame} :
    frame scope fs = .ok f fs' ↔ fs.frame scope = .ok f ∧ fs' = fs := by
  unfold frame
  cases fs.frame scope with
  | ok f' => simp [eq_comm]
  | error why => simp

theorem frame_eq_error {scope : Scope} {why : FrameError} :
    frame scope fs = .error why fs' ↔ fs.frame scope = .error why ∧ fs' = fs := by
  unfold frame
  cases fs.frame scope with
  | ok f => simp
  | error why' => simp [eq_comm]

/-- What changes one frame succeeds iff the frame is there and can be changed so. -/
theorem update_eq_ok {scope : Scope} {change : Frame → Option Frame} {why : FrameError} :
    (do
      let f ← frame scope
      match change f with
      | some g => modify (·.replace g scope)
      | none   => throw why : Change Unit) fs = .ok () fs' ↔
    ∃ f g, fs.frame scope = .ok f ∧ change f = some g ∧ fs' = fs.replace g scope := by
  rw [bind_eq_ok]
  constructor
  · rintro ⟨f, t, hf, h⟩
    obtain ⟨hf, rfl⟩ := frame_eq_ok.1 hf
    cases hg : change f with
    | none =>
      rw [hg] at h
      cases h
    | some g =>
      rw [hg] at h
      cases h
      exact ⟨f, g, hf, hg, rfl⟩
  · rintro ⟨f, g, hf, hg, rfl⟩
    refine ⟨f, fs, frame_eq_ok.2 ⟨hf, rfl⟩, ?_⟩
    rw [hg]
    rfl

/-- It fails iff the frame is not there, or cannot be changed so. -/
theorem update_eq_error {scope : Scope} {change : Frame → Option Frame} {why why' : FrameError} :
    (do
      let f ← frame scope
      match change f with
      | some g => modify (·.replace g scope)
      | none   => throw why : Change Unit) fs = .error why' fs' ↔
    (fs.frame scope = .error why' ∨ ∃ f, fs.frame scope = .ok f ∧ change f = none ∧ why' = why) ∧ fs' = fs := by
  rw [bind_eq_error]
  constructor
  · rintro (hframe | ⟨f, t, hf, h⟩)
    · obtain ⟨hframe, rfl⟩ := frame_eq_error.1 hframe
      exact ⟨.inl hframe, rfl⟩
    · obtain ⟨hf, rfl⟩ := frame_eq_ok.1 hf
      cases hg : change f with
      | none =>
        rw [hg] at h
        cases h
        exact ⟨.inr ⟨f, hf, hg, rfl⟩, rfl⟩
      | some g =>
        rw [hg] at h
        cases h
  · rintro ⟨hframe | ⟨f, hf, hg, rfl⟩, rfl⟩
    · exact .inl (frame_eq_error.2 ⟨hframe, rfl⟩)
    · refine .inr ⟨f, fs', frame_eq_ok.2 ⟨hf, rfl⟩, ?_⟩
      rw [hg]
      rfl

variable {v : Variable}

theorem assign_eq_ok {value : Value} : assign v value fs = .ok () fs' ↔
    ∃ f g, fs.frame v.scope = .ok f ∧ f.set? v.name value = some g ∧ fs' = fs.replace g v.scope :=
  update_eq_ok

theorem declare_eq_ok : declare v fs = .ok () fs' ↔
    ∃ f g, fs.frame v.scope = .ok f ∧ f.declare? v.name = some g ∧ fs' = fs.replace g v.scope :=
  update_eq_ok

theorem push_eq_ok : push fs = .ok () fs' ↔
    ∃ f, fs.temporary = some f ∧ fs' = { fs with temporary := none, locals := f :: fs.locals } := by
  change (takeTemporary >>= _) fs = _ ↔ _
  rw [bind_eq_ok]
  unfold takeTemporary
  cases fs.temporary with
  | none => simp
  | some f =>
    constructor
    · rintro ⟨_, _, ⟨⟩, ⟨⟩⟩
      exact ⟨f, rfl, rfl⟩
    · rintro ⟨_, ⟨⟩, rfl⟩
      exact ⟨f, _, rfl, rfl⟩

theorem push_eq_error {why : FrameError} : push fs = .error why fs' ↔
    fs.temporary = none ∧ why = .noTemporaryFrame ∧ fs' = fs := by
  obtain ⟨global, temporary, locals⟩ := fs
  change (takeTemporary >>= _) _ = _ ↔ _
  rw [bind_eq_error]
  cases temporary with
  | none =>
    constructor
    · rintro (h | ⟨_, _, h, -⟩)
      · cases h
        exact ⟨rfl, rfl, rfl⟩
      · cases h
    · rintro ⟨-, rfl, rfl⟩
      exact .inl rfl
  | some f =>
    refine iff_of_false ?_ nofun
    rintro (h | ⟨_, _, -, h⟩) <;> cases h

theorem pop_eq_ok : pop fs = .ok () fs' ↔
    ∃ f r, fs.locals = f :: r ∧ fs' = { fs with temporary := some f, locals := r } := by
  change (takeLocal >>= _) fs = _ ↔ _
  rw [bind_eq_ok]
  unfold takeLocal
  cases fs.locals with
  | nil => simp [Stack.pop]
  | cons f r =>
    constructor
    · rintro ⟨_, _, ⟨⟩, ⟨⟩⟩
      exact ⟨f, r, rfl, rfl⟩
    · rintro ⟨_, _, ⟨⟩, rfl⟩
      exact ⟨f, _, rfl, rfl⟩

theorem pop_eq_error {why : FrameError} : pop fs = .error why fs' ↔
    fs.locals = [] ∧ why = .noLocalFrame ∧ fs' = fs := by
  obtain ⟨global, temporary, locals⟩ := fs
  change (takeLocal >>= _) _ = _ ↔ _
  rw [bind_eq_error]
  cases locals with
  | nil =>
    constructor
    · rintro (h | ⟨_, _, h, -⟩)
      · cases h
        exact ⟨rfl, rfl, rfl⟩
      · cases h
    · rintro ⟨-, rfl, rfl⟩
      exact .inl rfl
  | cons f r =>
    refine iff_of_false ?_ nofun
    rintro (h | ⟨_, _, -, h⟩) <;> cases h

end Frames.Change

namespace Action

variable {α : Type} {s s' : State} {fault : Fault}

/-! ## Looking -/

theorem look_eq_ok {f : State → Except Fault α} {a : α} : look f s = .ok a s' ↔ f s = .ok a ∧ s' = s := by
  unfold look
  cases f s with
  | ok a' => simp [eq_comm]
  | error fault' => simp

theorem look_eq_error {f : State → Except Fault α} :
    look f s = .error fault s' ↔ f s = .error fault ∧ s' = s := by
  unfold look
  cases f s with
  | ok a => simp
  | error fault' => simp [eq_comm]

/-- What looks at the state first goes on from the same state with what was seen. -/
theorem look_bind_eq_ok {β : Type} {f : State → Except Fault α} {k : α → Action β} {b : β} :
    (look f >>= k) s = .ok b s' ↔ ∃ a, f s = .ok a ∧ k a s = .ok b s' := by
  rw [bind_eq_ok]
  constructor
  · rintro ⟨a, t, ha, h⟩
    obtain ⟨hfa, rfl⟩ := look_eq_ok.1 ha
    exact ⟨a, hfa, h⟩
  · rintro ⟨a, hfa, h⟩
    exact ⟨a, s, look_eq_ok.2 ⟨hfa, rfl⟩, h⟩

theorem lookup_eq_ok {v : Variable} {c : Option Value} : s.lookup v = .ok c ↔ s.frames.lookup v = .ok c := by
  unfold State.lookup
  cases s.frames.lookup v <;> simp

theorem destination_eq_ok {i : Instruction} {v : Variable} :
    s.destination i = .ok v ↔ i.var 0 = .ok v ∧ ∃ c, s.lookup v = .ok c := by
  unfold State.destination
  rw [except_bind_eq_ok]
  constructor
  · rintro ⟨u, hu, h⟩
    obtain ⟨c, hc, h⟩ := except_bind_eq_ok.1 h
    cases h
    exact ⟨hu, c, hc⟩
  · rintro ⟨hv, c, hc⟩
    exact ⟨v, hv, except_bind_eq_ok.2 ⟨c, hc, rfl⟩⟩

/-! ## Frames -/

theorem change_eq_ok {c : Frames.Change α} {a : α} : change c s = .ok a s' ↔
    ∃ frames, c s.frames = .ok a frames ∧ s' = { s with frames := frames } := by
  unfold change
  cases c s.frames with
  | ok a' frames =>
    constructor
    · intro h
      cases h
      exact ⟨frames, rfl, rfl⟩
    · rintro ⟨_, ⟨⟩, rfl⟩
      rfl
  | error why frames => simp

theorem change_eq_error {c : Frames.Change α} : change c s = .error fault s' ↔
    ∃ why frames, c s.frames = .error why frames ∧ fault = .frame why ∧ s' = { s with frames := frames } := by
  unfold change
  cases c s.frames with
  | ok a frames => simp
  | error why frames =>
    constructor
    · intro h
      cases h
      exact ⟨why, frames, rfl, rfl, rfl⟩
    · rintro ⟨_, _, ⟨⟩, rfl, rfl⟩
      rfl

/-! ## Stacks -/

theorem popData_eq_ok {value : Value} : popData s = .ok value s' ↔
    ∃ data, s.data.pop = some (value, data) ∧ s' = { s with data := data } := by
  unfold popData
  cases s.data.pop with
  | none => simp
  | some p =>
    constructor
    · intro h
      cases h
      exact ⟨p.2, rfl, rfl⟩
    · rintro ⟨_, ⟨⟩, rfl⟩
      rfl

theorem popData_eq_error : popData s = .error fault s' ↔
    s.data.pop = none ∧ fault = .emptyDataStack ∧ s' = s := by
  unfold popData
  cases s.data.pop with
  | none => simp [eq_comm]
  | some p => simp

theorem popCall_eq_ok {target : Nat} : popCall s = .ok target s' ↔
    ∃ calls, s.calls.pop = some (target, calls) ∧ s' = { s with calls := calls } := by
  unfold popCall
  cases s.calls.pop with
  | none => simp
  | some p =>
    constructor
    · intro h
      cases h
      exact ⟨p.2, rfl, rfl⟩
    · rintro ⟨_, ⟨⟩, rfl⟩
      rfl

theorem popCall_eq_error : popCall s = .error fault s' ↔
    s.calls.pop = none ∧ fault = .emptyCallStack ∧ s' = s := by
  unfold popCall
  cases s.calls.pop with
  | none => simp [eq_comm]
  | some p => simp

/-! ## Output -/

theorem send_eq_ok {sink : Sink} {w : Write} : send sink w s = .ok () s' ↔
    ∃ log, sink.write w s.log = .ok () log ∧ s' = { s with log := log } := by
  unfold send
  cases sink.write w s.log with
  | ok u log => simp [eq_comm]
  | error why log => simp

theorem send_eq_error {sink : Sink} {w : Write} : send sink w s = .error fault s' ↔
    ∃ why log, sink.write w s.log = .error why log ∧ fault = .output why ∧ s' = { s with log := log } := by
  unfold send
  cases sink.write w s.log with
  | ok u log => simp
  | error why log =>
    constructor
    · intro h
      cases h
      exact ⟨why, log, rfl, rfl, rfl⟩
    · rintro ⟨_, _, ⟨⟩, rfl, rfl⟩
      rfl

/-! ## Going on -/

theorem proceed_eq_ok {a : Action Unit} {flow : Flow} :
    proceed a s = .ok flow s' ↔ a s = .ok () s' ∧ flow = .next := by
  unfold proceed
  rw [bind_eq_ok]
  constructor
  · rintro ⟨_, t, ha, h⟩
    cases h
    exact ⟨ha, rfl⟩
  · rintro ⟨ha, rfl⟩
    exact ⟨(), s', ha, rfl⟩

theorem proceed_eq_error {a : Action Unit} : proceed a s = .error fault s' ↔ a s = .error fault s' := by
  unfold proceed
  rw [bind_eq_error]
  constructor
  · rintro (ha | ⟨u, t, ha, h⟩)
    · exact ha
    · cases h
  · exact .inl

end Action

end IppCode
