import IppCode.Proofs.Faults
/-!
# Atomicity — an instruction that fails changes nothing

Actions change the state in place, and a fault takes nothing back.  Yet whatever an
instruction needs is looked at before the first change, and what is changed after the data
stack or the input cannot fail any more: the variable that is assigned was looked up first
(`perform_atomic`).  Only a sink may keep a part of the write that it refuses.
-/
namespace IppCode

variable {α β : Type}

/-! ## Changes of the frames -/

namespace Frames.Change

/-- If the change fails, the frames are as they were. -/
def Atomic (c : Change α) : Prop := ∀ fs why fs', c fs = .error why fs' → fs' = fs

theorem atomic_modify (g : Frames → Frames) : Atomic (modify g) := by
  intro fs why fs' h
  cases h

theorem atomic_declare (v : Variable) : Atomic (declare v) := by
  intro fs why fs' h
  exact (update_eq_error.1 h).2

theorem atomic_assign (v : Variable) (value : Value) : Atomic (assign v value) := by
  intro fs why fs' h
  exact (update_eq_error.1 h).2

/-- Pushing takes the temporary frame away first, but only fails if there is none. -/
theorem atomic_push : Atomic push := by
  intro fs why fs' h
  exact (push_eq_error.1 h).2.2

theorem atomic_pop : Atomic pop := by
  intro fs why fs' h
  exact (pop_eq_error.1 h).2.2

/-- A variable that can be looked up can be assigned. -/
theorem assign_of_lookup {fs : Frames} {v : Variable} {c : Option Value} (value : Value)
    (h : fs.lookup v = .ok c) : ∃ fs', assign v value fs = .ok () fs' := by
  unfold lookup at h
  split at h
  · cases h
  · rename_i f hf
    split at h
    · rename_i c' hc
      have hset : f.set? v.name value = some ⟨Frame.assign v.name value f.cells⟩ := by
        unfold Frame.set?
        rw [hc]
      change ∃ fs', EStateM.bind _ _ fs = _
      unfold EStateM.bind
      rw [frame_eq_ok.2 ⟨hf, rfl⟩]
      simp only [hset]
      exact ⟨_, rfl⟩
    · cases h

end Frames.Change

/-! ## Instructions -/

/-- The log is as before, or as the sink has left it when it refused a write. -/
def Sink.Keeps (sink : Sink) (log log' : Log) : Prop :=
  log' = log ∨ ∃ w r, sink.refusal? log w = some r ∧ log' = r.taken ++ log

namespace Action

/-- If the action fails in the state, it leaves the state as it was; only the sink may have
kept a part of a write. -/
def AtomicAt (sink : Sink) (x : Action α) (s : State) : Prop :=
  ∀ fault s', x s = .error fault s' → ∃ log, sink.Keeps s.log log ∧ s' = { s with log := log }

variable {sink : Sink} {s : State}

theorem atomic_of_eq {x : Action α} (h : ∀ fault s', x s = .error fault s' → s' = s) : AtomicAt sink x s := by
  intro fault s' hx
  obtain rfl := h fault s' hx
  exact ⟨s'.log, .inl rfl, rfl⟩

theorem atomic_look (f : State → Except Fault α) : AtomicAt sink (look f) s :=
  atomic_of_eq fun _ _ h => (look_eq_error.1 h).2

theorem atomic_popCall : AtomicAt sink popCall s := atomic_of_eq fun _ _ h => (popCall_eq_error.1 h).2.2

/-- What looks at the state first fails atomically if the rest does, whatever was seen. -/
theorem atomic_of_look {f : State → Except Fault α} {k : α → Action β}
    (hk : ∀ a, f s = .ok a → AtomicAt sink (k a) s) : AtomicAt sink (look f >>= k) s := by
  intro fault s' h
  rcases bind_eq_error.1 h with hlook | ⟨a, t, ha, hrest⟩
  · exact atomic_look f fault s' hlook
  · obtain ⟨hfa, rfl⟩ := look_eq_ok.1 ha
    exact hk a hfa fault s' hrest

theorem atomic_change {c : Frames.Change α} (hc : c.Atomic) : AtomicAt sink (change c) s := by
  refine atomic_of_eq fun fault s' h => ?_
  obtain ⟨why, frames, hwhy, -, rfl⟩ := change_eq_error.1 h
  rw [hc _ _ _ hwhy]

theorem atomic_send (w : Write) : AtomicAt sink (send sink w) s := by
  have htake : ∀ why log, sink.take w s.log = .error why log → sink.Keeps s.log log := by
    intro why log h
    unfold Sink.take at h
    split at h
    · cases h
    · rename_i r hr
      cases h
      exact .inr ⟨w, r, hr, rfl⟩
  intro fault s' h
  obtain ⟨why, log, hwhy, -, rfl⟩ := send_eq_error.1 h
  refine ⟨log, ?_, rfl⟩
  unfold Sink.write at hwhy
  split at hwhy
  · exact htake why log hwhy
  · split at hwhy
    · exact htake why log hwhy
    · cases hwhy

theorem atomic_proceed {a : Action Unit} (ha : AtomicAt sink a s) : AtomicAt sink (proceed a) s :=
  fun fault s' h => ha fault s' (proceed_eq_error.1 h)

theorem atomic_store (i : Instruction) (value : State → Except Fault Value) :
    AtomicAt sink (store i value) s :=
  atomic_of_look fun v _ => atomic_of_look fun value _ =>
    atomic_proceed (atomic_change (Frames.Change.atomic_assign v value))

theorem lookup_of_destination {i : Instruction} {v : Variable} (h : s.destination i = .ok v) :
    ∃ c, s.frames.lookup v = .ok c := by
  obtain ⟨-, c, hc⟩ := destination_eq_ok.1 h
  exact ⟨c, lookup_eq_ok.1 hc⟩

/-- **The destination of an instruction can be assigned**, unless the frames have changed
since it was looked up. -/
theorem frames_ne_of_assign {i : Instruction} {v : Variable} (h : s.destination i = .ok v) {t t' : State}
    {value : Value} {fault : Fault} (herr : proceed (change (.assign v value)) t = .error fault t') :
    t.frames ≠ s.frames := by
  intro ht
  obtain ⟨c, hc⟩ := lookup_of_destination h
  obtain ⟨frames, hframes⟩ := Frames.Change.assign_of_lookup value hc
  obtain ⟨why, frames', hwhy, -, -⟩ := change_eq_error.1 (proceed_eq_error.1 herr)
  rw [ht, hframes] at hwhy
  cases hwhy

/-- The top of the data stack is taken off before the variable is assigned. -/
theorem atomic_popTo (i : Instruction) : AtomicAt sink (popTo i) s := by
  refine atomic_of_look fun v hv => atomic_of_eq fun fault s' h => ?_
  rcases bind_eq_error.1 h with hpop | ⟨value, t, hpop, hassign⟩
  · exact (popData_eq_error.1 hpop).2.2
  · obtain ⟨data, -, rfl⟩ := popData_eq_ok.1 hpop
    exact (frames_ne_of_assign hv hassign rfl).elim

/-- The value is read before the variable is assigned. -/
theorem atomic_readTo (i : Instruction) : AtomicAt sink (readTo i) s := by
  refine atomic_of_look fun v hv => atomic_of_look fun n _ => atomic_of_eq fun fault s' h => ?_
  rcases bind_eq_error.1 h with hline | ⟨value, t, hline, hassign⟩
  · cases hline
  · cases hline
    exact (frames_ne_of_assign hv hassign rfl).elim

end Action

open IppCode.Action in
/-- **An instruction that fails changes nothing**, whatever its operands are. -/
theorem Machine.perform_atomic (m : Machine) (i : Instruction) (s : State) :
    AtomicAt m.sink (m.perform i) s := by
  unfold perform
  cases i.opcode with
  | move | eq | not | int2char | stri2int | concat | strlen | getchar | setchar | type
  | add | sub | mul | idiv | lt | gt | and | or => exact atomic_store i _
  | createFrame => exact atomic_proceed (atomic_change (Frames.Change.atomic_modify _))
  | pushFrame => exact atomic_proceed (atomic_change Frames.Change.atomic_push)
  | popFrame => exact atomic_proceed (atomic_change Frames.Change.atomic_pop)
  | defVar =>
    exact atomic_of_look fun v _ => atomic_proceed (atomic_change (Frames.Change.atomic_declare v))
  | call =>
    -- Nothing after the label has been found can fail.
    refine atomic_of_look fun target _ fault s' h => ?_
    cases h
  | ret =>
    intro fault s' h
    rcases bind_eq_error.1 h with hpop | ⟨target, t, -, hrest⟩
    · exact atomic_popCall fault s' hpop
    · cases hrest
  | pushs =>
    refine atomic_of_look fun value _ => atomic_proceed fun fault s' h => ?_
    cases h
  | pops => exact atomic_popTo i
  | read => exact atomic_readTo i
  | write | dprint | brk => exact atomic_of_look fun _ _ => atomic_proceed (atomic_send _)
  | label =>
    intro fault s' h
    cases h
  | jump | exit =>
    refine atomic_of_look fun _ _ fault s' h => ?_
    cases h
  | jumpIfEq | jumpIfNeq => exact atomic_look _

/-! ## Steps -/

/-- The sink writes nothing of what it refuses, neither output nor diagnostics. -/
def Sink.Clean (sink : Sink) : Prop :=
  ∀ log w r, sink.refusal? log w = some r → Log.output r.taken = [] ∧ Log.diagnostics r.taken = []

theorem Log.output_append (a b : Log) : Log.output (a ++ b) = Log.output b ++ Log.output a := by
  simp [Log.output]

theorem Log.diagnostics_append (a b : Log) :
    Log.diagnostics (a ++ b) = Log.diagnostics b ++ Log.diagnostics a := by
  simp [Log.diagnostics]

theorem Sink.Clean.keeps {sink : Sink} (hsink : sink.Clean) {log log' : Log} (h : sink.Keeps log log') :
    log'.output = log.output ∧ log'.diagnostics = log.diagnostics := by
  rcases h with rfl | ⟨w, r, hr, rfl⟩
  · exact ⟨rfl, rfl⟩
  · obtain ⟨hout, hdiag⟩ := hsink log w r hr
    rw [Log.output_append, Log.diagnostics_append, hout, hdiag]
    exact ⟨List.append_nil _, List.append_nil _⟩

/-- **A step that fails changes nothing but the step counter**: it names the instruction at
which the run stands, and leaves that position, the frames, both stacks and the unread
input as they were; the labels belong to the machine, which no step changes.  The counter
has grown by one unless the limit was reached.  If the sink writes nothing of what it
refuses, what has been written is the same as well. -/
theorem Machine.step_failed {m : Machine} {s s' : State} {e : RuntimeError} (h : m.step s = (s', .failed e)) :
    e.position = s.ip ∧ s'.ip = s.ip ∧ s'.frames = s.frames ∧ s'.calls = s.calls ∧ s'.data = s.data ∧
    s'.input = s.input ∧
    ((∀ limit, e.fault ≠ .stepLimit limit) → s'.steps = s.steps + 1) ∧
    (∀ limit, e.fault = .stepLimit limit → s'.steps = s.steps) ∧
    (m.sink.Clean → s'.log.output = s.log.output ∧ s'.log.diagnostics = s.log.diagnostics) := by
  unfold step at h
  split at h
  · cases h
  · rename_i i hi
    split at h
    · rename_i limit hlimit
      cases h
      exact ⟨rfl, rfl, rfl, rfl, rfl, rfl, fun hno => absurd rfl (hno limit), fun _ _ => rfl, fun _ => ⟨rfl, rfl⟩⟩
    · split at h
      · rename_i flow t ht
        cases flow <;> cases h
      · rename_i fault t ht
        cases h
        obtain ⟨log, hlog, rfl⟩ := m.perform_atomic i _ _ _ ht
        have hfault : i.FaultOf fault := m.faultOf_perform i _ _ _ ht
        refine ⟨rfl, rfl, rfl, rfl, rfl, rfl, fun _ => rfl, fun limit hlim => ?_, fun hsink => hsink.keeps hlog⟩
        cases hlim
        exact hfault.elim

/-- A value that cannot be stored stays on the data stack. -/
theorem Machine.pops_undefined :
    let m : Machine := ⟨#[⟨.pops, 1, [.var ⟨.gf, "x"⟩]⟩], [], none, .quiet⟩
    let s : State := { State.start .nothing with data := [.int 1] }
    ∃ s', m.step s = (s', .failed ⟨0, .frame (.undefined "GF@x")⟩) ∧ s'.data = [.int 1] ∧ s'.steps = 1 := by
  intro m s
  have hstep : m.step s = ({ s with steps := 1 }, .failed ⟨0, .frame (.undefined "GF@x")⟩) := rfl
  obtain ⟨-, -, -, -, hdata, -, hsteps, -, -⟩ := step_failed hstep
  exact ⟨_, hstep, hdata, hsteps (fun _ => by simp)⟩

end IppCode
