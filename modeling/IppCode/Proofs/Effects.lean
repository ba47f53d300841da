import IppCode.Proofs.Atomicity
/-!
# Effects — what an instruction that succeeds has done

An instruction that succeeds has changed what its case of `Effect` says and nothing else
(`effect_of_perform`), and a step that does not go on has left the run where it stood
(`step_cases`).  So what the steps of a run do to the position, the frames and the stacks is
read off the cases, not off the operations.
-/
namespace IppCode

/-- The operations that compute a value from their operands and assign it to the first one. -/
def Opcode.computes : Opcode → Bool
  | move | add | sub | mul | idiv | lt | gt | eq | and | or | not | int2char | stri2int
  | concat | strlen | getchar | setchar | type => true
  | _ => false

/-- **What an instruction that succeeds may have done**: in which state, where it sends the run,
and to which state it has come. -/
inductive Effect (m : Machine) (i : Instruction) (s : State) : Flow → State → Prop
  | assigned {v : Variable} {value : Value} {frames : Frames} (hop : i.opcode.computes = true)
      (hv : i.var 0 = .ok v) (hassign : Frames.Change.assign v value s.frames = .ok () frames) :
      Effect m i s .next { s with frames := frames }
  | popped {v : Variable} {value : Value} {data : Stack Value} {frames : Frames} (hop : i.opcode = .pops)
      (hv : i.var 0 = .ok v) (hdata : s.data = value :: data)
      (hassign : Frames.Change.assign v value s.frames = .ok () frames) :
      Effect m i s .next { s with data := data, frames := frames }
  | read {v : Variable} {n : TypeName} {frames : Frames} (hop : i.opcode = .read)
      (hv : i.var 0 = .ok v) (hn : i.typeName 1 = .ok n)
      (hassign : Frames.Change.assign v ((s.input.read n).1.getD .nil) s.frames = .ok () frames) :
      Effect m i s .next { s with input := (s.input.read n).2, frames := frames }
  | declared {v : Variable} {frames : Frames} (hop : i.opcode = .defVar)
      (hv : i.var 0 = .ok v) (hdeclare : Frames.Change.declare v s.frames = .ok () frames) :
      Effect m i s .next { s with frames := frames }
  | created (hop : i.opcode = .createFrame) : Effect m i s .next { s with frames := s.frames.create }
  | framePushed {frames : Frames} (hop : i.opcode = .pushFrame)
      (hpush : Frames.Change.push s.frames = .ok () frames) : Effect m i s .next { s with frames := frames }
  | framePopped {frames : Frames} (hop : i.opcode = .popFrame)
      (hpop : Frames.Change.pop s.frames = .ok () frames) : Effect m i s .next { s with frames := frames }
  | pushed {value : Value} (hop : i.opcode = .pushs) (hvalue : s.value i 0 = .ok value) :
      Effect m i s .next { s with data := value :: s.data }
  | sent {w : Write} {log : Log} (hop : i.opcode = .write ∨ i.opcode = .dprint ∨ i.opcode = .brk)
      (hsend : m.sink.write w s.log = .ok () log) : Effect m i s .next { s with log := log }
  | passed (hop : i.opcode = .label ∨ i.opcode = .jumpIfEq ∨ i.opcode = .jumpIfNeq) : Effect m i s .next s
  | jumped {target : Nat} (hop : i.opcode = .jump ∨ i.opcode = .jumpIfEq ∨ i.opcode = .jumpIfNeq)
      (htarget : m.destination i = .ok target) : Effect m i s (.jump target) s
  | called {target : Nat} (hop : i.opcode = .call) (htarget : m.destination i = .ok target) :
      Effect m i s (.jump target) { s with calls := (s.ip + 1) :: s.calls }
  | returned {target : Nat} {calls : Stack Nat} (hop : i.opcode = .ret) (hcalls : s.calls = target :: calls) :
      Effect m i s (.jump target) { s with calls := calls }
  | exited {code : Fin 10} (hop : i.opcode = .exit) : Effect m i s (.exit code) s

/-- Instructions leave it to the step to count them. -/
theorem Effect.steps_eq {m : Machine} {i : Instruction} {s t : State} {flow : Flow} (h : Effect m i s flow t) :
    t.steps = s.steps := by
  cases h <;> rfl

theorem Stack.pop_eq_some {α : Type} {s r : Stack α} {a : α} : s.pop = some (a, r) ↔ s = a :: r := by
  cases s <;> simp [pop]

namespace Action

variable {m : Machine} {i : Instruction} {s t : State} {flow : Flow}

theorem proceed_change_eq_ok {c : Frames.Change Unit} : proceed (change c) s = .ok flow t ↔
    ∃ frames, c s.frames = .ok () frames ∧ t = { s with frames := frames } ∧ flow = .next := by
  rw [proceed_eq_ok, change_eq_ok]
  constructor
  · rintro ⟨⟨frames, hframes, ht⟩, hflow⟩
    exact ⟨frames, hframes, ht, hflow⟩
  · rintro ⟨frames, hframes, ht, hflow⟩
    exact ⟨⟨frames, hframes, ht⟩, hflow⟩

theorem store_eq_ok {value : State → Except Fault Value} : store i value s = .ok flow t ↔
    ∃ v new frames, s.destination i = .ok v ∧ value s = .ok new ∧
      Frames.Change.assign v new s.frames = .ok () frames ∧ t = { s with frames := frames } ∧ flow = .next := by
  constructor
  · intro h
    obtain ⟨v, hv, hrest⟩ := look_bind_eq_ok.1 h
    obtain ⟨new, hnew, hassign⟩ := look_bind_eq_ok.1 hrest
    obtain ⟨frames, hframes, ht, hflow⟩ := proceed_change_eq_ok.1 hassign
    exact ⟨v, new, frames, hv, hnew, hframes, ht, hflow⟩
  · rintro ⟨v, new, frames, hv, hnew, hframes, ht, hflow⟩
    have hassign := proceed_change_eq_ok.2 ⟨frames, hframes, ht, hflow⟩
    exact look_bind_eq_ok.2 ⟨v, hv, look_bind_eq_ok.2 ⟨new, hnew, hassign⟩⟩

theorem effect_of_store {value : State → Except Fault Value} (hop : i.opcode.computes = true)
    (h : store i value s = .ok flow t) : Effect m i s flow t := by
  obtain ⟨v, new, frames, hv, -, hframes, rfl, rfl⟩ := store_eq_ok.1 h
  exact .assigned hop (destination_eq_ok.1 hv).1 hframes

theorem effect_of_popTo (hop : i.opcode = .pops) (h : popTo i s = .ok flow t) : Effect m i s flow t := by
  obtain ⟨v, hv, hrest⟩ := look_bind_eq_ok.1 h
  obtain ⟨value, u, hpop, hassign⟩ := bind_eq_ok.1 hrest
  obtain ⟨data, hdata, rfl⟩ := popData_eq_ok.1 hpop
  obtain ⟨frames, hframes, rfl, rfl⟩ := proceed_change_eq_ok.1 hassign
  exact .popped hop (destination_eq_ok.1 hv).1 (Stack.pop_eq_some.1 hdata) hframes

theorem effect_of_readTo (hop : i.opcode = .read) (h : readTo i s = .ok flow t) : Effect m i s flow t := by
  obtain ⟨v, hv, hrest⟩ := look_bind_eq_ok.1 h
  obtain ⟨n, hn, hrest⟩ := look_bind_eq_ok.1 hrest
  obtain ⟨value, u, hline, hassign⟩ := bind_eq_ok.1 hrest
  cases hline
  obtain ⟨frames, hframes, rfl, rfl⟩ := proceed_change_eq_ok.1 hassign
  exact .read hop (destination_eq_ok.1 hv).1 hn hframes

theorem effect_of_send {w : Write} (hop : i.opcode = .write ∨ i.opcode = .dprint ∨ i.opcode = .brk)
    (h : proceed (send m.sink w) s = .ok flow t) : Effect m i s flow t := by
  obtain ⟨hsend, rfl⟩ := proceed_eq_ok.1 h
  obtain ⟨log, hlog, rfl⟩ := send_eq_ok.1 hsend
  exact .sent hop hlog

end Action

namespace Machine

variable {m : Machine} {i : Instruction} {s t : State} {flow : Flow}

theorem destination_eq_ok {k : Nat} : m.destination i = .ok k ↔
    ∃ name, i.label 0 = .ok name ∧ m.labels.target? name = some k := by
  unfold destination
  rw [except_bind_eq_ok]
  have htarget : ∀ name, m.target name = .ok k ↔ m.labels.target? name = some k := fun name => by
    unfold target
    cases m.labels.target? name <;> simp
  simp only [htarget]

theorem effect_of_branch {wanted : Bool} (hop : i.opcode = .jumpIfEq ∨ i.opcode = .jumpIfNeq)
    (h : m.branch i wanted s = .ok flow) : Effect m i s flow s := by
  obtain ⟨name, hname, hrest⟩ := except_bind_eq_ok.1 h
  obtain ⟨equal, -, hflow⟩ := except_bind_eq_ok.1 hrest
  split at hflow
  · obtain ⟨k, hk, hjump⟩ := except_bind_eq_ok.1 hflow
    cases hjump
    exact .jumped (.inr hop) (except_bind_eq_ok.2 ⟨name, hname, hk⟩)
  · cases hflow
    exact .passed (.inr hop)

open IppCode.Action in
/-- **An instruction that succeeds has done what its case says.** -/
theorem effect_of_perform (h : m.perform i s = .ok flow t) : Effect m i s flow t := by
  obtain ⟨opcode, order, args⟩ := i
  cases opcode with
  | move | eq | not | int2char | stri2int | concat | strlen | getchar | setchar | type
  | add | sub | mul | idiv | lt | gt | and | or => exact effect_of_store rfl h
  | createFrame =>
    obtain ⟨frames, hframes, rfl, rfl⟩ := proceed_change_eq_ok.1 h
    cases hframes
    exact .created rfl
  | pushFrame =>
    obtain ⟨frames, hframes, rfl, rfl⟩ := proceed_change_eq_ok.1 h
    exact .framePushed rfl hframes
  | popFrame =>
    obtain ⟨frames, hframes, rfl, rfl⟩ := proceed_change_eq_ok.1 h
    exact .framePopped rfl hframes
  | defVar =>
    obtain ⟨v, hv, hdeclare⟩ := look_bind_eq_ok.1 h
    obtain ⟨frames, hframes, rfl, rfl⟩ := proceed_change_eq_ok.1 hdeclare
    exact .declared rfl hv hframes
  | call =>
    obtain ⟨target, htarget, hpush⟩ := look_bind_eq_ok.1 h
    cases hpush
    exact .called rfl htarget
  | ret =>
    obtain ⟨target, u, hpop, hjump⟩ := bind_eq_ok.1 h
    obtain ⟨calls, hcalls, rfl⟩ := popCall_eq_ok.1 hpop
    cases hjump
    exact .returned rfl (Stack.pop_eq_some.1 hcalls)
  | pushs =>
    obtain ⟨value, hvalue, hpush⟩ := look_bind_eq_ok.1 h
    cases hpush
    exact .pushed rfl hvalue
  | pops => exact effect_of_popTo rfl h
  | read => exact effect_of_readTo rfl h
  | write =>
    obtain ⟨value, -, hsend⟩ := look_bind_eq_ok.1 h
    exact effect_of_send (.inl rfl) hsend
  | dprint =>
    obtain ⟨shown, -, hsend⟩ := look_bind_eq_ok.1 h
    exact effect_of_send (.inr (.inl rfl)) hsend
  | brk =>
    obtain ⟨summary, -, hsend⟩ := look_bind_eq_ok.1 h
    exact effect_of_send (.inr (.inr rfl)) hsend
  | label =>
    cases h
    exact .passed (.inl rfl)
  | jump =>
    obtain ⟨target, htarget, hjump⟩ := look_bind_eq_ok.1 h
    cases hjump
    exact .jumped (.inl rfl) htarget
  | jumpIfEq =>
    obtain ⟨hflow, rfl⟩ := look_eq_ok.1 h
    exact effect_of_branch (.inl rfl) hflow
  | jumpIfNeq =>
    obtain ⟨hflow, rfl⟩ := look_eq_ok.1 h
    exact effect_of_branch (.inr rfl) hflow
  | exit =>
    obtain ⟨code, -, hexit⟩ := look_bind_eq_ok.1 h
    cases hexit
    exact .exited rfl

end Machine

/-! ## Steps -/

/-- The run stands where it stood: at the same instruction, with the same frames, stacks and
unread input. -/
structure State.Stays (s t : State) : Prop where
  ip     : t.ip = s.ip
  frames : t.frames = s.frames
  calls  : t.calls = s.calls
  data   : t.data = s.data
  input  : t.input = s.input

/-- The state in which an instruction is performed: it has been counted. -/
def State.counted (s : State) : State := { s with steps := s.steps + 1 }

namespace Machine

variable {m : Machine} {s t : State} {st : Status}

theorem step_of_perform {i : Instruction} {flow : Flow} {u : State} (hi : m.code[s.ip]? = some i)
    (hlimit : m.exhausted? s = none) (h : m.perform i s.counted = .ok flow u) : m.step s = follow u flow := by
  unfold State.counted at h
  unfold step
  rw [hi, hlimit]
  simp only [h]

theorem step_of_fault {i : Instruction} {fault : Fault} {u : State} (hi : m.code[s.ip]? = some i)
    (hlimit : m.exhausted? s = none) (h : m.perform i s.counted = .error fault u) :
    m.step s = (u, .failed ⟨u.ip, fault⟩) := by
  unfold State.counted at h
  unfold step
  rw [hi, hlimit]
  simp only [h]

theorem performed_of_running (h : (m.step s).2 = .running) : ∃ i flow u, m.code[s.ip]? = some i ∧
    m.exhausted? s = none ∧ m.perform i s.counted = .ok flow u ∧ m.step s = follow u flow := by
  unfold step at h
  split at h
  · cases h
  · rename_i i hi
    split at h
    · cases h
    · rename_i hlimit
      split at h
      · rename_i flow u hperform
        exact ⟨i, flow, u, hi, hlimit, hperform, step_of_perform hi hlimit hperform⟩
      · cases h

/-- **A step leaves the run where it stood, or goes on after an instruction that succeeded.** -/
theorem step_cases (h : m.step s = (t, st)) : (s.Stays t ∧ st ≠ .running) ∨
    st = .running ∧ ∃ i flow u, m.code[s.ip]? = some i ∧ Effect m i s.counted flow u ∧
      follow u flow = (t, .running) := by
  unfold step at h
  split at h
  · cases h
    exact .inl ⟨⟨rfl, rfl, rfl, rfl, rfl⟩, by simp⟩
  · rename_i i hi
    split at h
    · cases h
      exact .inl ⟨⟨rfl, rfl, rfl, rfl, rfl⟩, by simp⟩
    · split at h
      · rename_i flow u hperform
        have heffect := effect_of_perform hperform
        cases flow with
        | exit code =>
          -- Only the operation that ends the program sends it there, and it changes nothing.
          cases heffect
          cases h
          exact .inl ⟨⟨rfl, rfl, rfl, rfl, rfl⟩, by simp⟩
        | next =>
          cases h
          exact .inr ⟨rfl, i, .next, u, hi, heffect, rfl⟩
        | jump target =>
          cases h
          exact .inr ⟨rfl, i, .jump target, u, hi, heffect, rfl⟩
      · rename_i fault u hfault
        cases h
        obtain ⟨log, -, rfl⟩ := m.perform_atomic i _ _ _ hfault
        exact .inl ⟨⟨rfl, rfl, rfl, rfl, rfl⟩, by simp⟩

theorem effect_of_running (h : m.step s = (t, .running)) : ∃ i flow u, m.code[s.ip]? = some i ∧
    Effect m i s.counted flow u ∧ follow u flow = (t, .running) := by
  rcases step_cases h with ⟨-, hne⟩ | ⟨-, hrun⟩
  · exact absurd rfl hne
  · exact hrun

theorem eq_of_follow {flow : Flow} (h : follow s flow = (t, .running)) : t = { s with ip := t.ip } := by
  cases flow <;> cases h <;> rfl

end Machine

end IppCode
