import IppCode.Proofs.Effects
import IppCode.Proofs.Labels
/-!
# Control — where a run can be

A step that goes on takes the run to the next instruction, to the label that its instruction
names, or back to the latest address on the call stack (`moves_of_step`).  From this alone a
run never leaves its program, and every address that waits on the call stack is the one
after a call (`within_step`, `control_of_load`).
-/
namespace IppCode

theorem Opcode.transfersControl_of_computes {op : Opcode} (h : op.computes = true) :
    op.transfersControl = false := by
  cases op <;> first | rfl | cases h

theorem Instruction.label_eq_ok {i : Instruction} {k : Nat} {name : Text} :
    i.label k = .ok name ↔ i.args[k]? = some (.const (.label name)) := by
  unfold label
  split
  · rename_i name' h
    simp [h]
  · rename_i hno
    simp only [reduceCtorEq, false_iff]
    exact hno name

namespace Program

variable {p : Program} {s t : State}

/-- **Where an instruction takes the run**, and what it does to the call stack. -/
inductive Moves (p : Program) (i : Instruction) (s t : State) : Prop
  | on (hop : i.opcode.transfersControl = false ∨ i.opcode = .jumpIfEq ∨ i.opcode = .jumpIfNeq)
      (hip : t.ip = s.ip + 1) (hcalls : t.calls = s.calls)
  | jump {name : Text} {l : Instruction} (hop : i.opcode = .jump ∨ i.opcode = .jumpIfEq ∨ i.opcode = .jumpIfNeq)
      (hname : i.args[0]? = some (.const (.label name))) (hl : p.instructions[t.ip]? = some l)
      (hdef : l.IsLabel name) (hcalls : t.calls = s.calls)
  | call {name : Text} {l : Instruction} (hop : i.opcode = .call)
      (hname : i.args[0]? = some (.const (.label name))) (hl : p.instructions[t.ip]? = some l)
      (hdef : l.IsLabel name) (hcalls : t.calls = (s.ip + 1) :: s.calls)
  | back (hop : i.opcode = .ret) (hcalls : s.calls = t.ip :: t.calls)

/-- The instruction before the position is a call. -/
def AfterCall (p : Program) (a : Nat) : Prop :=
  1 ≤ a ∧ a ≤ p.instructions.length ∧ ∃ i, p.instructions[a - 1]? = some i ∧ i.opcode = .call

/-- **The run is in its program**, at an instruction or right after the last one, and so it
will be after every return that is still to come. -/
structure Within (p : Program) (s : State) : Prop where
  ip_le     : s.ip ≤ p.instructions.length
  afterCall : ∀ a ∈ s.calls, p.AfterCall a

theorem lt_length_of_getElem? {i : Instruction} {k : Nat} (h : p.instructions[k]? = some i) :
    k < p.instructions.length :=
  (List.getElem?_eq_some_iff.1 h).1

theorem Within.start (p : Program) (input : Input) : p.Within (.start input) :=
  ⟨Nat.zero_le _, fun _ h => absurd h List.not_mem_nil⟩

/-- The move of an instruction stays in the program. -/
theorem Within.moves {i : Instruction} (h : p.Within s) (hi : p.instructions[s.ip]? = some i)
    (hmove : p.Moves i s t) : p.Within t := by
  have hlt : s.ip < p.instructions.length := lt_length_of_getElem? hi
  cases hmove with
  | on _ hip hcalls => exact ⟨by omega, by rw [hcalls]; exact h.afterCall⟩
  | jump _ _ hl _ hcalls =>
    exact ⟨Nat.le_of_lt (lt_length_of_getElem? hl), by rw [hcalls]; exact h.afterCall⟩
  | call hop _ hl _ hcalls =>
    have hnew : p.AfterCall (s.ip + 1) := ⟨by omega, by omega, i, hi, hop⟩
    refine ⟨Nat.le_of_lt (lt_length_of_getElem? hl), fun a ha => ?_⟩
    rw [hcalls] at ha
    rcases List.mem_cons.1 ha with rfl | ha
    · exact hnew
    · exact h.afterCall a ha
  | back _ hcalls =>
    have hmem : ∀ a ∈ t.ip :: t.calls, p.AfterCall a := by rw [← hcalls]; exact h.afterCall
    exact ⟨(hmem t.ip List.mem_cons_self).2.1, fun a ha => hmem a (List.mem_cons_of_mem _ ha)⟩

end Program

namespace Machine

variable {p : Program} {limit : Option Nat} {sink : Sink} {m : Machine} {s t : State} {st : Status}

theorem code_of_load (h : load p limit sink = .ok m) (k : Nat) : m.code[k]? = p.instructions[k]? := by
  obtain ⟨labels, -, rfl⟩ := load_eq_ok.1 h
  exact List.getElem?_toArray

theorem defines_of_destination (h : load p limit sink = .ok m) {i : Instruction} {k : Nat}
    (hk : m.destination i = .ok k) :
    ∃ name l, i.args[0]? = some (.const (.label name)) ∧ p.instructions[k]? = some l ∧ l.IsLabel name := by
  obtain ⟨labels, hlabels, rfl⟩ := load_eq_ok.1 h
  obtain ⟨name, hname, hlookup⟩ := destination_eq_ok.1 hk
  obtain ⟨l, hl, hdef⟩ := (Labels.target?_eq_some hlabels).1 hlookup
  exact ⟨name, l, Instruction.label_eq_ok.1 hname, hl, hdef⟩

/-- **A step that goes on moves the run as its instruction says.** -/
theorem moves_of_step (h : load p limit sink = .ok m) (hstep : m.step s = (t, .running)) :
    ∃ i, p.instructions[s.ip]? = some i ∧ p.Moves i s t := by
  obtain ⟨i, flow, u, hi, heffect, hfollow⟩ := effect_of_running hstep
  refine ⟨i, by rw [← code_of_load h, hi], ?_⟩
  cases heffect with
  | assigned hop =>
    cases hfollow
    exact .on (.inl (Opcode.transfersControl_of_computes hop)) rfl rfl
  | popped hop | read hop | declared hop | created hop | framePushed hop | framePopped hop | pushed hop =>
    cases hfollow
    exact .on (.inl (by rw [hop]; rfl)) rfl rfl
  | sent hop =>
    cases hfollow
    refine .on (.inl ?_) rfl rfl
    rcases hop with hop | hop | hop <;> rw [hop] <;> rfl
  | passed hop =>
    cases hfollow
    exact .on (hop.imp_left fun hop => by rw [hop]; rfl) rfl rfl
  | jumped hop htarget =>
    cases hfollow
    obtain ⟨name, l, hname, hl, hdef⟩ := defines_of_destination h htarget
    exact .jump hop hname hl hdef rfl
  | called hop htarget =>
    cases hfollow
    obtain ⟨name, l, hname, hl, hdef⟩ := defines_of_destination h htarget
    exact .call hop hname hl hdef rfl
  | returned hop hcalls =>
    cases hfollow
    exact .back hop hcalls
  | exited => cases hfollow

/-- A step keeps the run in its program, whatever it comes to. -/
theorem within_step (h : load p limit sink = .ok m) (hs : p.Within s) : p.Within (m.step s).1 := by
  rcases hstep : m.step s with ⟨t, st⟩
  rcases step_cases hstep with ⟨hstays, -⟩ | ⟨rfl, -⟩
  · exact ⟨by rw [hstays.ip]; exact hs.ip_le, by rw [hstays.calls]; exact hs.afterCall⟩
  · obtain ⟨i, hi, hmove⟩ := moves_of_step h hstep
    exact hs.moves hi hmove

theorem within_after (h : load p limit sink = .ok m) (n : Nat) {s : State} (hs : p.Within s) : p.Within (m.after n s) :=
  after_of_step (fun _ => within_step h) n hs

/-- **A run never leaves its program.**  Wherever it stands, after any number of steps and
also after one that has failed, its position is that of an instruction or the one after the
last, and every address on the call stack is the one after a call.  A step that goes on
takes it to the next instruction, to a definition of the label that the instruction names,
or, if that returns, to the address on top of the call stack, which it takes off. -/
theorem control_of_load (h : load p limit sink = .ok m) :
    (∀ input n, p.Within (m.after n (.start input))) ∧
    ∀ s t, m.step s = (t, .running) → ∃ i, p.instructions[s.ip]? = some i ∧ p.Moves i s t :=
  ⟨fun input n => within_after h n (.start p input), fun _ _ hstep => moves_of_step h hstep⟩

/-- A call that is the last instruction returns to the position after it. -/
theorem control_of_last_call :
    let p : Program := ⟨[⟨.jump, 1, [.const (.label "main")]⟩, ⟨.label, 2, [.const (.label "f")]⟩,
      ⟨.ret, 3, []⟩, ⟨.label, 4, [.const (.label "main")]⟩, ⟨.call, 5, [.const (.label "f")]⟩]⟩
    let m : Machine := ⟨p.instructions.toArray, [("main", 3), ("f", 1)], none, .quiet⟩
    let s : State := m.after 4 (.start .nothing)
    load p none .quiet = .ok m ∧ p.Within s ∧ s.calls = [5] ∧
      ∃ t i, m.step s = (t, .running) ∧ p.Moves i s t ∧ t.ip = 5 ∧ t.calls = [] := by
  intro p m s
  have h : load p none .quiet = .ok m := rfl
  obtain ⟨hwithin, hmoves⟩ := control_of_load h
  have hcalls : s.calls = [5] := by decide +kernel
  have hstep : m.step s = ({ State.start .nothing with ip := 5, steps := 5 }, .running) := rfl
  obtain ⟨i, -, hmove⟩ := hmoves _ _ hstep
  exact ⟨h, hwithin .nothing 4, hcalls, _, i, hstep, hmove, rfl, rfl⟩

end Machine

end IppCode
