import IppCode.Proofs.Sinks
/-!
# Renumbering — the same program with other order numbers

Once a program is sorted, its order numbers are looked at by one instruction only: a break
shows the number that it has.  So two programs with the same operations and operands at every
place have the same labels, and from the same input they run in lockstep, whatever their order
numbers are; only in the lines that breaks show can these be told apart, and in what a sink
says about such a line when it refuses it (`lockstep_of_renumbered`).
-/
namespace IppCode

open IppCode.Action (InStep Outcomes)

/-! ## Programs -/

/-- The same operation on the same operands, whatever the order number. -/
structure Instruction.Renumbered (i i' : Instruction) : Prop where
  opcode : i'.opcode = i.opcode
  args   : i'.args = i.args

def Program.Renumbered (p p' : Program) : Prop :=
  List.Forall₂ Instruction.Renumbered p.instructions p'.instructions

theorem rel_getElem? {α β : Type} {R : α → β → Prop} {l : List α} {l' : List β} (h : List.Forall₂ R l l') :
    ∀ k : Nat, Option.Rel R l[k]? l'[k]? := by
  induction h with
  | nil => exact fun _ => .none
  | cons hab _ ih =>
    rintro (_ | k)
    · exact .some hab
    · exact ih k

/-- **The label map does not depend on order numbers**, nor does the error if there is none. -/
theorem Labels.collect_renumbered {is is' : List Instruction} (h : List.Forall₂ Instruction.Renumbered is is') :
    ∀ (known : Labels) (k : Nat), collect known k is' = collect known k is := by
  induction h with
  | nil => exact fun _ _ => rfl
  | cons hi _ ih =>
    intro known k
    rw [collect, collect, hi.opcode, hi.args]
    simp only [ih]

theorem Labels.ofProgram_renumbered {p p' : Program} (h : p.Renumbered p') : ofProgram p' = ofProgram p :=
  collect_renumbered h [] 0

/-! ## Diagnostics -/

/-- A line that a break shows, cut where the order number of the instruction stands. -/
def breakLine (ip : Nat) (order : Int) (rest : Text) : Text :=
  "BREAK at instruction " ++ Numeral.ofNat ip ++ " (order " ++ Numeral.ofInt order ++ rest

theorem State.summary_eq (s : State) : ∃ rest, ∀ i, s.summary i = breakLine s.ip i.order rest := by
  -- The rest is what stands behind the number in the definition; comparing both sides finds it.
  apply Exists.intro
  intro i
  unfold summary breakLine
  simp only [List.append_assoc]
  rfl

/-- The same write, up to the order number in the line of a break. -/
inductive Write.Renumbered : Write → Write → Prop
  | same (w : Write) : Renumbered w w
  | order (ip : Nat) (a b : Int) (rest : Text) :
      Renumbered (.diagnostic (breakLine ip a rest)) (.diagnostic (breakLine ip b rest))

theorem Write.Renumbered.alike {w w' : Write} (h : w.Renumbered w') : w.Alike w' := by
  cases h with
  | same w => cases w <;> constructor
  | order => exact .diagnostic _ _

/-- The same writes, up to the order numbers in the lines of breaks. -/
def Log.Renumbered (a b : Log) : Prop := List.Forall₂ Write.Renumbered a b

/-! ## States -/

/-- **The states are the same but for their logs**, of which something else is asked. -/
structure State.SameButLogs (L : Log → Log → Prop) (s t : State) : Prop where
  ip     : s.ip = t.ip
  steps  : s.steps = t.steps
  frames : s.frames = t.frames
  calls  : s.calls = t.calls
  data   : s.data = t.data
  input  : s.input = t.input
  log    : L s.log t.log

namespace State.SameButLogs

variable {L : Log → Log → Prop} {E : Fault → State → Fault → State → Prop} {s t : State}

theorem ofLogs : OfLogs State.SameButLogs where
  log h := h.log
  set_log h hlog := ⟨h.ip, h.steps, h.frames, h.calls, h.data, h.input, hlog⟩

theorem coupling (hE : ∀ s t fault, s.SameButLogs L t → E fault s fault t) : Coupling (State.SameButLogs L) E where
  frames_eq _ _ h := h.frames
  data_eq _ _ h := h.data
  set_frames _ _ _ h := ⟨h.ip, h.steps, rfl, h.calls, h.data, h.input, h.log⟩
  set_data _ _ _ h := ⟨h.ip, h.steps, h.frames, h.calls, rfl, h.input, h.log⟩
  loosen := hE

theorem sameInput : SameInput (State.SameButLogs L) where
  input_eq _ _ h := h.input
  set_input _ _ _ h := ⟨h.ip, h.steps, h.frames, h.calls, h.data, rfl, h.log⟩

theorem abreast : Abreast (State.SameButLogs L) where
  ip_eq _ _ h := h.ip
  steps_eq _ _ h := h.steps
  calls_eq _ _ h := h.calls
  set_ip _ _ _ h := ⟨rfl, h.steps, h.frames, h.calls, h.data, h.input, h.log⟩
  set_calls _ _ _ h := ⟨h.ip, h.steps, h.frames, rfl, h.data, h.input, h.log⟩

theorem counted (h : s.SameButLogs L t) : s.counted.SameButLogs L t.counted :=
  ⟨h.ip, congrArg (· + 1) h.steps, h.frames, h.calls, h.data, h.input, h.log⟩

theorem summary (h : s.SameButLogs L t) (i i' : Instruction) :
    Write.Renumbered (.diagnostic (s.summary i)) (.diagnostic (t.summary i')) := by
  obtain ⟨rest, hrest⟩ := s.summary_eq
  have hsame : t.summary i' = s.summary i' := by
    unfold State.summary
    rw [h.ip, h.steps, h.frames, h.calls, h.data]
  rw [hsame, hrest i, hrest i']
  exact .order _ _ _ _

end State.SameButLogs

/-! ## Runs -/

namespace Machine

variable {m m' : Machine}

/-- **The second machine runs the program of the first one with other order numbers.** -/
structure Renumbers (m m' : Machine) : Prop where
  code    : ∀ k : Nat, Option.Rel Instruction.Renumbered m.code[k]? m'.code[k]?
  labels  : m'.labels = m.labels
  limit   : m'.limit = m.limit
  sink_eq : m'.sink = m.sink
  decides : m.sink.DecidesAlike Write.Renumbered

/-- The states of both runs; if a condition holds, the same lines have been taken in both. -/
def InLockstep (m : Machine) (K : Prop) : State → State → Prop :=
  State.SameButLogs (m.sink.LogsAlike Write.Renumbered K)

/-- The faults of both runs, which may be the words with which the sink has refused a write. -/
def FailInLockstep (m : Machine) (K : Prop) : Fault → State → Fault → State → Prop :=
  FailAlike State.SameButLogs (m.sink.LogsAlike Write.Renumbered K) (m.sink.RefusedAlike Write.Renumbered K)

theorem FailInLockstep.ip_eq {K : Prop} {fault fault' : Fault} {s t : State}
    (h : m.FailInLockstep K fault s fault' t) : s.ip = t.ip := by
  cases h with
  | same _ h => exact h.ip
  | refused _ _ h => exact h.ip

namespace Renumbers

variable (h : Renumbers m m') {K : Prop} {s t : State}

include h

theorem perform {i i' : Instruction} (hi : i.Renumbered i') :
    InStep (m.InLockstep K) (m.FailInLockstep K) Eq (m.perform i) (m'.perform i') := by
  have hsend : ∀ {w w' : Write} {s t : State}, w.Renumbered w' → m.InLockstep K s t →
      Outcomes (m.InLockstep K) (m.FailInLockstep K) Eq (Action.send m.sink w s) (Action.send m'.sink w' t) := by
    intro w w' s t hw hst
    rw [h.sink_eq]
    exact State.SameButLogs.ofLogs.outcomes_send h.decides (fun _ _ hw => hw.alike) hw hst
  exact inStep_perform (State.SameButLogs.coupling fun _ _ fault hst => .same fault hst) hi.opcode hi.args rfl
    (fun _ => rfl) (targetsAgree_of_labels h.labels) State.SameButLogs.abreast.pushCall
    (State.SameButLogs.abreast.popCall fun _ _ fault hst => .same fault hst)
    (fun _ => State.SameButLogs.sameInput.takeValue) (fun v _ _ => hsend (.same (.output v)))
    (fun t _ _ => hsend (.same (.diagnostic t))) fun _ _ hst => hsend (hst.summary i i') hst

/-- **A step of both machines comes to the same**, up to the words of the sink. -/
theorem step (hst : m.InLockstep K s t) :
    StepsAlike (m.InLockstep K) (m.FailInLockstep K) (m.step s) (m'.step t) := by
  refine step_abreast State.SameButLogs.abreast (fun _ _ fault hst => .same fault hst)
    (fun _ _ _ _ hfail => hfail.ip_eq) h.limit hst ?_
  have hcode := h.code s.ip
  rw [← hst.ip]
  generalize m.code[s.ip]? = c at hcode ⊢
  generalize m'.code[s.ip]? = c' at hcode ⊢
  cases hcode with
  | none => exact .none
  | some hi => exact .some fun _ => h.perform hi _ _ hst.counted

/-- The runs stay in lockstep, also behind a write that has been refused: what has been taken is
still the same if the sink keeps it so, or has not refused anything. -/
theorem step_again (hst : m.InLockstep K s t)
    (hkept : K → m.sink.KeepsAlike Write.Renumbered ∨ ¬ (m.step s).2.Refused) :
    (m.step s).2.UpToWords (m'.step t).2 ∧
      (m.sink.SaysAlike Write.Renumbered → (m'.step t).2 = (m.step s).2) ∧
      m.InLockstep K (m.step s).1 (m'.step t).1 := by
  have hboth := h.step hst
  generalize m.step s = r at hboth hkept ⊢
  generalize m'.step t = r' at hboth ⊢
  cases hboth with
  | running h => exact ⟨.same _, fun _ => rfl, h⟩
  | ended how h => exact ⟨.same _, fun _ => rfl, h⟩
  | failed k hfail =>
    cases hfail with
    | same fault h => exact ⟨.same _, fun _ => rfl, h⟩
    | refused why why' h =>
      refine ⟨.refused k why why', fun hsays => by rw [h.log.words hsays], ?_⟩
      refine State.SameButLogs.ofLogs.imp h fun hlog => ⟨hlog.handed, fun hK => hlog.same hK ?_⟩
      exact (hkept hK).resolve_right fun hnot => hnot ⟨k, why, rfl⟩

/-- **After any number of steps the runs are in lockstep.** -/
theorem results (n : Nat) (hst : m.InLockstep K s t)
    (hkept : K → m.sink.KeepsAlike Write.Renumbered ∨ ∀ st ∈ m.results n s, ¬ st.Refused) :
    List.Forall₂ Status.UpToWords (m.results n s) (m'.results n t) ∧
      (m.sink.SaysAlike Write.Renumbered → m'.results n t = m.results n s) ∧
      m.InLockstep K (m.after n s) (m'.after n t) := by
  induction n generalizing s t with
  | zero => exact ⟨.nil, fun _ => rfl, hst⟩
  | succ n ih =>
    obtain ⟨hone, hsays, hnext⟩ := h.step_again hst fun hK =>
      (hkept hK).imp_right fun hnot => hnot _ List.mem_cons_self
    obtain ⟨hall, hsays', hafter⟩ := ih hnext fun hK =>
      (hkept hK).imp_right fun hnot st hst => hnot st (List.mem_cons_of_mem _ hst)
    refine ⟨.cons hone hall, fun hsink => ?_, hafter⟩
    rw [Machine.results, Machine.results, hsays hsink, hsays' hsink]

end Renumbers

theorem renumbers_of_load {p p' : Program} (hp : p.Renumbered p') {limit : Option Nat} {sink : Sink}
    (hsink : sink.DecidesAlike Write.Renumbered) (h : load p limit sink = .ok m) :
    ∃ m', load p' limit sink = .ok m' ∧ Renumbers m m' := by
  obtain ⟨labels, hlabels, rfl⟩ := load_eq_ok.1 h
  have hlabels' : Labels.ofProgram p' = .ok labels := (Labels.ofProgram_renumbered hp).trans hlabels
  refine ⟨_, load_eq_ok.2 ⟨labels, hlabels', rfl⟩, fun k => ?_, rfl, rfl, rfl, hsink⟩
  simp only [List.getElem?_toArray]
  exact rel_getElem? hp k

end Machine

end IppCode
