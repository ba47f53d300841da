import IppCode.Proofs.Control
import IppCode.Proofs.Limit
import IppCode.Proofs.Sinks
/-!
# Padding — a label that nothing names

A label put in at a place of a program moves what is at that place or behind it on by one:
instructions, targets of jumps, and the positions at which errors are reported.  An address
to return to is moved only if it is behind the place, so a return may come to the new label.
Between two steps the run of the longer program stands where that of the shorter one stands,
or at the new label in front of it; passing the new label is the only step that it makes more
(`Pads.catchUp`, `Pads.step`), and both come to the same end (`ends_of_padding`).
-/
namespace IppCode

/-! ## Places -/

namespace Padding

variable {k a : Nat}

/-- Where an instruction is when one more has been put in at a place. -/
def shift (k a : Nat) : Nat := if a < k then a else a + 1

/-- Where a run comes to that goes on behind an instruction: if the new one was put in there, to
the new one. -/
def resume (k a : Nat) : Nat := if a ≤ k then a else a + 1

theorem shift_succ (k a : Nat) : shift k a + 1 = resume k (a + 1) := by
  unfold shift resume
  split_ifs <;> omega

theorem resume_eq (k a : Nat) : resume k a = shift k a ∨ (a = k ∧ resume k a = k) := by
  unfold shift resume
  split_ifs <;> omega

theorem shift_self (k : Nat) : shift k k = k + 1 := if_neg (Nat.lt_irrefl k)

end Padding

open Padding (shift resume)
open IppCode.Action (InStep Outcomes)

/-- How the run has come out when the instructions from a place on are counted on by one. -/
def Status.shifted (k : Nat) : Status → Status
  | .running     => .running
  | .ended how   => .ended how
  | .failed why  => .failed { why with position := shift k why.position }

theorem Status.shifted_eq_running {k : Nat} {st : Status} : st.shifted k = .running ↔ st = .running := by
  cases st <;> simp [shifted]

/-- The program with one more instruction at a place. -/
def Program.insert (p : Program) (k : Nat) (l : Instruction) : Program := ⟨p.instructions.insertIdx k l⟩

theorem getElem?_insertIdx_shift {α : Type} {l : List α} {x : α} (k a : Nat) :
    (l.insertIdx k x)[shift k a]? = l[a]? := by
  unfold shift
  split_ifs with h
  · exact List.getElem?_insertIdx_of_lt h
  · exact List.getElem?_insertIdx_of_gt (by omega)

/-- What is found where something has been put in. -/
theorem getElem?_insertIdx_eq_some {α : Type} {l : List α} {x y : α} {k b : Nat}
    (h : (l.insertIdx k x)[b]? = some y) : y = x ∨ ∃ a, b = shift k a ∧ l[a]? = some y := by
  rcases Nat.lt_trichotomy b k with hlt | rfl | hgt
  · refine .inr ⟨b, (if_pos hlt).symm, ?_⟩
    rwa [List.getElem?_insertIdx_of_lt hlt] at h
  · rw [List.getElem?_insertIdx_self] at h
    split at h
    · exact .inl (Option.some.inj h).symm
    · cases h
  · refine .inr ⟨b - 1, ?_, ?_⟩
    · unfold shift
      split_ifs <;> omega
    · rwa [List.getElem?_insertIdx_of_gt hgt] at h

/-! ## Label maps -/

namespace Labels

variable {p : Program} {k : Nat} {l : Instruction} {name : Text}

theorem exists_ofProgram_insert (hk : k ≤ p.instructions.length) (hl : l.IsLabel name)
    (hnew : ∀ i ∈ p.instructions, ¬ i.IsLabel name) (h : ∃ labels, ofProgram p = .ok labels) :
    ∃ labels, ofProgram (p.insert k l) = .ok labels := by
  obtain ⟨hall, hdistinct⟩ := exists_collect_iff.1 h
  refine exists_collect_iff.2 ⟨fun i hi hop => ?_, ?_⟩
  · rcases (List.mem_insertIdx hk).1 hi with rfl | hi
    · exact ⟨name, hl, rfl⟩
    · exact hall i hi hop
  · have hsymm : ∀ {i j : Instruction}, (∀ name, i.IsLabel name → ¬ j.IsLabel name) →
        ∀ name, j.IsLabel name → ¬ i.IsLabel name := fun h name hj hi => h name hi hj
    refine ((List.perm_insertIdx l p.instructions hk).pairwise_iff hsymm).2 (List.pairwise_cons.2 ⟨?_, hdistinct⟩)
    intro j hj other hother
    rw [← hl.unique hother]
    exact hnew j hj

/-- **A label that was defined before is now defined where its definition has got to.** -/
theorem target?_insert {labels labels' : Labels} (h : ofProgram p = .ok labels)
    (h' : ofProgram (p.insert k l) = .ok labels') {x : Text} (hx : ¬ l.IsLabel x) :
    labels'.target? x = (labels.target? x).map (shift k) := by
  refine Option.ext fun b => ?_
  rw [target?_eq_some h', Option.map_eq_some_iff]
  constructor
  · rintro ⟨i, hi, hdef⟩
    rcases getElem?_insertIdx_eq_some hi with rfl | ⟨a, rfl, ha⟩
    · exact absurd hdef hx
    · exact ⟨a, (target?_eq_some h).2 ⟨i, ha, hdef⟩, rfl⟩
  · rintro ⟨a, ha, rfl⟩
    obtain ⟨i, hi, hdef⟩ := (target?_eq_some h).1 ha
    exact ⟨i, (getElem?_insertIdx_shift k a).trans hi, hdef⟩

end Labels

/-! ## States -/

namespace Padding

/-- The states of the two runs, whatever their positions are. -/
structure Related (k : Nat) (L : Log → Log → Prop) (s t : State) : Prop where
  frames : s.frames = t.frames
  data   : s.data = t.data
  input  : s.input = t.input
  calls  : t.calls = s.calls.map (resume k)
  log    : L s.log t.log

/-- The two runs are at the same instruction. -/
def AtSame (k : Nat) (L : Log → Log → Prop) (s t : State) : Prop := Related k L s t ∧ t.ip = shift k s.ip

/-- The two runs go on at the same instruction, the second one possibly after the new label. -/
def GoOn (k : Nat) (L : Log → Log → Prop) (s t : State) : Prop :=
  Related k L s t ∧ (t.ip = shift k s.ip ∨ t.ip = resume k s.ip)

/-- The two runs are sent to the same instruction. -/
inductive SameWay (k : Nat) : Flow → Flow → Prop
  | next : SameWay k .next .next
  | jump (a : Nat) : SameWay k (.jump a) (.jump (shift k a))
  | back (a : Nat) : SameWay k (.jump a) (.jump (resume k a))
  | exit (code : Fin 10) : SameWay k (.exit code) (.exit code)

/-- **The two runs have come to the same**, however their positions, their step counters, the
addresses on their call stacks and the texts of their diagnostics differ.  If the sink has
refused a write, the words of the error are its own, and so is what it has taken of that write. -/
structure SameEnd (k : Nat) (sink : Sink) (s : State) (st : Status) (t : State) (st' : Status) : Prop where
  frames : s.frames = t.frames
  data   : s.data = t.data
  input  : s.input = t.input
  depth  : s.calls.length = t.calls.length
  status : (st.shifted k).UpToWords st'
  words  : sink.SaysAlike Write.Alike → st' = st.shifted k
  output : (st.Refused → sink.KeepsAlike Write.Alike) → s.log.output = t.log.output

variable {k : Nat} {L : Log → Log → Prop} {E : Fault → State → Fault → State → Prop}

theorem ofLogs (k : Nat) : OfLogs (AtSame k) where
  log h := h.1.log
  set_log h hlog := ⟨⟨h.1.frames, h.1.data, h.1.input, h.1.calls, hlog⟩, h.2⟩

theorem coupling (hE : ∀ s t fault, AtSame k L s t → E fault s fault t) : Coupling (AtSame k L) E where
  frames_eq _ _ h := h.1.frames
  data_eq _ _ h := h.1.data
  set_frames _ _ _ h := ⟨⟨rfl, h.1.data, h.1.input, h.1.calls, h.1.log⟩, h.2⟩
  set_data _ _ _ h := ⟨⟨h.1.frames, rfl, h.1.input, h.1.calls, h.1.log⟩, h.2⟩
  loosen := hE

theorem sameInput : SameInput (AtSame k L) where
  input_eq _ _ h := h.1.input
  set_input _ _ _ h := ⟨⟨h.1.frames, h.1.data, rfl, h.1.calls, h.1.log⟩, h.2⟩

theorem inStep_pushCall : InStep (AtSame k L) E (fun _ _ => True) Action.pushCall Action.pushCall := by
  rintro s t ⟨h, hip⟩
  refine .ok trivial ⟨⟨h.frames, h.data, h.input, ?_, h.log⟩, hip⟩
  change (t.ip + 1) :: t.calls = resume k (s.ip + 1) :: s.calls.map (resume k)
  rw [hip, Padding.shift_succ, h.calls]

theorem inStep_popCall (hE : ∀ s t fault, AtSame k L s t → E fault s fault t) :
    InStep (AtSame k L) E (fun a b => SameWay k (.jump a) (.jump b)) Action.popCall Action.popCall := by
  rintro s t ⟨h, hip⟩
  unfold Action.popCall
  rw [h.calls]
  cases hcalls : s.calls with
  | nil => exact .error (hE s t _ ⟨h, hip⟩)
  | cons a calls => exact .ok (.back a) ⟨⟨h.frames, h.data, h.input, rfl, h.log⟩, hip⟩

theorem goOn_of_sameWay {flow flow' : Flow} {s t : State} (h : AtSame k L s t) (hflow : SameWay k flow flow') :
    (Machine.follow t flow').2 = (Machine.follow s flow).2.shifted k ∧
      GoOn k L (Machine.follow s flow).1 (Machine.follow t flow').1 := by
  obtain ⟨⟨hframes, hdata, hinput, hcalls, hlog⟩, hip⟩ := h
  cases hflow with
  | next =>
    refine ⟨rfl, ⟨hframes, hdata, hinput, hcalls, hlog⟩, .inr ?_⟩
    change t.ip + 1 = resume k (s.ip + 1)
    rw [hip, shift_succ]
  | jump a => exact ⟨rfl, ⟨hframes, hdata, hinput, hcalls, hlog⟩, .inl rfl⟩
  | back a => exact ⟨rfl, ⟨hframes, hdata, hinput, hcalls, hlog⟩, .inr rfl⟩
  | exit code => exact ⟨rfl, ⟨hframes, hdata, hinput, hcalls, hlog⟩, .inl hip⟩

section SameEnd

variable {sink : Sink} {s t : State} {st st' : Status}

/-- Related states are the same end if no write has been refused, or the same things have been said. -/
theorem Related.sameEnd (h : Related k (sink.LogsAlike Write.Alike True) s t) (hst : st' = st.shifted k) :
    SameEnd k sink s st t st' where
  frames := h.frames
  data := h.data
  input := h.input
  depth := by rw [h.calls, List.length_map]
  status := hst ▸ .same _
  words _ := hst
  output _ := h.log.output_eq (fun _ _ hw => hw) trivial

/-- Two refusals of the same write are the same end. -/
theorem Related.sameEnd_refused {why why' : Text} {a : Nat}
    (h : Related k (fun log log' => sink.RefusedAlike Write.Alike True why log why' log') s t) :
    SameEnd k sink s (.failed ⟨a, .output why⟩) t (.failed ⟨shift k a, .output why'⟩) where
  frames := h.frames
  data := h.data
  input := h.input
  depth := by rw [h.calls, List.length_map]
  status := .refused _ why why'
  words hsays := by
    rw [h.log.words hsays]
    rfl
  output hkeeps :=
    Log.output_eq_of_forall₂ (fun _ _ hw => hw.outputPart_eq) (h.log.same trivial (hkeeps ⟨a, why, rfl⟩))

theorem SameEnd.running_iff (h : SameEnd k sink s st t st') : st = .running ↔ st' = .running :=
  Status.shifted_eq_running.symm.trans h.status.running_iff

end SameEnd

end Padding

/-! ## Runs -/

namespace Machine

open Padding

variable {m m' : Machine} {k : Nat} {s s' t : State} {st : Status}

/-- **The second machine runs the program of the first one with a label put in at a place**, and
no instruction of the first one names that label. -/
structure Pads (m : Machine) (k : Nat) (m' : Machine) : Prop where
  code    : ∀ a, m'.code[shift k a]? = m.code[a]?
  label   : ∃ l, m'.code[k]? = some l ∧ l.opcode = .label
  target  : ∀ (a : Nat) (i : Instruction) (name : Text), m.code[a]? = some i → i.label 0 = .ok name →
    m'.labels.target? name = (m.labels.target? name).map (shift k)
  limit   : m.limit = none
  limit'  : m'.limit = none
  sink_eq : m'.sink = m.sink
  decides : m.sink.DecidesAlike Write.Alike

/-- What the two runs have been handed to the sink is the same, up to the texts of diagnostics. -/
abbrev SameLogs (m : Machine) : Log → Log → Prop := m.sink.LogsAlike Write.Alike True

/-- The two runs have failed at the same instruction. -/
abbrev FailAtSame (m : Machine) (k : Nat) : Fault → State → Fault → State → Prop :=
  FailAlike (AtSame k) m.SameLogs (m.sink.RefusedAlike Write.Alike True)

theorem FailAtSame.sameEnd {fault fault' : Fault} (h : m.FailAtSame k fault s fault' t) :
    SameEnd k m.sink s (.failed ⟨s.ip, fault⟩) t (.failed ⟨t.ip, fault'⟩) := by
  cases h with
  | same _ h => exact h.1.sameEnd (by rw [h.2]; rfl)
  | refused _ _ h =>
    rw [h.2]
    exact h.1.sameEnd_refused

namespace Pads

variable (h : Pads m k m')

include h

theorem perform {a : Nat} {i : Instruction} (hi : m.code[a]? = some i) :
    InStep (AtSame k m.SameLogs) (m.FailAtSame k) (SameWay k) (m.perform i) (m'.perform i) := by
  have htargets : TargetsAgree m m' (SameWay k) i := by
    intro name hname
    unfold Machine.target
    rw [h.target a i name hi hname]
    cases m.labels.target? name with
    | none => exact .error _
    | some b => exact .ok (.jump b)
  have hsend : ∀ {w w' : Write}, w.Alike w' →
      InStep (AtSame k m.SameLogs) (m.FailAtSame k) Eq (Action.send m.sink w) (Action.send m'.sink w') := by
    intro w w' hw s t hst
    rw [h.sink_eq]
    exact (ofLogs k).outcomes_send h.decides (fun _ _ hw => hw) hw hst
  exact inStep_perform (coupling fun _ _ fault hst => .same fault hst) rfl rfl .next .exit htargets inStep_pushCall
    (inStep_popCall fun _ _ fault hst => .same fault hst) (fun _ => sameInput.takeValue)
    (fun v => hsend (.output v)) (fun t => hsend (.diagnostic t t)) fun s t hst => hsend (.diagnostic _ _) s t hst

/-- **The same instruction comes to the same.** -/
theorem step (hst : AtSame k m.SameLogs s t) :
    SameEnd k m.sink (m.step s).1 (m.step s).2 (m'.step t).1 (m'.step t).2 ∧
      ((m.step s).2 = .running → GoOn k m.SameLogs (m.step s).1 (m'.step t).1) := by
  have hip : m'.code[t.ip]? = m.code[s.ip]? := by rw [hst.2, h.code]
  cases hi : m.code[s.ip]? with
  | none =>
    rw [step_past_end hi, step_past_end (hip.trans hi)]
    exact ⟨hst.1.sameEnd rfl, nofun⟩
  | some i =>
    have hcounted : AtSame k m.SameLogs s.counted t.counted :=
      ⟨⟨hst.1.frames, hst.1.data, hst.1.input, hst.1.calls, hst.1.log⟩, hst.2⟩
    have hboth := h.perform hi _ _ hcounted
    unfold State.counted at hboth
    unfold Machine.step
    rw [hip, hi, exhausted_eq_none h.limit, exhausted_eq_none h.limit']
    simp only
    generalize m.perform i { s with steps := s.steps + 1 } = r at hboth ⊢
    generalize m'.perform i { t with steps := t.steps + 1 } = r' at hboth ⊢
    cases hboth with
    | ok hflow hst' =>
      obtain ⟨hstatus, hgoOn⟩ := goOn_of_sameWay hst' hflow
      exact ⟨hgoOn.1.sameEnd hstatus, fun _ => hgoOn⟩
    | error hfail => exact ⟨hfail.sameEnd, nofun⟩

/-- **In front of the new label the second run makes a step of its own.** -/
theorem catchUp (hst : GoOn k m.SameLogs s t) : ∃ j u, m'.run j t = (u, .running) ∧ AtSame k m.SameLogs s u := by
  obtain ⟨hrel, hip⟩ := hst
  rcases hip with hip | hip
  · exact ⟨0, t, rfl, hrel, hip⟩
  · rcases resume_eq k s.ip with heq | ⟨hs, heq⟩
    · exact ⟨0, t, rfl, hrel, hip.trans heq⟩
    · obtain ⟨l, hl, hop⟩ := h.label
      have hstep : m'.step t = ({ t with ip := t.ip + 1, steps := t.steps + 1 }, .running) := by
        unfold Machine.step Machine.perform
        rw [hip, heq, hl, exhausted_eq_none h.limit']
        simp only [hop]
        rfl
      refine ⟨1, _, (run_one m' t).trans hstep, ⟨hrel.frames, hrel.data, hrel.input, hrel.calls, hrel.log⟩, ?_⟩
      change t.ip + 1 = shift k s.ip
      rw [hip, heq, hs, shift_self]

/-- **After as many steps of the first run, and some more of the second, both have come to the
same.** -/
theorem run {n : Nat} (hst : GoOn k m.SameLogs s t) (hrun : m.run n s = (s', st)) :
    ∃ j t' st', n ≤ j ∧ m'.run j t = (t', st') ∧ SameEnd k m.sink s' st t' st' := by
  induction n generalizing s t with
  | zero =>
    cases hrun
    exact ⟨0, t, .running, Nat.le_refl 0, rfl, hst.1.sameEnd rfl⟩
  | succ n ih =>
    obtain ⟨j, u, hj, hsame⟩ := h.catchUp hst
    obtain ⟨hend, hgoOn⟩ := h.step hsame
    obtain ⟨⟨v, st'⟩, hv⟩ : ∃ r, m'.step u = r := ⟨_, rfl⟩
    rw [hv] at hend hgoOn
    rcases run_cases hrun with ⟨w, hw, hrest⟩ | ⟨hw, hne⟩
    · rw [hw] at hend hgoOn
      obtain ⟨j', t', st'', hle, hj', hend'⟩ := ih (hgoOn rfl) hrest
      cases hend.running_iff.1 rfl
      refine ⟨j + (j' + 1), t', st'', by omega, ?_, hend'⟩
      rw [run_add (j' + 1) hj, run_of_running j' hv, hj']
    · rw [hw] at hend
      refine ⟨j + (n + 1), v, st', by omega, ?_, hend⟩
      rw [run_add (n + 1) hj, run_of_done n hv fun hrunning => hne (hend.running_iff.2 hrunning)]

theorem ends (hst : GoOn k m.SameLogs s t) :
    (∀ s' st, m.Ends s s' st → ∃ t' st', m'.Ends t t' st' ∧ SameEnd k m.sink s' st t' st') ∧
    ∀ t' st', m'.Ends t t' st' → ∃ s' st, m.Ends s s' st ∧ SameEnd k m.sink s' st t' st' := by
  constructor
  · rintro s' st ⟨n, hn, hne⟩
    obtain ⟨j, t', st', -, hj, hend⟩ := h.run hst hn
    exact ⟨t', st', ⟨j, hj, fun hrunning => hne (hend.running_iff.2 hrunning)⟩, hend⟩
  · rintro t' st' ⟨n, hn, hne⟩
    obtain ⟨⟨s', st⟩, hs⟩ : ∃ r, m.run n s = r := ⟨_, rfl⟩
    obtain ⟨j, u, st'', hle, hj, hend⟩ := h.run hst hs
    -- The second run has ended by then, and so has the first.
    rw [run_of_le hle hn hne] at hj
    cases hj
    exact ⟨s', st, ⟨n, hs, fun hrunning => hne (hend.running_iff.1 hrunning)⟩, hend⟩

end Pads

theorem pads_of_load {p : Program} {l : Instruction} {name : Text} {sink : Sink}
    (hk : k ≤ p.instructions.length) (hl : l.IsLabel name)
    (hnew : ∀ i ∈ p.instructions, Operand.const (.label name) ∉ i.args)
    (hsink : sink.DecidesAlike Write.Alike) (h : load p none sink = .ok m) :
    ∃ m', load (p.insert k l) none sink = .ok m' ∧ Pads m k m' := by
  obtain ⟨labels, hlabels, rfl⟩ := load_eq_ok.1 h
  have hfree : ∀ i ∈ p.instructions, ¬ i.IsLabel name := fun i hi hdef =>
    hnew i hi (List.mem_of_mem_head? hdef.2)
  obtain ⟨labels', hlabels'⟩ := Labels.exists_ofProgram_insert hk hl hfree ⟨labels, hlabels⟩
  refine ⟨_, load_eq_ok.2 ⟨labels', hlabels', rfl⟩, ?_, ⟨l, ?_, hl.1⟩, ?_, rfl, rfl, rfl, hsink⟩
  · intro a
    simp only [List.getElem?_toArray]
    exact getElem?_insertIdx_shift k a
  · simp only [List.getElem?_toArray]
    exact List.getElem?_insertIdx_self.trans (if_pos hk)
  · intro a i x hi hx
    have hmem : i ∈ p.instructions := List.mem_of_getElem? (by simpa using hi)
    have harg : Operand.const (.label x) ∈ i.args := List.mem_of_getElem? (Instruction.label_eq_ok.1 hx)
    refine Labels.target?_insert hlabels hlabels' fun hdef => hnew i hmem ?_
    rwa [hl.unique hdef]

end Machine

end IppCode
