import IppCode.Proofs.Control
import IppCode.Proofs.Lockstep
import IppCode.Proofs.Writes
/-!
# Silencing — a program without its diagnostics

What the diagnostic instructions show goes to the sink and nowhere else.  So in the place of
each of them may stand a label that nothing names: the label map can be built or fails as
before (`Labels.collect_silenced`), and with sinks that refuse nothing the two programs run in
lockstep for as long as there is something to be shown (`lockstep_of_silenced`).  Whether a sink
keeps the diagnostics makes no difference either.
-/
namespace IppCode

open IppCode.Action (InStep Outcomes)

/-! ## Programs -/

/-- The operations that show something about the run. -/
def Opcode.diagnoses : Opcode → Bool
  | dprint | brk => true
  | _ => false

theorem Opcode.diagnoses_iff {op : Opcode} : op.diagnoses = true ↔ op = .dprint ∨ op = .brk := by
  cases op <;> simp [diagnoses]

namespace Instruction

/-- A label in the place of a diagnostic instruction. -/
def silenced (name : Text) (i : Instruction) : Instruction :=
  if i.opcode.diagnoses then ⟨.label, i.order, [.const (.label name)]⟩ else i

variable {i : Instruction} {name x : Text}

theorem silenced_of_diagnoses (h : i.opcode.diagnoses = true) :
    i.silenced name = ⟨.label, i.order, [.const (.label name)]⟩ :=
  if_pos h

theorem silenced_of_not_diagnoses (h : i.opcode.diagnoses = false) : i.silenced name = i :=
  if_neg (by simp [h])

theorem isLabel_silenced : (i.silenced name).IsLabel x ↔ i.IsLabel x ∨ (i.opcode.diagnoses = true ∧ x = name) := by
  cases h : i.opcode.diagnoses with
  | true =>
    have hop : ¬ i.IsLabel x := fun hdef => by
      rw [hdef.1] at h
      cases h
    rw [silenced_of_diagnoses h]
    constructor
    · rintro ⟨-, hargs⟩
      simp only [List.head?_cons, Option.some.injEq, Operand.const.injEq, Value.label.injEq] at hargs
      exact .inr ⟨rfl, hargs.symm⟩
    · rintro (hdef | ⟨-, rfl⟩)
      · exact absurd hdef hop
      · exact ⟨rfl, rfl⟩
  | false =>
    rw [silenced_of_not_diagnoses h]
    simp

end Instruction

/-- The program with a label in the place of each diagnostic instruction, named after the place. -/
def Program.silenced (p : Program) (name : Nat → Text) : Program :=
  ⟨p.instructions.mapIdx fun k i => i.silenced (name k)⟩

/-- **The names of the new labels are new**: they are different, and no operand has one. -/
structure Spare (name : Nat → Text) (is : List Instruction) : Prop where
  distinct : ∀ (a b : Nat) (i j : Instruction), is[a]? = some i → is[b]? = some j → i.opcode.diagnoses = true →
    j.opcode.diagnoses = true → name a = name b → a = b
  unused   : ∀ (a : Nat) (i : Instruction), is[a]? = some i → i.opcode.diagnoses = true →
    ∀ j ∈ is, Operand.const (.label (name a)) ∉ j.args

theorem Spare.tail {name : Nat → Text} {i : Instruction} {is : List Instruction} (h : Spare name (i :: is)) :
    Spare (fun k => name (k + 1)) is where
  distinct a b i' j ha hb hi hj e := Nat.succ.inj (h.distinct (a + 1) (b + 1) i' j ha hb hi hj e)
  unused a i' ha hi j hj := h.unused (a + 1) i' ha hi j (List.mem_cons_of_mem i hj)

/-! ## Label maps -/

namespace Labels

theorem lookup_cons_ne {x y : Text} (h : x ≠ y) (k : Nat) (known : Labels) :
    List.lookup x ((y, k) :: known) = known.lookup x := by
  have hb : (x == y) = false := by simpa using h
  rw [List.lookup_cons, hb]

/-- **The new labels make no difference to whether the label map can be built**, and if it cannot,
to the error. -/
theorem collect_silenced : ∀ {is : List Instruction} {name : Nat → Text} {known known' : Labels} {k : Nat},
    Spare name is →
    (∀ j ∈ is, ∀ x, Operand.const (.label x) ∈ j.args → known'.lookup x = known.lookup x) →
    (∀ (a : Nat) (i : Instruction), is[a]? = some i → i.opcode.diagnoses = true → known'.lookup (name a) = none) →
    (collect known' k (is.mapIdx fun a i => i.silenced (name a))).map (fun _ => ()) =
      (collect known k is).map fun _ => ()
  | [], _, _, _, _, _, _, _ => rfl
  | i :: is, name, known, known', k, hname, hused, hnew => by
    have hrest : ∀ j ∈ is, ∀ x, Operand.const (.label x) ∈ j.args → known'.lookup x = known.lookup x :=
      fun j hj => hused j (List.mem_cons_of_mem i hj)
    have hnext : ∀ (a : Nat) (j : Instruction), is[a]? = some j → j.opcode.diagnoses = true →
        known'.lookup (name (a + 1)) = none := fun a j ha hj => hnew (a + 1) j ha hj
    rw [List.mapIdx_cons]
    cases hop : i.opcode.diagnoses with
    | true =>
      have hfree : known'.lookup (name 0) = none := hnew 0 i rfl hop
      have hpass : i.opcode ≠ .label := fun e => by
        rw [e] at hop
        cases hop
      rw [Instruction.silenced_of_diagnoses hop, collect, if_pos rfl, collect, if_neg hpass]
      simp only [hfree, Option.isSome_none, Bool.false_eq_true, if_false]
      -- The two maps differ from here on in a name that is looked up in neither.
      refine collect_silenced hname.tail (fun j hj x hx => ?_) fun a j ha hj => ?_
      · have hne : x ≠ name 0 := fun e => hname.unused 0 i rfl hop j (List.mem_cons_of_mem i hj) (e ▸ hx)
        rw [lookup_cons_ne hne]
        exact hrest j hj x hx
      · have hne : name (a + 1) ≠ name 0 := fun e => Nat.succ_ne_zero a (hname.distinct (a + 1) 0 j i ha rfl hj hop e)
        rw [lookup_cons_ne hne]
        exact hnext a j ha hj
    | false =>
      rw [Instruction.silenced_of_not_diagnoses hop, collect, collect]
      split
      · split
        · rename_i x args hargs
          have hx : Operand.const (.label x) ∈ i.args := by
            rw [hargs]
            exact List.mem_cons_self
          rw [hused i List.mem_cons_self x hx]
          split
          · rfl
          · refine collect_silenced hname.tail (fun j hj y hy => ?_) fun a j ha hj => ?_
            · by_cases hyx : y = x
              · subst hyx
                simp
              · rw [lookup_cons_ne hyx, lookup_cons_ne hyx]
                exact hrest j hj y hy
            · have hne : name (a + 1) ≠ x := fun e =>
                hname.unused (a + 1) j ha hj i List.mem_cons_self (e ▸ hx)
              rw [lookup_cons_ne hne]
              exact hnext a j ha hj
        · rfl
      · exact collect_silenced hname.tail hrest hnext

variable {p : Program} {name : Nat → Text}

theorem ofProgram_silenced (h : Spare name p.instructions) :
    (ofProgram (p.silenced name)).map (fun _ => ()) = (ofProgram p).map fun _ => () :=
  collect_silenced h (fun _ _ _ _ => rfl) fun _ _ _ _ => rfl

/-- **A label that an operand names is defined where it was.** -/
theorem target?_silenced {labels labels' : Labels} (hname : Spare name p.instructions)
    (h : ofProgram p = .ok labels) (h' : ofProgram (p.silenced name) = .ok labels') {j : Instruction} {x : Text}
    (hj : j ∈ p.instructions) (hx : Operand.const (.label x) ∈ j.args) : labels'.target? x = labels.target? x := by
  refine Option.ext fun k => ?_
  rw [target?_eq_some h', target?_eq_some h]
  unfold Program.silenced
  simp only [List.getElem?_mapIdx, Option.map_eq_some_iff]
  constructor
  · rintro ⟨_, ⟨i, hi, rfl⟩, hdef⟩
    rcases Instruction.isLabel_silenced.1 hdef with hdef | ⟨hop, rfl⟩
    · exact ⟨i, hi, hdef⟩
    · exact absurd hx (hname.unused k i hi hop j hj)
  · rintro ⟨i, hi, hdef⟩
    exact ⟨_, ⟨i, hi, rfl⟩, Instruction.isLabel_silenced.2 (.inl hdef)⟩

end Labels

/-! ## Sinks and states -/

/-- The sink refuses nothing; it may drop diagnostics. -/
def Sink.NeverRefuses (sink : Sink) : Prop := ∀ log w, sink.refusal? log w = none

theorem Sink.NeverRefuses.write {sink : Sink} (h : sink.NeverRefuses) (w : Write) (log : Log) :
    ∃ log', sink.write w log = .ok () log' ∧ log'.output = log.output ++ Log.outputPart w := by
  have htake : sink.take w log = .ok () (w :: log) := by
    unfold take
    rw [h log w]
  cases w with
  | output t => exact ⟨_, htake, Log.output_cons _ log⟩
  | diagnostic t =>
    cases hkeeps : sink.keepsDiagnostics with
    | true => exact ⟨_, by simp [Sink.write, hkeeps, htake], Log.output_cons _ log⟩
    | false => exact ⟨log, by simp [Sink.write, hkeeps, pure, EStateM.pure], by simp [Log.outputPart]⟩

/-- **The states differ in nothing but the diagnostics that have been written.** -/
structure State.UpToDiagnostics (s t : State) : Prop where
  ip     : s.ip = t.ip
  steps  : s.steps = t.steps
  frames : s.frames = t.frames
  calls  : s.calls = t.calls
  data   : s.data = t.data
  input  : s.input = t.input
  output : s.log.output = t.log.output

namespace State.UpToDiagnostics

variable {s t : State}

theorem refl (s : State) : s.UpToDiagnostics s := ⟨rfl, rfl, rfl, rfl, rfl, rfl, rfl⟩

theorem coupling : Coupling UpToDiagnostics (Action.Same UpToDiagnostics) where
  frames_eq _ _ h := h.frames
  data_eq _ _ h := h.data
  set_frames _ _ _ h := ⟨h.ip, h.steps, rfl, h.calls, h.data, h.input, h.output⟩
  set_data _ _ _ h := ⟨h.ip, h.steps, h.frames, h.calls, rfl, h.input, h.output⟩
  loosen _ _ _ h := ⟨rfl, h⟩

theorem abreast : Abreast UpToDiagnostics where
  ip_eq _ _ h := h.ip
  steps_eq _ _ h := h.steps
  calls_eq _ _ h := h.calls
  set_ip _ _ _ h := ⟨rfl, h.steps, h.frames, h.calls, h.data, h.input, h.output⟩
  set_calls _ _ _ h := ⟨h.ip, h.steps, h.frames, rfl, h.data, h.input, h.output⟩

theorem counted (h : s.UpToDiagnostics t) : s.counted.UpToDiagnostics t.counted :=
  ⟨h.ip, congrArg (· + 1) h.steps, h.frames, h.calls, h.data, h.input, h.output⟩

theorem sameInput : SameInput UpToDiagnostics where
  input_eq _ _ h := h.input
  set_input _ _ _ h := ⟨h.ip, h.steps, h.frames, h.calls, h.data, rfl, h.output⟩

/-- Two writes that are the same but for diagnostics are both taken. -/
theorem inStep_send {sink sink' : Sink} (hsink : sink.NeverRefuses) (hsink' : sink'.NeverRefuses) {w w' : Write}
    (hw : Log.outputPart w = Log.outputPart w') :
    InStep UpToDiagnostics (Action.Same UpToDiagnostics) Eq (Action.send sink w) (Action.send sink' w') := by
  intro s t h
  obtain ⟨log, hlog, hout⟩ := hsink.write w s.log
  obtain ⟨log', hlog', hout'⟩ := hsink'.write w' t.log
  unfold Action.send
  rw [hlog, hlog']
  exact .ok rfl ⟨h.ip, h.steps, h.frames, h.calls, h.data, h.input, by rw [hout, hout', h.output, hw]⟩

end State.UpToDiagnostics

/-! ## Runs -/

namespace Machine

variable {m m' : Machine} {s t : State} {p : Program} {name : Nat → Text} {sink sink' : Sink}

/-- The next step fails at an instruction that prints, and not because of the limit. -/
def FailsAtPrint (m : Machine) (s : State) : Prop :=
  ∃ i e, m.code[s.ip]? = some i ∧ i.opcode = .dprint ∧ m.exhausted? s = none ∧ (m.step s).2 = .failed e

theorem Writing.outputPart_eq_nil {i : Instruction} {w : Write} (h : m.Writing s i w)
    (hop : i.opcode.diagnoses = true) : Log.outputPart w = [] := by
  have hwritten := h.written
  unfold State.written at hwritten
  split at hwritten
  · rename_i hwrite
    rw [hwrite] at hop
    cases hop
  · obtain ⟨t, -, hw⟩ := except_bind_eq_ok.1 hwritten
    cases hw
    rfl
  · cases hwritten
    rfl

/-- An instruction that shows something hands it to the sink, unless it fails before. -/
theorem exists_writing_of_diagnoses {i : Instruction} (hi : m.code[s.ip]? = some i) (hlimit : m.exhausted? s = none)
    (hop : i.opcode.diagnoses = true) (hprint : ¬ m.FailsAtPrint s) : ∃ w, m.Writing s i w := by
  have hwrites : i.opcode.writes = true := by
    rcases Opcode.diagnoses_iff.1 hop with hop | hop <;> rw [hop] <;> rfl
  cases hw : s.counted.written i with
  | ok w => exact ⟨w, hi, hlimit, hwrites, hw⟩
  | error fault =>
    exfalso
    have hperform : m.perform i s.counted = .error fault s.counted := by
      rw [perform_of_writes m _ hwrites, hw]
    have hdprint : i.opcode = .dprint := by
      rcases Opcode.diagnoses_iff.1 hop with hdprint | hbrk
      · exact hdprint
      · unfold State.written at hw
        rw [hbrk] at hw
        cases hw
    exact hprint ⟨i, _, hi, hdprint, hlimit, by rw [step_of_fault hi hlimit hperform]⟩

/-- **The second machine has labels in the place of some diagnostic instructions of the first
one**, and neither has a sink that refuses anything. -/
structure Silences (m m' : Machine) : Prop where
  code   : ∀ k : Nat, Option.Rel (fun i i' => i' = i ∨ i.opcode.diagnoses = true ∧ i'.opcode = .label)
    m.code[k]? m'.code[k]?
  target : ∀ (k : Nat) (i : Instruction) (x : Text), m.code[k]? = some i → i.label 0 = .ok x →
    m'.labels.target? x = m.labels.target? x
  limit  : m'.limit = m.limit
  sink   : m.sink.NeverRefuses
  sink'  : m'.sink.NeverRefuses

namespace Silences

variable (h : Silences m m')

include h

theorem perform {k : Nat} {i : Instruction} (hi : m.code[k]? = some i) :
    InStep State.UpToDiagnostics (Action.Same State.UpToDiagnostics) Eq (m.perform i) (m'.perform i) := by
  have htargets : TargetsAgree m m' Eq i := by
    intro x hx
    unfold Machine.target
    rw [h.target k i x hi hx]
    cases m.labels.target? x with
    | none => exact .error _
    | some b => exact .ok rfl
  have hshow : ∀ t u : Text, InStep State.UpToDiagnostics (Action.Same State.UpToDiagnostics) Eq
      (Action.send m.sink (.diagnostic t)) (Action.send m'.sink (.diagnostic u)) :=
    fun _ _ => State.UpToDiagnostics.inStep_send h.sink h.sink' rfl
  exact inStep_perform State.UpToDiagnostics.coupling rfl rfl rfl (fun _ => rfl) htargets
    State.UpToDiagnostics.abreast.pushCall (State.UpToDiagnostics.abreast.popCall fun _ _ _ h => ⟨rfl, h⟩)
    (fun _ => State.UpToDiagnostics.sameInput.takeValue) (fun _ => State.UpToDiagnostics.inStep_send h.sink h.sink' rfl)
    (fun t => hshow t t) fun s t hst => hshow _ _ s t hst

/-- **An instruction that shows something does nothing that a label does not do.** -/
theorem outcomes_of_writing {i i' : Instruction} {w : Write} (hw : m.Writing s i w) (hop : i.opcode.diagnoses = true)
    (hop' : i'.opcode = .label) (hst : s.UpToDiagnostics t) :
    Outcomes State.UpToDiagnostics (Action.Same State.UpToDiagnostics) Eq (m.perform i s.counted)
      (m'.perform i' t.counted) := by
  obtain ⟨log, hlog, hout⟩ := h.sink.write w s.counted.log
  have hshown : m.perform i s.counted = .ok .next { s.counted with log := log } := by
    have hsend : Action.send m.sink w s.counted = .ok () { s.counted with log := log } :=
      Action.send_eq_ok.2 ⟨log, hlog, rfl⟩
    exact (hw.perform m.sink).trans (Action.proceed_eq_ok.2 ⟨hsend, rfl⟩)
  have hpassed : m'.perform i' t.counted = .ok .next t.counted := by
    unfold Machine.perform
    rw [hop']
    rfl
  have hnothing : Log.outputPart w = [] := hw.outputPart_eq_nil hop
  have hc := hst.counted
  rw [hshown, hpassed]
  refine .ok rfl ⟨hc.ip, hc.steps, hc.frames, hc.calls, hc.data, hc.input, ?_⟩
  rw [hnothing, List.append_nil] at hout
  exact hout.trans hc.output

/-- **A step of both machines comes to the same**, unless the first one fails to print where the
second one has a label. -/
theorem step (hst : s.UpToDiagnostics t) (hprint : m'.code[s.ip]? = m.code[s.ip]? ∨ ¬ m.FailsAtPrint s) :
    (m'.step t).2 = (m.step s).2 ∧ (m.step s).1.UpToDiagnostics (m'.step t).1 := by
  refine step_abreast_same State.UpToDiagnostics.abreast h.limit hst ?_
  have hcode := h.code s.ip
  rw [← hst.ip]
  generalize hi : m.code[s.ip]? = c at hcode ⊢
  rw [hi] at hprint
  generalize m'.code[s.ip]? = c' at hcode hprint ⊢
  cases hcode with
  | none => exact .none
  | some hsame =>
    refine .some fun hlimit => ?_
    rcases hsame with rfl | ⟨hop, hop'⟩
    · exact h.perform hi _ _ hst.counted
    · rcases hprint with hsame | hprint
      · cases hsame
        rw [hop'] at hop
        cases hop
      · obtain ⟨w, hw⟩ := exists_writing_of_diagnoses hi hlimit hop hprint
        exact h.outcomes_of_writing hw hop hop' hst

end Silences

theorem silences_of_load (hname : Spare name p.instructions) {limit : Option Nat} (hsink : sink.NeverRefuses)
    (hsink' : sink'.NeverRefuses) (h : load p limit sink = .ok m) :
    ∃ m', load (p.silenced name) limit sink' = .ok m' ∧ Silences m m' := by
  obtain ⟨labels, hlabels, rfl⟩ := load_eq_ok.1 h
  have hsame := Labels.ofProgram_silenced hname
  rw [hlabels] at hsame
  cases hlabels' : Labels.ofProgram (p.silenced name) with
  | error e =>
    rw [hlabels'] at hsame
    cases hsame
  | ok labels' =>
    refine ⟨_, load_eq_ok.2 ⟨labels', hlabels', rfl⟩, fun k => ?_, fun k i x hi hx => ?_, rfl, hsink, hsink'⟩
    · unfold Program.silenced
      simp only [List.getElem?_toArray, List.getElem?_mapIdx]
      cases p.instructions[k]? with
      | none => exact .none
      | some i =>
        refine .some ?_
        cases hop : i.opcode.diagnoses with
        | true =>
          refine .inr ⟨rfl, ?_⟩
          simp only [Instruction.silenced_of_diagnoses hop]
        | false => exact .inl (Instruction.silenced_of_not_diagnoses hop)
    · have hmem : i ∈ p.instructions := List.mem_of_getElem? (by simpa using hi)
      exact Labels.target?_silenced hname hlabels hlabels' hmem
        (List.mem_of_getElem? (Instruction.label_eq_ok.1 hx))

/-- The same program with another sink. -/
theorem silences_withSink (h : m.sink.NeverRefuses) (hsink : sink.NeverRefuses) : Silences m (m.withSink sink) where
  code k := by
    change Option.Rel _ m.code[k]? m.code[k]?
    cases m.code[k]? with
    | none => exact .none
    | some i => exact .some (.inl rfl)
  target _ _ _ _ _ := rfl
  limit := rfl
  sink := h
  sink' := hsink

/-- **Diagnostics are transparent.**  Put a label with a new name in the place of each instruction
that shows something.  The label map of the program can still be built, or fails with the same
error.  From the same input, under the same limit and with sinks that refuse nothing, the two
programs run in lockstep until the first one fails at an instruction that prints: every step
comes to the same, and after any number of steps positions, step counters, frames, both stacks,
the unread input and the program's output are the same.  And a program runs, with any two such
sinks, in lockstep with itself, be the diagnostics kept or dropped. -/
theorem lockstep_of_silenced (hname : Spare name p.instructions) (hsink : sink.NeverRefuses)
    (hsink' : sink'.NeverRefuses) :
    (Labels.ofProgram (p.silenced name)).map (fun _ => ()) = (Labels.ofProgram p).map (fun _ => ()) ∧
    ∀ limit m, load p limit sink = .ok m →
      (∃ m', load (p.silenced name) limit sink' = .ok m' ∧ ∀ input n,
        (∀ k < n, ¬ m.FailsAtPrint (m.after k (.start input))) →
        m'.results n (.start input) = m.results n (.start input) ∧
        (m.after n (.start input)).UpToDiagnostics (m'.after n (.start input))) ∧
      load p limit sink' = .ok (m.withSink sink') ∧ ∀ input n,
        (m.withSink sink').results n (.start input) = m.results n (.start input) ∧
        (m.after n (.start input)).UpToDiagnostics ((m.withSink sink').after n (.start input)) := by
  refine ⟨Labels.ofProgram_silenced hname, fun limit m hload => ⟨?_, ?_, ?_⟩⟩
  · obtain ⟨m', hload', hm⟩ := silences_of_load hname hsink hsink' hload
    refine ⟨m', hload', fun input n hprint => ?_⟩
    exact results_abreast_while (fun _ _ => hm.step) n (.refl _) fun k hk => .inr (hprint k hk)
  · obtain ⟨labels, hlabels, rfl⟩ := load_eq_ok.1 hload
    exact load_eq_ok.2 ⟨labels, hlabels, rfl⟩
  · intro input n
    have hkept : m.sink.NeverRefuses := by
      obtain ⟨labels, -, rfl⟩ := load_eq_ok.1 hload
      exact hsink
    exact results_abreast_while (fun _ _ => (silences_withSink hkept hsink').step) n (.refl _) fun _ _ => .inl rfl

/-- A label that is jumped to stays; the last instruction prints what is not there. -/
theorem lockstep_of_silenced_prints :
    let p : Program := ⟨[⟨.brk, 1, []⟩, ⟨.jump, 2, [.const (.label "l")]⟩, ⟨.exit, 3, [.const (.int 1)]⟩,
      ⟨.label, 4, [.const (.label "l")]⟩, ⟨.dprint, 5, [.const (.int 7)]⟩, ⟨.write, 6, [.const (.text "a")]⟩,
      ⟨.dprint, 7, [.var ⟨.lf, "x"⟩]⟩]⟩
    let name : Nat → Text := fun k => if k = 0 then "a" else if k = 4 then "b" else "c"
    let m : Machine := ⟨p.instructions.toArray, [("l", 3)], none, .unbounded⟩
    Spare name p.instructions ∧ Sink.unbounded.NeverRefuses ∧ Sink.quiet.NeverRefuses ∧
      load p none .unbounded = .ok m ∧ (∀ k < 5, ¬ m.FailsAtPrint (m.after k (.start .nothing))) ∧
      m.FailsAtPrint (m.after 5 (.start .nothing)) ∧
      ∃ m', load (p.silenced name) none .quiet = .ok m' ∧ m'.results 5 (.start .nothing) = List.replicate 5 .running ∧
        (m.after 5 (.start .nothing)).UpToDiagnostics (m'.after 5 (.start .nothing)) ∧
        (m'.after 5 (.start .nothing)).log.output = "a" := by
  intro p name m
  have hplaces : ∀ k < 7, (p.instructions[k]?).any (fun i => i.opcode.diagnoses) = true → k = 0 ∨ k = 4 ∨ k = 6 := by
    decide
  have hplace : ∀ (a : Nat) (i : Instruction), p.instructions[a]? = some i → i.opcode.diagnoses = true →
      a = 0 ∨ a = 4 ∨ a = 6 := by
    intro a i ha hop
    exact hplaces a (List.getElem?_eq_some_iff.1 ha).1 (by rw [ha]; exact hop)
  have hname : Spare name p.instructions := by
    constructor
    · intro a b i j ha hb hi hj e
      rcases hplace a i ha hi with rfl | rfl | rfl <;> rcases hplace b j hb hj with rfl | rfl | rfl <;>
        first | rfl | cases e
    · intro a i ha hi
      rcases hplace a i ha hi with rfl | rfl | rfl <;> decide
  have hsink : Sink.unbounded.NeverRefuses := fun _ _ => rfl
  have hsink' : Sink.quiet.NeverRefuses := fun _ _ => rfl
  have hprint : ∀ k < 5, ¬ m.FailsAtPrint (m.after k (.start .nothing)) := by
    rintro k hk ⟨i, e, -, -, -, hfails⟩
    have hgoes : ∀ k < 5, (m.step (m.after k (.start .nothing))).2 = .running := by decide +kernel
    rw [hgoes k hk] at hfails
    cases hfails
  have hfails : m.FailsAtPrint (m.after 5 (.start .nothing)) :=
    ⟨⟨.dprint, 7, [.var ⟨.lf, "x"⟩]⟩, ⟨6, .frame .noLocalFrame⟩, by decide +kernel, rfl, rfl, by decide +kernel⟩
  have hload : load p none .unbounded = .ok m := rfl
  obtain ⟨-, hall⟩ := lockstep_of_silenced hname hsink hsink'
  obtain ⟨⟨m', hload', hlockstep⟩, -⟩ := hall none m hload
  obtain ⟨hresults, hafter⟩ := hlockstep .nothing 5 hprint
  refine ⟨hname, hsink, hsink', hload, hprint, hfails, m', hload', hresults.trans ?_, hafter,
    hafter.output.symm.trans ?_⟩
  · decide +kernel
  · decide +kernel

end Machine

end IppCode
