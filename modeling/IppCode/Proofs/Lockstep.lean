import Mathlib.Data.List.Forall2
import IppCode.Proofs.Effects
import IppCode.Proofs.Runs
/-!
# Lockstep — the same instruction in two runs

Two actions are in step for a relation between states if from related states both succeed, with
related results and in related states, or both fail, with related faults (`InStep`).  What an
instruction looks at are its operands and the frames.  So two machines perform the same
instruction in step, whatever else their states differ in, if they do so with the few actions
that touch the rest: the data stack, the call stack, the input and the sink
(`inStep_perform`).  Two runs that are always at the same place stay together while the
instructions before them come to the same (`step_abreast`, `results_abreast_while`).
-/
namespace IppCode

variable {α β γ δ : Type}

/-! ## What is looked at -/

/-- Both are values that stand in a relation, or both are the same fault. -/
inductive Agree (V : α → β → Prop) : Except Fault α → Except Fault β → Prop
  | ok {a : α} {b : β} (h : V a b) : Agree V (.ok a) (.ok b)
  | error (fault : Fault) : Agree V (.error fault) (.error fault)

namespace Agree

variable {V : α → β → Prop} {W : γ → δ → Prop}

theorem refl : ∀ x : Except Fault α, Agree Eq x x
  | .ok _        => .ok rfl
  | .error fault => .error fault

theorem self : ∀ x : Except Fault α, Agree (fun a b => a = b ∧ x = .ok a) x x
  | .ok _        => .ok ⟨rfl, rfl⟩
  | .error fault => .error fault

theorem bind {x : Except Fault α} {y : Except Fault β} {f : α → Except Fault γ} {g : β → Except Fault δ}
    (h : Agree V x y) (hf : ∀ a b, x = .ok a → V a b → Agree W (f a) (g b)) : Agree W (x >>= f) (y >>= g) := by
  cases h with
  | ok hab => exact hf _ _ rfl hab
  | error fault => exact .error fault

end Agree

/-- A state of which nothing but the frames is known. -/
def State.ofFrames (fs : Frames) : State := { State.start .nothing with frames := fs }

/-- The two see the same in any two states with the same frames. -/
def SeesFrames (f g : State → Except Fault α) : Prop :=
  ∀ s : State, f s = f (.ofFrames s.frames) ∧ g s = f (.ofFrames s.frames)

theorem SeesFrames.eq {f g : State → Except Fault α} (h : SeesFrames f g) {s t : State} (he : s.frames = t.frames) :
    f s = g t := by
  rw [(h s).1, (h t).2, he]

/-! ## Actions -/

namespace Action

variable {R : State → State → Prop} {E : Fault → State → Fault → State → Prop}

/-- Both results are successes that are related in value and state, or both are errors that are
related with the states in which they leave. -/
inductive Outcomes {ε σ : Type} (R : σ → σ → Prop) (E : ε → σ → ε → σ → Prop) (V : α → β → Prop) :
    EStateM.Result ε σ α → EStateM.Result ε σ β → Prop
  | ok {a : α} {b : β} {s t : σ} (hab : V a b) (h : R s t) : Outcomes R E V (.ok a s) (.ok b t)
  | error {e e' : ε} {s t : σ} (h : E e s e' t) : Outcomes R E V (.error e s) (.error e' t)

/-- The same error, in related states. -/
def Same {ε σ : Type} (R : σ → σ → Prop) (e : ε) (s : σ) (e' : ε) (t : σ) : Prop := e = e' ∧ R s t

/-- **From related states the two actions come to the same**, up to the relations. -/
def InStep (R : State → State → Prop) (E : Fault → State → Fault → State → Prop) (V : α → β → Prop)
    (x : Action α) (y : Action β) : Prop :=
  ∀ s t, R s t → Outcomes R E V (x s) (y t)

/-- What comes after two actions need only come to the same where these have got to. -/
theorem Outcomes.bind {V : α → β → Prop} {W : γ → δ → Prop} {R' : State → State → Prop} {x : Action α} {y : Action β}
    {f : α → Action γ} {g : β → Action δ} {s t : State} (h : Outcomes R E V (x s) (y t))
    (hf : ∀ a b s' t', V a b → R s' t' → Outcomes R' E W (f a s') (g b t')) :
    Outcomes R' E W ((x >>= f) s) ((y >>= g) t) := by
  change Outcomes R' E W (EStateM.bind x f s) (EStateM.bind y g t)
  unfold EStateM.bind
  generalize x s = r at h ⊢
  generalize y t = r' at h ⊢
  cases h with
  | ok hab hst => exact hf _ _ _ _ hab hst
  | error hst => exact .error hst

/-- Looking leaves both states as they are. -/
theorem Outcomes.look {V : α → β → Prop} {f : State → Except Fault α} {g : State → Except Fault β} {s t : State}
    (hE : ∀ fault, E fault s fault t) (h : Agree V (f s) (g t)) :
    Outcomes (fun s' t' => s = s' ∧ t = t') E V (look f s) (look g t) := by
  unfold Action.look
  generalize f s = r at h ⊢
  generalize g t = r' at h ⊢
  cases h with
  | ok hab => exact .ok hab ⟨rfl, rfl⟩
  | error fault => exact .error (hE fault)

theorem Outcomes.imp {V : α → β → Prop} {R' : State → State → Prop} {r : EStateM.Result Fault State α}
    {r' : EStateM.Result Fault State β} (h : Outcomes R E V r r') (hR : ∀ s t, R s t → R' s t) : Outcomes R' E V r r' := by
  cases h with
  | ok hab hst => exact .ok hab (hR _ _ hst)
  | error hst => exact .error hst

namespace InStep

variable {V : α → β → Prop} {W : γ → δ → Prop}

theorem pure {a : α} {b : β} (h : V a b) : InStep R E V (Pure.pure a) (Pure.pure b) :=
  fun _ _ hst => .ok h hst

theorem bind {x : Action α} {y : Action β} {f : α → Action γ} {g : β → Action δ} (hx : InStep R E V x y)
    (hf : ∀ a b, V a b → InStep R E W (f a) (g b)) : InStep R E W (x >>= f) (y >>= g) := by
  intro s t h
  exact (hx s t h).bind fun a b s' t' hab h' => hf a b hab s' t' h'

theorem look {f : State → Except Fault α} {g : State → Except Fault β}
    (hE : ∀ s t fault, R s t → E fault s fault t) (h : ∀ s t, R s t → Agree V (f s) (g t)) :
    InStep R E V (look f) (look g) := by
  intro s t hst
  refine (Outcomes.look (fun fault => hE s t fault hst) (h s t hst)).imp ?_
  rintro _ _ ⟨rfl, rfl⟩
  exact hst

end InStep

end Action

/-! ## Sinks -/

open IppCode.Action (InStep Outcomes)

section Sinks

theorem Log.output_cons (w : Write) (log : Log) : Log.output (w :: log) = log.output ++ outputPart w := by
  simp [Log.output]

theorem Log.output_eq_of_forall₂ {W : Write → Write → Prop} (hW : ∀ w w', W w w' → outputPart w = outputPart w')
    {a b : Log} (h : List.Forall₂ W a b) : a.output = b.output := by
  induction h with
  | nil => rfl
  | cons hw _ ih => rw [output_cons, output_cons, ih, hW _ _ hw]

/-- What is sent comes out as the two sinks make it come out. -/
theorem Action.outcomes_send {R : State → State → Prop} {E : Fault → State → Fault → State → Prop}
    {L : Log → Log → Prop} {X : Text → Log → Text → Log → Prop} {sink sink' : Sink} {s t : State} {w w' : Write}
    (h : Outcomes L X Eq (sink.write w s.log) (sink'.write w' t.log))
    (hR : ∀ log log', L log log' → R { s with log := log } { t with log := log' })
    (hE : ∀ why log why' log', X why log why' log' →
      E (.output why) { s with log := log } (.output why') { t with log := log' }) :
    Outcomes R E Eq (send sink w s) (send sink' w' t) := by
  unfold send
  generalize sink.write w s.log = r at h ⊢
  generalize sink'.write w' t.log = r' at h ⊢
  cases h with
  | ok _ hlog => exact .ok rfl (hR _ _ hlog)
  | error hlog => exact .error (hE _ _ _ _ hlog)

end Sinks

/-! ## Instructions -/

/-- **States that an instruction cannot tell apart**: they have the same frames and the same data
stack, and are still related when both change alike.  After a fault they may be related more
loosely. -/
structure Coupling (R : State → State → Prop) (E : Fault → State → Fault → State → Prop) : Prop where
  frames_eq  : ∀ s t, R s t → s.frames = t.frames
  data_eq    : ∀ s t, R s t → s.data = t.data
  set_frames : ∀ s t fs, R s t → R { s with frames := fs } { t with frames := fs }
  set_data   : ∀ s t data, R s t → R { s with data := data } { t with data := data }
  loosen     : ∀ s t fault, R s t → E fault s fault t

/-- States that have the same input, and are still related when both go on with another one. -/
structure SameInput (R : State → State → Prop) : Prop where
  input_eq  : ∀ s t, R s t → s.input = t.input
  set_input : ∀ s t input, R s t → R { s with input := input } { t with input := input }

theorem SameInput.takeValue {R : State → State → Prop} {E : Fault → State → Fault → State → Prop} (hR : SameInput R)
    (n : TypeName) : InStep R E Eq (Action.takeValue n) (Action.takeValue n) := by
  intro s t h
  unfold Action.takeValue
  rw [← hR.input_eq s t h]
  exact .ok rfl (hR.set_input s t _ h)

namespace Coupling

variable {R : State → State → Prop} {E : Fault → State → Fault → State → Prop} {F : Flow → Flow → Prop}
  (hR : Coupling R E)

include hR

theorem look {f g : State → Except Fault α} (h : SeesFrames f g) : InStep R E Eq (Action.look f) (Action.look g) :=
  .look hR.loosen fun s t hst => by
    rw [h.eq (hR.frames_eq s t hst)]
    exact .refl _

theorem change (c : Frames.Change α) : InStep R E Eq (Action.change c) (Action.change c) := by
  intro s t h
  unfold Action.change
  rw [← hR.frames_eq s t h]
  cases c s.frames with
  | ok a frames => exact .ok rfl (hR.set_frames s t frames h)
  | error why frames => exact .error (hR.loosen _ _ _ (hR.set_frames s t frames h))

theorem pushData (value : Value) : InStep R E Eq (Action.pushData value) (Action.pushData value) := by
  intro s t h
  have hpushed : s.data.push value = t.data.push value := by rw [hR.data_eq s t h]
  have hset := hR.set_data s t (s.data.push value) h
  refine .ok rfl ?_
  change R { s with data := s.data.push value } { t with data := t.data.push value }
  rwa [← hpushed]

theorem popData : InStep R E Eq Action.popData Action.popData := by
  intro s t h
  unfold Action.popData
  rw [← hR.data_eq s t h]
  cases s.data.pop with
  | none => exact .error (hR.loosen s t _ h)
  | some p => exact .ok rfl (hR.set_data s t p.2 h)

omit hR in
theorem proceed {x y : Action Unit} {V : Unit → Unit → Prop} (hnext : F .next .next) (h : InStep R E V x y) :
    InStep R E F (Action.proceed x) (Action.proceed y) :=
  .bind h fun _ _ _ => .pure hnext

theorem store {i i' : Instruction} {value value' : State → Except Fault Value} (hnext : F .next .next)
    (hdest : SeesFrames (fun s => s.destination i) fun s => s.destination i') (h : SeesFrames value value') :
    InStep R E F (Action.store i value) (Action.store i' value') := by
  refine .bind (hR.look hdest) fun v _ hv => ?_
  subst hv
  refine .bind (hR.look h) fun x _ hx => ?_
  subst hx
  exact proceed hnext (hR.change _)

theorem popTo {i i' : Instruction} (hnext : F .next .next)
    (hdest : SeesFrames (fun s => s.destination i) fun s => s.destination i') :
    InStep R E F (Action.popTo i) (Action.popTo i') := by
  refine .bind (hR.look hdest) fun v _ hv => ?_
  subst hv
  refine .bind hR.popData fun x _ hx => ?_
  subst hx
  exact proceed hnext (hR.change _)

theorem readTo {i i' : Instruction} (hnext : F .next .next)
    (hvalue : ∀ n, InStep R E Eq (Action.takeValue n) (Action.takeValue n))
    (hdest : SeesFrames (fun s => s.destination i) fun s => s.destination i')
    (htype : SeesFrames (fun _ => i.typeName 1) fun _ => i'.typeName 1) :
    InStep R E F (Action.readTo i) (Action.readTo i') := by
  refine .bind (hR.look hdest) fun v _ hv => ?_
  subst hv
  refine .bind (hR.look htype) fun n _ hn => ?_
  subst hn
  refine .bind (hvalue n) fun x _ hx => ?_
  subst hx
  exact proceed hnext (hR.change _)

end Coupling

/-- **States of two runs at the same place**: they have the same position, step counter and call
stack, and are still related when both go somewhere else. -/
structure Abreast (R : State → State → Prop) : Prop where
  ip_eq     : ∀ s t, R s t → s.ip = t.ip
  steps_eq  : ∀ s t, R s t → s.steps = t.steps
  calls_eq  : ∀ s t, R s t → s.calls = t.calls
  set_ip    : ∀ s t k, R s t → R { s with ip := k } { t with ip := k }
  set_calls : ∀ s t calls, R s t → R { s with calls := calls } { t with calls := calls }

namespace Abreast

variable {R : State → State → Prop} {E : Fault → State → Fault → State → Prop} (hR : Abreast R)

include hR

theorem pushCall : InStep R E (fun _ _ => True) Action.pushCall Action.pushCall := by
  intro s t h
  have hpushed : t.calls.push (t.ip + 1) = s.calls.push (s.ip + 1) := by rw [hR.calls_eq s t h, hR.ip_eq s t h]
  refine .ok trivial ?_
  change R { s with calls := s.calls.push (s.ip + 1) } { t with calls := t.calls.push (t.ip + 1) }
  rw [hpushed]
  exact hR.set_calls s t _ h

theorem popCall (hE : ∀ s t fault, R s t → E fault s fault t) :
    InStep R E (fun j k => Flow.jump j = .jump k) Action.popCall Action.popCall := by
  intro s t h
  unfold Action.popCall
  rw [← hR.calls_eq s t h]
  cases s.calls.pop with
  | none => exact .error (hE s t _ h)
  | some p => exact .ok rfl (hR.set_calls s t p.2 h)

end Abreast

namespace Machine

variable {m m' : Machine} {R : State → State → Prop} {E : Fault → State → Fault → State → Prop}
  {F : Flow → Flow → Prop} {i i' : Instruction}

/-- The label that an instruction names is for both machines undefined, or stands for places to
which they go in step. -/
def TargetsAgree (m m' : Machine) (F : Flow → Flow → Prop) (i : Instruction) : Prop :=
  ∀ name, i.label 0 = .ok name → Agree (fun j k => F (.jump j) (.jump k)) (m.target name) (m'.target name)

theorem TargetsAgree.destination (h : TargetsAgree m m' F i) :
    Agree (fun j k => F (.jump j) (.jump k)) (m.destination i) (m'.destination i) :=
  .bind (.refl _) fun name _ hname e => e ▸ h name hname

theorem TargetsAgree.branch (h : TargetsAgree m m' F i) (hnext : F .next .next) (wanted : Bool) {s t : State}
    (hst : s.frames = t.frames) : Agree F (m.branch i wanted s) (m'.branch i wanted t) := by
  have hequal : s.equalOperands i = t.equalOperands i :=
    SeesFrames.eq (f := fun s => s.equalOperands i) (fun _ => ⟨rfl, rfl⟩) hst
  unfold Machine.branch
  rw [hequal]
  refine .bind (.refl _) fun name _ hname e => ?_
  subst e
  refine .bind (.refl _) fun equal _ _ e => ?_
  subst e
  split
  · exact .bind (h name hname) fun _ _ _ hjump => .ok hjump
  · exact .ok hnext

/-- Jumps go to the same place if the labels are the same. -/
theorem targetsAgree_of_labels (h : m'.labels = m.labels) : TargetsAgree m m' Eq i := by
  intro name _
  unfold target
  rw [h]
  cases m.labels.target? name with
  | none => exact .error _
  | some k => exact .ok rfl

/-- **Two machines perform an instruction in step** if they do so with what touches the call
stack, the input and the sink.  Of the instructions only the order numbers may be different,
which the summary of the state shows. -/
theorem inStep_perform (hR : Coupling R E) (hop : i'.opcode = i.opcode) (hargs : i'.args = i.args)
    (hnext : F .next .next) (hexit : ∀ code, F (.exit code) (.exit code)) (htargets : TargetsAgree m m' F i)
    (hpush : InStep R E (fun _ _ => True) Action.pushCall Action.pushCall)
    (hpop : InStep R E (fun j k => F (.jump j) (.jump k)) Action.popCall Action.popCall)
    (hvalue : i.opcode = .read → ∀ n, InStep R E Eq (Action.takeValue n) (Action.takeValue n))
    (hwrite : ∀ v, InStep R E Eq (Action.send m.sink (.output v)) (Action.send m'.sink (.output v)))
    (hshow : ∀ t, InStep R E Eq (Action.send m.sink (.diagnostic t)) (Action.send m'.sink (.diagnostic t)))
    (hbreak : ∀ s t, R s t → Outcomes R E Eq (Action.send m.sink (.diagnostic (s.summary i)) s)
      (Action.send m'.sink (.diagnostic (t.summary i')) t)) :
    InStep R E F (m.perform i) (m'.perform i') := by
  obtain ⟨opcode, order, args⟩ := i
  obtain ⟨opcode', order', args'⟩ := i'
  cases hop
  cases hargs
  cases opcode with
  | move | eq | not | int2char | stri2int | concat | strlen | getchar | setchar | type
  | add | sub | mul | idiv | lt | gt | and | or =>
    exact hR.store hnext (fun _ => ⟨rfl, rfl⟩) fun _ => ⟨rfl, rfl⟩
  | createFrame | pushFrame | popFrame => exact Coupling.proceed hnext (hR.change _)
  | defVar =>
    refine .bind (hR.look fun _ => ⟨rfl, rfl⟩) fun v _ hv => ?_
    subst hv
    exact Coupling.proceed hnext (hR.change _)
  | call =>
    refine .bind (.look hR.loosen fun _ _ _ => htargets.destination) fun j k hjump => ?_
    exact .bind hpush fun _ _ _ => .pure hjump
  | ret => exact .bind hpop fun _ _ hjump => .pure hjump
  | pushs =>
    refine .bind (hR.look fun _ => ⟨rfl, rfl⟩) fun x _ hx => ?_
    subst hx
    exact Coupling.proceed hnext (hR.pushData x)
  | pops => exact hR.popTo hnext fun _ => ⟨rfl, rfl⟩
  | read => exact hR.readTo hnext (hvalue rfl) (fun _ => ⟨rfl, rfl⟩) fun _ => ⟨rfl, rfl⟩
  | write =>
    refine .bind (hR.look fun _ => ⟨rfl, rfl⟩) fun x _ hx => ?_
    subst hx
    exact Coupling.proceed hnext (hwrite _)
  | label => exact .pure hnext
  | jump => exact .bind (.look hR.loosen fun _ _ _ => htargets.destination) fun _ _ hjump => .pure hjump
  | jumpIfEq | jumpIfNeq => exact .look hR.loosen fun s t h => htargets.branch hnext _ (hR.frames_eq s t h)
  | exit =>
    refine .bind (hR.look fun _ => ⟨rfl, rfl⟩) fun code _ hcode => ?_
    subst hcode
    exact .pure (hexit code)
  | dprint =>
    refine .bind (hR.look fun _ => ⟨rfl, rfl⟩) fun x _ hx => ?_
    subst hx
    exact Coupling.proceed hnext (hshow _)
  | brk =>
    -- The two summaries need not say the same, and the relation has to be that of the states they are about.
    intro s t h
    exact (hbreak s t h).bind fun _ _ _ _ _ h' => .ok hnext h'

end Machine

/-! ## Steps -/

namespace Machine

variable {m m' : Machine} {R : State → State → Prop} {E : Fault → State → Fault → State → Prop} {s t : State}

/-- Two steps have gone on to related states or have ended there in the same way, or both have
failed at the same place, with related faults. -/
inductive StepsAlike (R : State → State → Prop) (E : Fault → State → Fault → State → Prop) :
    State × Status → State × Status → Prop
  | running {s t : State} (h : R s t) : StepsAlike R E (s, .running) (t, .running)
  | ended {s t : State} (how : Outcome) (h : R s t) : StepsAlike R E (s, .ended how) (t, .ended how)
  | failed {s t : State} {fault fault' : Fault} (k : Nat) (h : E fault s fault' t) :
      StepsAlike R E (s, .failed ⟨k, fault⟩) (t, .failed ⟨k, fault'⟩)

/-- Both go where their instruction sends them. -/
theorem follow_abreast (hR : Abreast R) (h : R s t) (flow : Flow) : StepsAlike R E (follow s flow) (follow t flow) := by
  cases flow with
  | next =>
    refine .running ?_
    rw [← hR.ip_eq s t h]
    exact hR.set_ip s t _ h
  | jump k => exact .running (hR.set_ip s t k h)
  | exit code => exact .ended _ h

/-- **A step of both runs comes to the same** if both are at an end, or have instructions before
them that come to the same unless the limit has been reached. -/
theorem step_abreast (hR : Abreast R) (hE : ∀ s t fault, R s t → E fault s fault t)
    (hip : ∀ fault s fault' t, E fault s fault' t → s.ip = t.ip) (hlimit : m'.limit = m.limit) (h : R s t)
    (hnext : Option.Rel (fun i i' => m.exhausted? s = none →
      Outcomes R E Eq (m.perform i s.counted) (m'.perform i' t.counted)) m.code[s.ip]? m'.code[t.ip]?) :
    StepsAlike R E (m.step s) (m'.step t) := by
  have hexhausted : m'.exhausted? t = m.exhausted? s := by
    unfold exhausted?
    rw [hlimit, hR.steps_eq s t h]
  unfold step
  rw [hexhausted]
  generalize m.code[s.ip]? = c at hnext ⊢
  generalize m'.code[t.ip]? = c' at hnext ⊢
  cases hnext with
  | none => exact .ended _ h
  | @some i i' hboth =>
    cases hlim : m.exhausted? s with
    | some limit =>
      simp only [hR.ip_eq s t h]
      exact .failed _ (hE s t _ h)
    | none =>
      have hout := hboth hlim
      unfold State.counted at hout
      simp only
      generalize m.perform i { s with steps := s.steps + 1 } = r at hout ⊢
      generalize m'.perform i' { t with steps := t.steps + 1 } = r' at hout ⊢
      cases hout with
      | @ok flow _ _ _ hflow hst =>
        subst hflow
        exact follow_abreast hR hst flow
      | error hst =>
        simp only [hip _ _ _ _ hst]
        exact .failed _ hst

theorem StepsAlike.same {r r' : State × Status} (h : StepsAlike R (Action.Same R) r r') : r'.2 = r.2 ∧ R r.1 r'.1 := by
  cases h with
  | running h => exact ⟨rfl, h⟩
  | ended how h => exact ⟨rfl, h⟩
  | failed k h =>
    obtain ⟨rfl, hst⟩ := h
    exact ⟨rfl, hst⟩

/-- A step comes to the same whose instruction can only raise the same fault in both runs. -/
theorem step_abreast_same (hR : Abreast R) (hlimit : m'.limit = m.limit) (h : R s t)
    (hnext : Option.Rel (fun i i' => m.exhausted? s = none →
      Outcomes R (Action.Same R) Eq (m.perform i s.counted) (m'.perform i' t.counted)) m.code[s.ip]? m'.code[t.ip]?) :
    (m'.step t).2 = (m.step s).2 ∧ R (m.step s).1 (m'.step t).1 :=
  (step_abreast hR (fun _ _ _ h => ⟨rfl, h⟩) (fun _ s _ t h => hR.ip_eq s t h.2) hlimit h hnext).same

/-- **Runs whose steps come to the same stay together**, for as long as the first one is in states
in which this is so. -/
theorem results_abreast_while {P : State → Prop}
    (hstep : ∀ s t, R s t → P s → (m'.step t).2 = (m.step s).2 ∧ R (m.step s).1 (m'.step t).1) :
    ∀ (n : Nat) {s t : State}, R s t → (∀ k < n, P (m.after k s)) →
      m'.results n t = m.results n s ∧ R (m.after n s) (m'.after n t)
  | 0, _, _, h, _ => ⟨rfl, h⟩
  | n + 1, s, t, h, hP => by
    obtain ⟨hstatus, hst⟩ := hstep s t h (hP 0 (Nat.zero_lt_succ n))
    obtain ⟨hrest, hafter⟩ := results_abreast_while hstep n hst fun k hk => hP (k + 1) (Nat.succ_lt_succ hk)
    exact ⟨by rw [results, results, hstatus, hrest], hafter⟩

end Machine

end IppCode
