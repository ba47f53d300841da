import IppCode.Proofs.InputLines
import IppCode.Proofs.Lockstep
/-!
# Causality — what of the input a run depends on

A read that goes well asks the input for one value, and nothing else touches the input
(`input_of_not_read`); if it is read line by line, that takes one line, whatever comes of it
(`takesLine_of_readsLine`).  So from inputs that begin with the same lines two runs differ in
nothing but what they have not read, as long as they have not read more than these lines
(`input_causality`).
-/
namespace IppCode

open IppCode.Action (InStep Outcomes)

/-! ## Lines -/

namespace Input

variable {n : TypeName} {bytes rest : Utf8.Bytes}

/-- What a read stores: nil for a line that is not UTF-8 or is no value of the type. -/
def stored (n : TypeName) (line : Option Text) : Value := (line.bind (valueOf? n)).getD .nil

/-- **What a read takes**: the bytes up to and including the first line feed, or all of them if
there is none.  At the end of the input it takes nothing and stores nil. -/
inductive Takes (n : TypeName) : Utf8.Bytes → Value → Utf8.Bytes → Prop
  | line {bytes rest : Utf8.Bytes} (h : 0x0A ∉ bytes) :
      Takes n (bytes ++ 0x0A :: rest) (stored n ((Utf8.decode? bytes).map dropReturn)) rest
  | last {bytes : Utf8.Bytes} (h : 0x0A ∉ bytes) (hne : bytes ≠ []) : Takes n bytes (stored n (Utf8.decode? bytes)) []
  | done : Takes n [] .nil []

/-- **The first line does not depend on what follows it.** -/
theorem line_of_mem {pre : Utf8.Bytes} (h : 0x0A ∈ pre) : ∃ text rest, pre.count 0x0A = rest.count 0x0A + 1 ∧
    ∀ x, line (pre ++ x) = (text, rest ++ x) := by
  obtain ⟨bytes, rest, rfl, hbytes⟩ := List.eq_append_cons_of_mem h
  refine ⟨(Utf8.decode? bytes).map dropReturn, rest, ?_, fun x => ?_⟩
  · rw [List.count_append, List.count_cons_self, List.count_eq_zero_of_not_mem hbytes, Nat.zero_add]
  · rw [List.append_assoc, List.cons_append, line_append hbytes]

theorem takes_line (n : TypeName) (bytes : Utf8.Bytes) : Takes n bytes (stored n (line bytes).1) (line bytes).2 := by
  by_cases hmem : 0x0A ∈ bytes
  · obtain ⟨bytes, rest, rfl, h⟩ := List.eq_append_cons_of_mem hmem
    rw [line_append h]
    exact .line h
  · unfold line
    rw [cutLine_eq_none hmem]
    cases bytes with
    | nil => exact .done
    | cons b bytes => exact .last hmem (List.cons_ne_nil b bytes)

end Input

/-! ## What is stored -/

theorem Frames.Change.lookup_of_assign {fs fs' : Frames} {v : Variable} {value : Value}
    (h : assign v value fs = .ok () fs') : fs'.lookup v = .ok (some value) := by
  obtain ⟨f, g, hf, hg, rfl⟩ := assign_eq_ok.1 h
  have hframe : (fs.replace g v.scope).frame v.scope = .ok g := by
    cases v.scope <;> rfl
  have hcell : g.cell? v.name = some (some value) := by
    rw [Frame.cell?_set hg, if_pos rfl]
  unfold lookup
  rw [hframe]
  simp only [hcell]

/-! ## Steps -/

theorem Effect.input_eq {m : Machine} {i : Instruction} {s t : State} {flow : Flow} (h : Effect m i s flow t)
    (hop : i.opcode ≠ .read) : t.input = s.input := by
  cases h with
  | read hread => exact absurd hread hop
  | _ => rfl

namespace Machine

variable {m : Machine} {s t : State} {i : Instruction}

/-- Whether the next step reads a value, which is a line of an input that has lines: it is a read,
and it goes well. -/
def readsLine (m : Machine) (s : State) : Bool :=
  (m.code[s.ip]?.any fun i => i.opcode = .read) && (m.step s).2 = .running

/-- How many of the next steps read a value. -/
def linesRead (m : Machine) : Nat → State → Nat
  | 0,     _ => 0
  | n + 1, s => linesRead m n (m.step s).1 + if m.readsLine s then 1 else 0

theorem readsLine_of_code (hi : m.code[s.ip]? = some i) (hop : i.opcode = .read) :
    m.readsLine s = true ↔ (m.step s).2 = .running := by
  unfold readsLine
  rw [hi]
  simp [hop]

/-- **Only a read that goes well changes the input.** -/
theorem input_of_not_read (h : m.readsLine s = false) : (m.step s).1.input = s.input := by
  rcases hstep : m.step s with ⟨t, st⟩
  rcases step_cases hstep with ⟨hstays, -⟩ | ⟨rfl, i, flow, u, hi, heffect, hfollow⟩
  · exact hstays.input
  · rw [eq_of_follow hfollow]
    refine heffect.input_eq fun hop => ?_
    rw [(readsLine_of_code hi hop).2 (by rw [hstep])] at h
    cases h

theorem perform_read (hop : i.opcode = .read) : m.perform i = Action.readTo i := by
  unfold perform
  rw [hop]

theorem perform_read_eq_ok {flow : Flow} (hop : i.opcode = .read) : m.perform i s = .ok flow t ↔
    ∃ v n frames, s.destination i = .ok v ∧ i.typeName 1 = .ok n ∧
      Frames.Change.assign v ((s.input.read n).1.getD .nil) s.frames = .ok () frames ∧
      t = { s with input := (s.input.read n).2, frames := frames } ∧ flow = .next := by
  rw [perform_read hop]
  constructor
  · intro h
    obtain ⟨v, hv, hrest⟩ := Action.look_bind_eq_ok.1 h
    obtain ⟨n, hn, hrest⟩ := Action.look_bind_eq_ok.1 hrest
    obtain ⟨value, u, hvalue, hassign⟩ := bind_eq_ok.1 hrest
    cases hvalue
    obtain ⟨frames, hframes, rfl, rfl⟩ := Action.proceed_change_eq_ok.1 hassign
    exact ⟨v, n, frames, hv, hn, hframes, rfl, rfl⟩
  · rintro ⟨v, n, frames, hv, hn, hframes, rfl, rfl⟩
    refine Action.look_bind_eq_ok.2 ⟨v, hv, Action.look_bind_eq_ok.2 ⟨n, hn, bind_eq_ok.2 ⟨_, _, rfl, ?_⟩⟩⟩
    exact Action.proceed_change_eq_ok.2 ⟨frames, hframes, rfl, rfl⟩

/-- **A read goes well iff its destination can be resolved**, unless the limit has been reached or
its second operand is no type. -/
theorem readsLine_iff (hi : m.code[s.ip]? = some i) (hop : i.opcode = .read) : m.readsLine s = true ↔
    m.exhausted? s = none ∧ (∃ v, s.destination i = .ok v) ∧ ∃ n, i.typeName 1 = .ok n := by
  rw [readsLine_of_code hi hop]
  constructor
  · intro h
    obtain ⟨i', flow, u, hi', hlimit, hread, -⟩ := performed_of_running h
    obtain rfl : i = i' := Option.some.inj (hi.symm.trans hi')
    obtain ⟨v, n, frames, hv, hn, -⟩ := (perform_read_eq_ok hop).1 hread
    exact ⟨hlimit, ⟨v, hv⟩, n, hn⟩
  · rintro ⟨hlimit, ⟨v, hv⟩, n, hn⟩
    obtain ⟨c, hc⟩ := Action.lookup_of_destination hv
    obtain ⟨frames, hframes⟩ := Frames.Change.assign_of_lookup ((s.input.read n).1.getD .nil) hc
    rw [step_of_perform hi hlimit ((perform_read_eq_ok hop).2 ⟨v, n, frames, hv, hn, hframes, rfl, rfl⟩)]
    rfl

/-- **What a read of an input with lines does if it goes well**: it takes a line, and stores what
that line means as a value of the type. -/
def TakesLine (m : Machine) (s : State) : Prop :=
  ∃ i v n bytes value rest, m.code[s.ip]? = some i ∧ i.opcode = .read ∧ i.var 0 = .ok v ∧ i.typeName 1 = .ok n ∧
    s.input = .lines bytes ∧ Input.Takes n bytes value rest ∧ (m.step s).1.input = .lines rest ∧
    (m.step s).1.lookup v = .ok (some value)

/-- **A step that reads**, and what it leaves. -/
theorem step_of_readsLine (h : m.readsLine s = true) : ∃ i v n frames, m.code[s.ip]? = some i ∧ i.opcode = .read ∧
    i.var 0 = .ok v ∧ i.typeName 1 = .ok n ∧
    Frames.Change.assign v ((s.input.read n).1.getD .nil) s.frames = .ok () frames ∧
    m.step s = ({ s.counted with ip := s.ip + 1, input := (s.input.read n).2, frames := frames }, .running) := by
  unfold readsLine at h
  rw [Bool.and_eq_true, decide_eq_true_eq] at h
  obtain ⟨hread, hrunning⟩ := h
  obtain ⟨i, flow, u, hi, -, hperform, hstep⟩ := performed_of_running hrunning
  have hop : i.opcode = .read := by simpa [hi] using hread
  obtain ⟨v, n, frames, hv, hn, hframes, rfl, rfl⟩ := (perform_read_eq_ok hop).1 hperform
  exact ⟨i, v, n, frames, hi, hop, (Action.destination_eq_ok.1 hv).1, hn, hframes, hstep⟩

theorem input_of_readsLine {bytes : Utf8.Bytes} (hs : s.input = .lines bytes) (h : m.readsLine s = true) :
    (m.step s).1.input = .lines (Input.line bytes).2 := by
  obtain ⟨i, v, n, frames, -, -, -, -, -, hstep⟩ := step_of_readsLine h
  rw [hstep, hs, Input.read_lines]

theorem takesLine_of_readsLine {bytes : Utf8.Bytes} (hs : s.input = .lines bytes) (h : m.readsLine s = true) :
    m.TakesLine s := by
  obtain ⟨i, v, n, frames, hi, hop, hv, hn, hframes, hstep⟩ := step_of_readsLine h
  refine ⟨i, v, n, bytes, _, _, hi, hop, hv, hn, hs, Input.takes_line n bytes, input_of_readsLine hs h, ?_⟩
  rw [hs, Input.read_lines] at hframes
  unfold State.lookup
  rw [hstep]
  simp only [Frames.Change.lookup_of_assign hframes]
  rfl

/-! ## Two runs -/

end Machine

/-- **The states differ in nothing but the input that has not been read.** -/
structure State.UpToInput (s t : State) : Prop where
  ip     : s.ip = t.ip
  steps  : s.steps = t.steps
  frames : s.frames = t.frames
  calls  : s.calls = t.calls
  data   : s.data = t.data
  log    : s.log = t.log

namespace State.UpToInput

variable {s t : State}

theorem eq (h : s.UpToInput t) : t = { s with input := t.input } := by
  obtain ⟨hip, hsteps, hframes, hcalls, hdata, hlog⟩ := h
  rw [hip, hsteps, hframes, hcalls, hdata, hlog]

theorem coupling : Coupling UpToInput (Action.Same UpToInput) where
  frames_eq _ _ h := h.frames
  data_eq _ _ h := h.data
  set_frames _ _ _ h := ⟨h.ip, h.steps, rfl, h.calls, h.data, h.log⟩
  set_data _ _ _ h := ⟨h.ip, h.steps, h.frames, h.calls, rfl, h.log⟩
  loosen _ _ _ h := ⟨rfl, h⟩

theorem abreast : Abreast UpToInput where
  ip_eq _ _ h := h.ip
  steps_eq _ _ h := h.steps
  calls_eq _ _ h := h.calls
  set_ip _ _ _ h := ⟨rfl, h.steps, h.frames, h.calls, h.data, h.log⟩
  set_calls _ _ _ h := ⟨h.ip, h.steps, h.frames, rfl, h.data, h.log⟩

theorem counted (h : s.UpToInput t) : s.counted.UpToInput t.counted :=
  ⟨h.ip, congrArg (· + 1) h.steps, h.frames, h.calls, h.data, h.log⟩

theorem inStep_send (sink : Sink) (w : Write) :
    InStep UpToInput (Action.Same UpToInput) Eq (Action.send sink w) (Action.send sink w) := by
  intro s t h
  unfold Action.send
  rw [← h.log]
  cases sink.write w s.log with
  | ok _ log => exact .ok rfl ⟨h.ip, h.steps, h.frames, h.calls, h.data, rfl⟩
  | error why log => exact .error ⟨rfl, h.ip, h.steps, h.frames, h.calls, h.data, rfl⟩

/-- A read comes to the same if it gets the same value, in case that it finds its destination. -/
theorem outcomes_readTo {i : Instruction} (h : s.UpToInput t)
    (hvalue : ∀ v n, s.destination i = .ok v → i.typeName 1 = .ok n → (t.input.read n).1 = (s.input.read n).1) :
    Outcomes UpToInput (Action.Same UpToInput) Eq (Action.readTo i s) (Action.readTo i t) := by
  have hdest : t.destination i = s.destination i := by
    rw [h.eq]
    rfl
  have hfound : Agree (fun v v' => v = v' ∧ s.destination i = .ok v) (s.destination i) (t.destination i) :=
    hdest.symm ▸ .self _
  refine .bind (.look (fun _ => ⟨rfl, h⟩) hfound) ?_
  rintro v _ _ _ ⟨rfl, hv⟩ ⟨rfl, rfl⟩
  refine .bind (.look (fun _ => ⟨rfl, h⟩) (.self (i.typeName 1))) ?_
  rintro n _ _ _ ⟨rfl, hn⟩ ⟨rfl, rfl⟩
  have htaken : Outcomes UpToInput (Action.Same UpToInput) Eq (Action.takeValue n s) (Action.takeValue n t) := by
    refine .ok ?_ ⟨h.ip, h.steps, h.frames, h.calls, h.data, h.log⟩
    rw [hvalue v n hv hn]
  refine htaken.bind fun value _ s' t' hsame h' => ?_
  subst hsame
  exact Coupling.proceed rfl (coupling.change _) s' t' h'

theorem outcomes_perform {m : Machine} {i : Instruction} (h : s.UpToInput t)
    (hvalue : i.opcode = .read → ∀ v n, s.destination i = .ok v → i.typeName 1 = .ok n →
      (t.input.read n).1 = (s.input.read n).1) :
    Outcomes UpToInput (Action.Same UpToInput) Eq (m.perform i s) (m.perform i t) := by
  by_cases hop : i.opcode = .read
  · rw [Machine.perform_read hop]
    exact outcomes_readTo h (hvalue hop)
  · have hsummary : ∀ s t : State, s.UpToInput t → t.summary i = s.summary i := by
      intro s t h
      rw [h.eq]
      rfl
    refine Machine.inStep_perform coupling rfl rfl rfl (fun _ => rfl) (Machine.targetsAgree_of_labels rfl)
      abreast.pushCall (abreast.popCall fun _ _ _ h => ⟨rfl, h⟩) (fun h => absurd h hop) (fun t => inStep_send _ _)
      (fun t => inStep_send _ _) ?_ s t h
    intro s t h
    rw [hsummary s t h]
    exact inStep_send _ _ s t h

end State.UpToInput

namespace Machine

variable {m : Machine} {s t : State} {pre x y : Utf8.Bytes}

/-- **Two runs that differ in nothing but the input take the same step**, unless it reads a value
and they get different ones. -/
theorem step_upToInput (h : s.UpToInput t)
    (hvalue : m.readsLine s = true → ∀ n, (t.input.read n).1 = (s.input.read n).1) :
    (m.step t).2 = (m.step s).2 ∧ (m.step s).1.UpToInput (m.step t).1 := by
  refine step_abreast_same State.UpToInput.abreast rfl h ?_
  rw [← h.ip]
  cases hi : m.code[s.ip]? with
  | none => exact .none
  | some i =>
    refine .some fun hlimit => State.UpToInput.outcomes_perform h.counted fun hop v n hv hn => ?_
    exact hvalue ((readsLine_iff hi hop).2 ⟨hlimit, ⟨v, hv⟩, n, hn⟩) n

/-- While there are whole lines left of what the inputs begin with, two runs take the same step. -/
theorem step_of_shared (h : s.UpToInput t) (hs : s.input = .lines (pre ++ x)) (ht : t.input = .lines (pre ++ y))
    (hpre : m.readsLine s = true → 0x0A ∈ pre) :
    (m.step t).2 = (m.step s).2 ∧ (m.step s).1.UpToInput (m.step t).1 ∧
      ∃ pre', (m.step s).1.input = .lines (pre' ++ x) ∧ (m.step t).1.input = .lines (pre' ++ y) ∧
        pre.count 0x0A = pre'.count 0x0A + if m.readsLine s then 1 else 0 := by
  have hvalue : m.readsLine s = true → ∀ n, (t.input.read n).1 = (s.input.read n).1 := by
    intro hread n
    obtain ⟨text, rest, -, hfirst⟩ := Input.line_of_mem (hpre hread)
    rw [hs, ht, Input.read_lines, Input.read_lines, hfirst, hfirst]
  obtain ⟨hstatus, hstep⟩ := step_upToInput h hvalue
  have hsame : m.readsLine t = m.readsLine s := by
    unfold readsLine
    rw [← h.ip, hstatus]
  refine ⟨hstatus, hstep, ?_⟩
  cases hread : m.readsLine s with
  | true =>
    obtain ⟨text, rest, hcount, hfirst⟩ := Input.line_of_mem (hpre hread)
    rw [input_of_readsLine hs hread, input_of_readsLine ht (hsame.trans hread), hfirst, hfirst]
    exact ⟨rest, rfl, rfl, hcount⟩
  | false =>
    rw [input_of_not_read hread, input_of_not_read (hsame.trans hread)]
    exact ⟨pre, hs, ht, rfl⟩

/-- **Two runs stay together while no more lines are read than their inputs begin with.** -/
theorem after_of_shared : ∀ (n : Nat) {s t : State} {pre : Utf8.Bytes}, s.UpToInput t → s.input = .lines (pre ++ x) →
    t.input = .lines (pre ++ y) → m.linesRead n s ≤ pre.count 0x0A →
    m.results n t = m.results n s ∧ (m.after n s).UpToInput (m.after n t) ∧
      ∃ rest, (m.after n s).input = .lines (rest ++ x) ∧ (m.after n t).input = .lines (rest ++ y)
  | 0, _, _, pre, h, hs, ht, _ => ⟨rfl, h, pre, hs, ht⟩
  | n + 1, s, t, pre, h, hs, ht, hle => by
    rw [linesRead] at hle
    have hpre : m.readsLine s = true → 0x0A ∈ pre := by
      intro hread
      rw [if_pos hread] at hle
      exact List.count_pos_iff.1 (by omega)
    obtain ⟨hstatus, hstep, pre', hs', ht', hcount⟩ := step_of_shared h hs ht hpre
    obtain ⟨hresults, hafter⟩ := after_of_shared n hstep hs' ht' (by omega)
    exact ⟨by rw [results, results, hstatus, hresults], hafter⟩

/-- **Reads take one line each, and nothing else looks at the input.**  A read whose destination
can be resolved goes well, whatever the input is.  If that is read line by line, the read takes a
line, whatever is on it, or nothing at the end of the input, and stores what the line means, or
nil.  No other step touches the input.  So two runs from inputs that begin with the same lines
come to the same at every step and differ in nothing but what they have not read, until one reads
more than these lines. -/
theorem input_causality (m : Machine) :
    (∀ s i, m.code[s.ip]? = some i → i.opcode = .read → (m.readsLine s = true ↔
      m.exhausted? s = none ∧ (∃ v, s.destination i = .ok v) ∧ ∃ n, i.typeName 1 = .ok n)) ∧
    (∀ s bytes, s.input = .lines bytes → m.readsLine s = true → m.TakesLine s) ∧
    (∀ s, m.readsLine s = false → (m.step s).1.input = s.input) ∧
    ∀ (pre x y : Utf8.Bytes) n, m.linesRead n (.start (.lines (pre ++ x))) ≤ pre.count 0x0A →
      m.results n (.start (.lines (pre ++ y))) = m.results n (.start (.lines (pre ++ x))) ∧
      ∃ rest, (m.after n (.start (.lines (pre ++ x)))).input = .lines (rest ++ x) ∧
        m.after n (.start (.lines (pre ++ y))) =
          { m.after n (.start (.lines (pre ++ x))) with input := .lines (rest ++ y) } := by
  refine ⟨fun s i => readsLine_iff, fun s bytes => takesLine_of_readsLine, fun s => input_of_not_read,
    fun pre x y n hle => ?_⟩
  have hstart : (State.start (.lines (pre ++ x))).UpToInput (.start (.lines (pre ++ y))) :=
    ⟨rfl, rfl, rfl, rfl, rfl, rfl⟩
  obtain ⟨hresults, hafter, rest, hx, hy⟩ := after_of_shared n hstart rfl rfl hle
  refine ⟨hresults, rest, hx, ?_⟩
  rw [← hy]
  exact hafter.eq

/-- The first line is no integer, and what follows it is not read. -/
theorem input_causality_of_bad_line :
    let m : Machine := ⟨#[⟨.defVar, 1, [.var ⟨.gf, "a"⟩]⟩, ⟨.read, 2, [.var ⟨.gf, "a"⟩, .const (.type .int)]⟩,
      ⟨.read, 3, [.var ⟨.gf, "a"⟩, .const (.type .string)]⟩], [], none, .quiet⟩
    let line : Utf8.Bytes := [0x61, 0x62, 0x0A]
    let s : State := m.after 2 (.start (.lines (line ++ [0x63])))
    m.linesRead 2 (.start (.lines (line ++ [0x63]))) = 1 ∧ s.lookup ⟨.gf, "a"⟩ = .ok (some .nil) ∧
      m.results 2 (.start (.lines (line ++ [0xFF, 0x0A]))) = [.running, .running] ∧
      m.after 2 (.start (.lines (line ++ [0xFF, 0x0A]))) = { s with input := .lines [0xFF, 0x0A] } ∧
      m.TakesLine s := by
  intro m line s
  obtain ⟨-, htakes, -, hshared⟩ := input_causality m
  have hread : m.linesRead 2 (.start (.lines (line ++ [0x63]))) = 1 := by decide +kernel
  obtain ⟨hresults, rest, hx, hy⟩ := hshared line [0x63] [0xFF, 0x0A] 2 (Nat.le_of_eq hread)
  have hs : s.input = .lines [0x63] := rfl
  obtain rfl : rest = [] := List.self_eq_append_left.1 (congrArg Input.unread (hs.symm.trans hx))
  exact ⟨hread, by decide +kernel, hresults.trans (by decide +kernel), hy, htakes s _ hs (by decide +kernel)⟩

end Machine

end IppCode
