import IppCode.Proofs.Limit
/-!
# Writes — what a run hands to its sink

Three operations write, each of them once and as the last thing that it does
(`perform_of_writes`); no other step depends on the sink (`step_of_not_writing`).  So a sink that
takes some writes and refuses all others changes nothing about a run but where it stops: at the
first write that is refused, in the state before it (`run_into_full_sink`).
-/
namespace IppCode

/-- The operations that write. -/
def Opcode.writes : Opcode → Bool
  | write | dprint | brk => true
  | _ => false

/-- What an instruction that writes hands to the sink. -/
def State.written (s : State) (i : Instruction) : Except Fault Write :=
  match i.opcode with
  | .write  => do return .output (← s.value i 0)
  | .dprint => do return .diagnostic (← s.shown i)
  | _       => return .diagnostic (s.summary i)

/-! ## Logs -/

theorem Effect.log_eq {m : Machine} {i : Instruction} {s t : State} {flow : Flow} (h : Effect m i s flow t)
    (hop : i.opcode.writes = false) : t.log = s.log := by
  cases h with
  | sent hsent => rcases hsent with hsent | hsent | hsent <;> rw [hsent] at hop <;> cases hop
  | _ => rfl

namespace Sink

theorem write_unbounded (w : Write) (log : Log) : unbounded.write w log = .ok () (w :: log) := by
  cases w <;> rfl

/-- **Takes so many writes, and nothing of any other one**, diagnostics included. -/
def TakesFirst (n : Nat) (sink : Sink) : Prop :=
  sink.keepsDiagnostics = true ∧ ∀ log w, (log.length < n → sink.refusal? log w = none) ∧
    (n ≤ log.length → ∃ why, sink.refusal? log w = some ⟨why, []⟩)

namespace TakesFirst

variable {n : Nat} {sink : Sink} (h : sink.TakesFirst n) (w : Write) {log : Log}

include h

theorem write_eq_take (log : Log) : sink.write w log = sink.take w log := by
  cases w with
  | output t => rfl
  | diagnostic t => simp [write, h.1]

theorem write_of_lt (hlog : log.length < n) : sink.write w log = .ok () (w :: log) := by
  rw [h.write_eq_take, take, (h.2 log w).1 hlog]

theorem write_of_le (hlog : n ≤ log.length) : ∃ why, sink.refusal? log w = some ⟨why, []⟩ ∧
    sink.write w log = .error why log := by
  obtain ⟨why, hwhy⟩ := (h.2 log w).2 hlog
  exact ⟨why, hwhy, by rw [h.write_eq_take, take, hwhy]; rfl⟩

end TakesFirst

theorem bounded_takesFirst (n : Nat) (why : Text) : (bounded n why).TakesFirst n := by
  refine ⟨rfl, fun log w => ⟨fun hlt => if_pos hlt, fun hle => ⟨why, if_neg ?_⟩⟩⟩
  exact Nat.not_lt.2 hle

end Sink

/-- What looks at the state first goes on with what was seen, or fails where it stands. -/
theorem Action.look_bind {α β : Type} (f : State → Except Fault α) (k : α → Action β) (s : State) :
    (look f >>= k) s = match f s with
      | .ok a        => k a s
      | .error fault => .error fault s := by
  change EStateM.bind (look f) k s = _
  unfold EStateM.bind look
  cases f s <;> rfl

namespace Machine

variable {m : Machine} {i : Instruction} {s t u : State} {st : Status} {sink : Sink} {w : Write} {n : Nat}

/-! ## Steps -/

def withSink (m : Machine) (sink : Sink) : Machine := { m with sink := sink }

/-- **An instruction that writes looks first and writes then**, and does nothing else. -/
theorem perform_of_writes (m : Machine) (s : State) (hop : i.opcode.writes = true) :
    m.perform i s = match s.written i with
      | .ok w        => Action.proceed (Action.send m.sink w) s
      | .error fault => .error fault s := by
  obtain ⟨opcode, order, args⟩ := i
  cases opcode with
  | write =>
    refine (Action.look_bind _ _ s).trans ?_
    unfold State.written
    simp only
    cases s.value ⟨.write, order, args⟩ 0 <;> rfl
  | dprint =>
    refine (Action.look_bind _ _ s).trans ?_
    unfold State.written
    simp only
    cases s.shown ⟨.dprint, order, args⟩ <;> rfl
  | brk => rfl
  | _ => cases hop

theorem perform_withSink (m : Machine) (sink : Sink) (hop : i.opcode.writes = false) :
    (m.withSink sink).perform i = m.perform i := by
  obtain ⟨opcode, order, args⟩ := i
  cases opcode <;> first | rfl | cases hop

/-- **The next step hands a write to the sink.** -/
structure Writing (m : Machine) (s : State) (i : Instruction) (w : Write) : Prop where
  code    : m.code[s.ip]? = some i
  started : m.exhausted? s = none
  writes  : i.opcode.writes = true
  written : s.counted.written i = .ok w

namespace Writing

variable {log : Log} {why : Text}

theorem perform (h : m.Writing s i w) (sink : Sink) :
    (m.withSink sink).perform i s.counted = Action.proceed (Action.send sink w) s.counted := by
  rw [perform_of_writes _ _ h.writes, h.written]
  rfl

/-- A write that is taken is in the log, and the run goes on. -/
theorem step_of_taken (h : m.Writing s i w) (hsink : sink.write w s.log = .ok () log) :
    (m.withSink sink).step s = ({ s.counted with ip := s.ip + 1, log := log }, .running) := by
  have hperform : (m.withSink sink).perform i s.counted = .ok .next { s.counted with log := log } := by
    rw [h.perform sink]
    exact Action.proceed_eq_ok.2 ⟨Action.send_eq_ok.2 ⟨log, hsink, rfl⟩, rfl⟩
  exact step_of_perform (m := m.withSink sink) h.code h.started hperform

/-- A write that is refused is where the run ends. -/
theorem step_of_refused (h : m.Writing s i w) (hsink : sink.write w s.log = .error why log) :
    (m.withSink sink).step s = ({ s.counted with log := log }, .failed ⟨s.ip, .output why⟩) := by
  have hperform : (m.withSink sink).perform i s.counted = .error (.output why) { s.counted with log := log } := by
    rw [h.perform sink]
    exact Action.proceed_eq_error.2 (Action.send_eq_error.2 ⟨why, log, hsink, rfl, rfl⟩)
  exact step_of_fault (m := m.withSink sink) h.code h.started hperform

end Writing

/-- An instruction that hands nothing to the sink comes to the same whatever the sink is, and leaves
the log as it is. -/
theorem perform_of_not_written (m : Machine) (sink : Sink)
    (h : i.opcode.writes = true → ∃ fault, s.written i = .error fault) :
    (m.withSink sink).perform i s = m.perform i s ∧
      ((∃ flow t, m.perform i s = .ok flow t ∧ t.log = s.log) ∨
        ∃ fault t, m.perform i s = .error fault t ∧ t.log = s.log) := by
  cases hop : i.opcode.writes with
  | true =>
    obtain ⟨fault, hfault⟩ := h hop
    rw [perform_of_writes _ _ hop, perform_of_writes _ _ hop, hfault]
    exact ⟨rfl, .inr ⟨fault, s, rfl, rfl⟩⟩
  | false =>
    rw [perform_withSink m sink hop]
    refine ⟨rfl, ?_⟩
    cases hperform : m.perform i s with
    | ok flow t => exact .inl ⟨flow, t, rfl, (effect_of_perform hperform).log_eq hop⟩
    | error fault t =>
      -- With a sink that takes everything there is no write of which a part may have been taken.
      rw [← perform_withSink m .unbounded hop] at hperform
      obtain ⟨log, hkeeps, rfl⟩ := perform_atomic _ i s _ _ hperform
      obtain rfl | ⟨w, r, hr, -⟩ := hkeeps
      · exact .inr ⟨fault, _, rfl, rfl⟩
      · cases hr

/-- **A step that does not write is the same whatever the sink is**, and leaves the log as it is. -/
theorem step_of_not_writing (h : ∀ i w, ¬ m.Writing s i w) (sink : Sink) :
    (m.withSink sink).step s = m.step s ∧ (m.step s).1.log = s.log := by
  have hcode : (m.withSink sink).code = m.code := rfl
  have hlimit : (m.withSink sink).exhausted? s = m.exhausted? s := rfl
  cases hi : m.code[s.ip]? with
  | none =>
    rw [step_past_end hi, step_past_end (m := m.withSink sink) hi]
    exact ⟨rfl, rfl⟩
  | some i =>
    cases hm : m.exhausted? s with
    | some limit =>
      unfold step
      rw [hcode, hlimit, hi, hm]
      exact ⟨rfl, rfl⟩
    | none =>
      have hnot : i.opcode.writes = true → ∃ fault, s.counted.written i = .error fault := by
        intro hop
        cases hw : s.counted.written i with
        | ok w => exact absurd ⟨hi, hm, hop, hw⟩ (h i w)
        | error fault => exact ⟨fault, rfl⟩
      obtain ⟨hsame, hperform⟩ := perform_of_not_written m sink hnot
      rcases hperform with ⟨flow, t, ht, hlog⟩ | ⟨fault, t, ht, hlog⟩
      · rw [step_of_perform hi hm ht, step_of_perform (m := m.withSink sink) hi hm (hsame.trans ht)]
        refine ⟨rfl, ?_⟩
        cases flow <;> exact hlog
      · rw [step_of_fault hi hm ht, step_of_fault (m := m.withSink sink) hi hm (hsame.trans ht)]
        exact ⟨rfl, hlog⟩

/-! ## Into a full sink -/

/-- **With a sink that takes everything, a step either has nothing to do with the sink or puts one
write into the log.** -/
theorem step_unbounded (hm : m.sink = .unbounded) (s : State) :
    ((∀ sink, (m.withSink sink).step s = m.step s) ∧ (m.step s).1.log = s.log) ∨
      ∃ i w, m.Writing s i w ∧ m.step s = ({ s.counted with ip := s.ip + 1, log := w :: s.log }, .running) := by
  by_cases h : ∃ i w, m.Writing s i w
  · obtain ⟨i, w, hw⟩ := h
    have hstep := hw.step_of_taken (Sink.write_unbounded w s.log)
    rw [withSink, ← hm] at hstep
    exact .inr ⟨i, w, hw, hstep⟩
  · have hnot : ∀ i w, ¬ m.Writing s i w := fun i w hw => h ⟨i, w, hw⟩
    exact .inl ⟨fun sink => (step_of_not_writing hnot sink).1, (step_of_not_writing hnot .unbounded).2⟩

/-- What has been written stays written. -/
theorem suffix_run (hm : m.sink = .unbounded) : ∀ {k : Nat} {s : State}, m.run k s = (t, st) → s.log <:+ t.log
  | 0, s, h => by
    cases h
    exact List.suffix_rfl
  | k + 1, s, h => by
    have hone : s.log <:+ (m.step s).1.log := by
      rcases step_unbounded hm s with ⟨-, hlog⟩ | ⟨i, w, -, hstep⟩
      · exact ⟨[], hlog.symm⟩
      · rw [hstep]
        exact List.suffix_cons w s.log
    rcases run_cases h with ⟨u, hu, hrun⟩ | ⟨hstep, -⟩
    · rw [hu] at hone
      exact hone.trans (suffix_run hm hrun)
    · rw [hstep] at hone
      exact hone

/-- While the writes fit, a step is the same. -/
theorem step_withSink (hm : m.sink = .unbounded) (hsink : sink.TakesFirst n) (h : (m.step s).1.log.length ≤ n) :
    (m.withSink sink).step s = m.step s := by
  rcases step_unbounded hm s with ⟨hsame, -⟩ | ⟨i, w, hw, hstep⟩
  · exact hsame sink
  · rw [hstep] at h
    rw [hw.step_of_taken (hsink.write_of_lt w h), hstep]

/-- **While the writes fit, a run is the same.** -/
theorem run_withSink (hm : m.sink = .unbounded) (hsink : sink.TakesFirst n) : ∀ {k : Nat} {s : State},
    (m.run k s).1.log.length ≤ n → (m.withSink sink).run k s = m.run k s
  | 0, s, _ => rfl
  | k + 1, s, h => by
    rcases hrun : m.run (k + 1) s with ⟨t, st⟩
    rw [hrun] at h
    rcases run_cases hrun with ⟨u, hu, hrest⟩ | ⟨hstep, hne⟩
    · have hle : u.log.length ≤ n := Nat.le_trans (suffix_run hm hrest).length_le h
      have hsame : (m.withSink sink).step s = (u, .running) := by
        rw [step_withSink hm hsink (by rw [hu]; exact hle), hu]
      rw [run_of_running k hsame, ← hrest]
      exact run_withSink hm hsink (by rw [hrest]; exact h)
    · have hsame : (m.withSink sink).step s = (t, st) := by
        rw [step_withSink hm hsink (by rw [hstep]; exact h), hstep]
      exact run_of_done k hsame hne

/-- **A run that writes more than so much makes the first write too many**, in a state in which it
has written just so much. -/
theorem exists_writing (hm : m.sink = .unbounded) : ∀ {k : Nat} {s : State}, s.log.length ≤ n →
    n < (m.run k s).1.log.length →
      ∃ j u i w, m.run j s = (u, .running) ∧ u.log.length = n ∧ m.Writing u i w
  | 0, s, hle, hlt => absurd hlt (Nat.not_lt.2 hle)
  | k + 1, s, hle, hlt => by
    by_cases hstep : (m.step s).1.log.length ≤ n
    · rcases hrun : m.run (k + 1) s with ⟨t, st⟩
      rw [hrun] at hlt
      rcases run_cases hrun with ⟨v, hv, hrest⟩ | ⟨hdone, -⟩
      · rw [hv] at hstep
        obtain ⟨j, u, i, w, hj, hu⟩ := exists_writing hm hstep (by rw [hrest]; exact hlt)
        exact ⟨j + 1, u, i, w, (run_of_running j hv).trans hj, hu⟩
      · rw [hdone] at hstep
        exact absurd hlt (Nat.not_lt.2 hstep)
    · rcases step_unbounded hm s with ⟨-, hlog⟩ | ⟨i, w, hw, hone⟩
      · rw [hlog] at hstep
        exact absurd hle hstep
      · rw [hone] at hstep
        have hlen : s.log.length = n := by
          simp only [List.length_cons] at hstep
          omega
        exact ⟨0, s, i, w, rfl, hlen, hw⟩

/-- The first writes of a run are those that it has made when there are so many. -/
theorem take_log_run (hm : m.sink = .unbounded) {j k : Nat} (hj : m.run j s = (u, .running)) (hu : u.log.length = n)
    (hk : m.run k s = (t, st)) (ht : n ≤ t.log.length) : t.log.reverse.take n = u.log.reverse := by
  have hsuffix : u.log <:+ t.log := by
    rcases Nat.le_total j k with hle | hle
    · obtain ⟨d, rfl⟩ := Nat.exists_eq_add_of_le hle
      rw [run_add d hj] at hk
      exact suffix_run hm hk
    · obtain ⟨v, hv⟩ := running_of_le hle hj
      rw [hk] at hv
      cases hv
      obtain ⟨d, rfl⟩ := Nat.exists_eq_add_of_le hle
      rw [run_add d hk] at hj
      have hback : t.log <:+ u.log := suffix_run hm hj
      exact ⟨[], (hback.eq_of_length_le (by omega)).symm⟩
  have hprefix := List.prefix_iff_eq_take.1 (List.reverse_prefix.2 hsuffix)
  rw [List.length_reverse, hu] at hprefix
  exact hprefix.symm

/-- **A sink that is full stops the run and changes nothing else.**  Compare a run with a sink that
takes so many writes, and nothing of any other one, to the run with a sink that takes
everything.  Up to where the latter has made no more writes they are the same, and so are their
ends.  If it makes more, the former ends at the instruction that makes the first write too many,
with what the sink says about that write; its output is the writes before that one, which are
the first ones of the latter, and all else is as it was before the instruction. -/
theorem run_into_full_sink (hsink : sink.TakesFirst n) (p : Program) (limit : Option Nat) :
    load p limit sink = (load p limit .unbounded).map (·.withSink sink) ∧
    ∀ m input, load p limit .unbounded = .ok m →
      (∀ k, (m.run k (.start input)).1.log.length ≤ n →
        (m.withSink sink).run k (.start input) = m.run k (.start input)) ∧
      ((∃ k, n < (m.run k (.start input)).1.log.length) → ∃ j u i w why,
        m.run j (.start input) = (u, .running) ∧ u.log.length = n ∧ m.Writing u i w ∧
        m.step u = ({ u.counted with ip := u.ip + 1, log := w :: u.log }, .running) ∧
        sink.refusal? u.log w = some ⟨why, []⟩ ∧
        (m.withSink sink).Ends (.start input) u.counted (.failed ⟨u.ip, .output why⟩) ∧
        ∀ k t st, m.run k (.start input) = (t, st) → n ≤ t.log.length → t.log.reverse.take n = u.log.reverse) := by
  constructor
  · unfold load
    cases Labels.ofProgram p <;> rfl
  · intro m input hload
    obtain ⟨labels, -, rfl⟩ := load_eq_ok.1 hload
    refine ⟨fun k hk => run_withSink rfl hsink hk, fun ⟨k, hk⟩ => ?_⟩
    obtain ⟨j, u, i, w, hj, hu, hw⟩ := exists_writing rfl (Nat.zero_le n) hk
    obtain ⟨why, hwhy, hrefused⟩ := hsink.write_of_le w (Nat.le_of_eq hu.symm)
    have hsame := (run_withSink rfl hsink (by rw [hj]; exact Nat.le_of_eq hu)).trans hj
    exact ⟨j, u, i, w, why, hj, hu, hw, hw.step_of_taken (Sink.write_unbounded w u.log), hwhy,
      ends_of_last hsame (hw.step_of_refused hrefused) (by simp),
      fun k t st hrun hle => take_log_run rfl hj hu hrun hle⟩

/-- A run without an end: its fourth write is the second one of the same instruction. -/
theorem run_into_full_sink_of_loop :
    let p : Program := ⟨[⟨.label, 1, [.const (.label "l")]⟩, ⟨.brk, 2, []⟩, ⟨.write, 3, [.const (.text "a")]⟩,
      ⟨.jump, 4, [.const (.label "l")]⟩]⟩
    let m : Machine := ⟨p.instructions.toArray, [("l", 0)], none, .unbounded⟩
    (Sink.bounded 3 "full").TakesFirst 3 ∧ load p none .unbounded = .ok m ∧
      3 < (m.run 7 (.start .nothing)).1.log.length ∧ ∃ u : State, u.log.length = 3 ∧ u.log.output = "a" ∧
        (m.withSink (.bounded 3 "full")).Ends (.start .nothing) u.counted (.failed ⟨u.ip, .output "full"⟩) := by
  intro p m
  have hsink : (Sink.bounded 3 "full").TakesFirst 3 := Sink.bounded_takesFirst 3 "full"
  have hload : load p none .unbounded = .ok m := rfl
  have hmore : 3 < (m.run 7 (.start .nothing)).1.log.length := by decide +kernel
  obtain ⟨-, hall⟩ := run_into_full_sink hsink p none
  obtain ⟨j, u, i, w, why, -, hu, -, -, hwhy, hends, hfirst⟩ := (hall m .nothing hload).2 ⟨7, hmore⟩
  have hlog := hfirst 7 _ _ rfl (Nat.le_of_lt hmore)
  have hfull : why = "full" := by
    unfold Sink.bounded at hwhy
    simp only [hu, Nat.lt_irrefl, if_false] at hwhy
    cases hwhy
    rfl
  have houtput : u.log.output = "a" := by
    unfold Log.output
    rw [← hlog]
    decide +kernel
  exact ⟨hsink, hload, hmore, u, hu, houtput, hfull ▸ hends⟩

end Machine

end IppCode
