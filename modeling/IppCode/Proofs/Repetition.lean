import IppCode.Proofs.Lockstep
import IppCode.Proofs.Writes
/-!
# Repetition — calls after the end of a run

An instruction that fails without having written, and one that ends the program, leave the state as
it was, and nothing that they look at is the step counter; so performed once more they come to
the same (`perform_again`).  A run that has ended therefore answers every further call, for a step
or for a run to the end, as it has answered the last one, until the limit has been reached, and
nothing but the step counter changes (`settled_stays`).
-/
namespace IppCode

open IppCode.Action (InStep Outcomes)

/-! ## Statuses -/

/-- The run is at an end, and that is not because a write was refused. -/
def Status.Settled : Status → Prop
  | .running    => False
  | .ended _    => True
  | .failed why => ∀ words, why.fault ≠ .output words

/-- A step that comes to the status has started an instruction, which is counted. -/
def Status.started : Status → Bool
  | .ended .completed         => false
  | .failed ⟨_, .stepLimit _⟩ => false
  | _                         => true

/-! ## Instructions -/

/-- The states differ in the step counter at most. -/
def State.UpToSteps (s t : State) : Prop := ∃ n, t = { s with steps := n }

theorem State.UpToSteps.coupling : Coupling State.UpToSteps (Action.Same State.UpToSteps) where
  frames_eq := by rintro s _ ⟨n, rfl⟩; rfl
  data_eq := by rintro s _ ⟨n, rfl⟩; rfl
  set_frames := by rintro s _ fs ⟨n, rfl⟩; exact ⟨n, rfl⟩
  set_data := by rintro s _ data ⟨n, rfl⟩; exact ⟨n, rfl⟩
  loosen := fun _ _ _ h => ⟨rfl, h⟩

namespace Machine

variable {m : Machine} {i : Instruction} {s t : State} {st : Status} {fault : Fault}

/-- **The step counter is only seen in what is written**: with a sink that takes everything and drops
diagnostics, an instruction comes to the same whatever the counter shows. -/
theorem inStep_upToSteps (m : Machine) (i : Instruction) :
    InStep State.UpToSteps (Action.Same State.UpToSteps) Eq ((m.withSink .quiet).perform i) ((m.withSink .quiet).perform i) := by
  refine inStep_perform State.UpToSteps.coupling rfl rfl rfl (fun _ => rfl) (targetsAgree_of_labels rfl) ?_ ?_ ?_ ?_ ?_ ?_
  · rintro s _ ⟨n, rfl⟩
    exact .ok trivial ⟨n, rfl⟩
  · rintro s _ ⟨n, rfl⟩
    unfold Action.popCall
    cases s.calls.pop with
    | none => exact .error ⟨rfl, n, rfl⟩
    | some p => exact .ok rfl ⟨n, rfl⟩
  · rintro - name s _ ⟨n, rfl⟩
    exact .ok rfl ⟨n, rfl⟩
  · rintro text s _ ⟨n, rfl⟩
    exact .ok rfl ⟨n, rfl⟩
  · rintro text s _ ⟨n, rfl⟩
    exact .ok rfl ⟨n, rfl⟩
  · rintro s _ ⟨n, rfl⟩
    exact .ok rfl ⟨n, rfl⟩

/-- An instruction that writes and fails before it does so has found nothing to write. -/
theorem written_of_perform_error (hop : i.opcode.writes = true) (h : m.perform i s = .error fault t)
    (hout : ∀ why, fault ≠ .output why) : s.written i = .error fault ∧ t = s := by
  rw [perform_of_writes m s hop] at h
  cases hw : s.written i with
  | error why =>
    rw [hw] at h
    cases h
    exact ⟨rfl, rfl⟩
  | ok w =>
    rw [hw] at h
    obtain ⟨why, log, -, rfl, -⟩ := Action.send_eq_error.1 (Action.proceed_eq_error.1 h)
    exact absurd rfl (hout why)

/-- And it finds nothing whatever the step counter shows: the summary of the state, which shows the
counter, can always be written. -/
theorem written_again (h : s.written i = .error fault) (n : Nat) :
    State.written { s with steps := n } i = .error fault := by
  unfold State.written at h ⊢
  split at h
  · exact h
  · exact h
  · cases h

/-- **An instruction that fails, but not at a write, changes nothing.** -/
theorem eq_of_perform_error (h : m.perform i s = .error fault t) (hout : ∀ why, fault ≠ .output why) : t = s := by
  cases hop : i.opcode.writes with
  | true => exact (written_of_perform_error hop h hout).2
  | false =>
    -- With a sink that takes everything there is no write of which a part may have been taken.
    rw [← perform_withSink m .quiet hop] at h
    obtain ⟨log, rfl | ⟨w, r, hr, -⟩, rfl⟩ := perform_atomic _ i s _ _ h
    · rfl
    · cases hr

theorem eq_of_perform_exit {code : Fin 10} (h : m.perform i s = .ok (.exit code) t) :
    t = s ∧ i.opcode.writes = false := by
  cases effect_of_perform h with
  | exited hop => exact ⟨rfl, by rw [hop]; rfl⟩

/-- **What has failed fails again**, with the same fault, whatever the step counter shows. -/
theorem perform_error_again (h : m.perform i s = .error fault t) (hout : ∀ why, fault ≠ .output why) (n : Nat) :
    m.perform i { s with steps := n } = .error fault { s with steps := n } := by
  cases hop : i.opcode.writes with
  | true =>
    rw [perform_of_writes _ _ hop, written_again (written_of_perform_error hop h hout).1 n]
  | false =>
    have hboth := inStep_upToSteps m i s { s with steps := n } ⟨n, rfl⟩
    rw [perform_withSink m .quiet hop, h] at hboth
    cases hagain : m.perform i { s with steps := n } with
    | ok flow u =>
      rw [hagain] at hboth
      cases hboth
    | error why u =>
      rw [hagain] at hboth
      cases hboth with
      | error hsame =>
        obtain ⟨rfl, -⟩ := hsame
        rw [eq_of_perform_error hagain hout]

/-- **What has ended the program ends it again.** -/
theorem perform_exit_again {code : Fin 10} (h : m.perform i s = .ok (.exit code) t) (n : Nat) :
    m.perform i { s with steps := n } = .ok (.exit code) { s with steps := n } := by
  have hboth := inStep_upToSteps m i s { s with steps := n } ⟨n, rfl⟩
  rw [perform_withSink m .quiet (eq_of_perform_exit h).2, h] at hboth
  cases hagain : m.perform i { s with steps := n } with
  | error why u =>
    rw [hagain] at hboth
    cases hboth
  | ok flow u =>
    rw [hagain] at hboth
    cases hboth with
    | ok hflow =>
      subst hflow
      rw [(eq_of_perform_exit hagain).1]

/-! ## Steps -/

/-- **Whatever the step counter shows, a step in the state comes to the status** and changes nothing
but the counter, unless the limit has been reached. -/
structure Repeats (m : Machine) (s : State) (st : Status) : Prop where
  code  : ∃ i, m.code[s.ip]? = some i
  ended : st ≠ .running
  again : ∀ n, m.exhausted? { s with steps := n } = none →
    m.step { s with steps := n } = ({ s with steps := n + 1 }, st)

theorem repeats_of_exit {code : Fin 10} (hi : m.code[s.ip]? = some i) (h : m.perform i s = .ok (.exit code) t) :
    m.Repeats s (.ended (.exited code)) :=
  ⟨⟨i, hi⟩, nofun, fun n hn => step_of_perform (s := { s with steps := n }) hi hn (perform_exit_again h (n + 1))⟩

theorem repeats_of_error (hi : m.code[s.ip]? = some i) (h : m.perform i s = .error fault t)
    (hout : ∀ why, fault ≠ .output why) : m.Repeats s (.failed ⟨s.ip, fault⟩) :=
  ⟨⟨i, hi⟩, nofun, fun n hn => step_of_fault (s := { s with steps := n }) hi hn (perform_error_again h hout (n + 1))⟩

/-- **A step that settles a run leaves the state as it was**, if it has started no instruction, or
has counted one that does the same again. -/
theorem settled_cases (h : m.step s = (t, st)) (hst : st.Settled) :
    (st.started = false ∧ t = s) ∨
      (st.started = true ∧ t = s.counted ∧ m.exhausted? s = none ∧ m.Repeats t st) := by
  cases hi : m.code[s.ip]? with
  | none =>
    rw [step_past_end hi] at h
    cases h
    exact .inl ⟨rfl, rfl⟩
  | some i =>
    cases hlimit : m.exhausted? s with
    | some limit =>
      unfold step at h
      rw [hi, hlimit] at h
      cases h
      exact .inl ⟨rfl, rfl⟩
    | none =>
      cases hperform : m.perform i s.counted with
      | ok flow u =>
        rw [step_of_perform hi hlimit hperform] at h
        cases flow with
        | next | jump =>
          cases h
          exact hst.elim
        | exit code =>
          cases h
          obtain ⟨rfl, -⟩ := eq_of_perform_exit hperform
          exact .inr ⟨rfl, rfl, rfl, repeats_of_exit (s := s.counted) hi hperform⟩
      | error fault u =>
        rw [step_of_fault hi hlimit hperform] at h
        cases h
        obtain rfl := eq_of_perform_error hperform hst
        have hfault : i.FaultOf fault := m.faultOf_perform i _ _ _ hperform
        have hstarted : Status.started (.failed ⟨s.ip, fault⟩) = true := by
          cases fault with
          | stepLimit limit => exact hfault.elim
          | _ => rfl
        exact .inr ⟨hstarted, rfl, rfl, repeats_of_error (s := s.counted) hi hperform hst⟩

end Machine

/-! ## Calls -/

/-- What a machine can be asked for: one step, or a run to the end, which is waited for during so many
further steps. -/
inductive Call
  | step
  | execute (patience : Nat)

namespace Machine

variable {m : Machine} {s t : State} {st : Status} {n : Nat}

def answer (m : Machine) (s : State) : Call → State × Status
  | .step             => m.step s
  | .execute patience => m.run (patience + 1) s

/-- The state after the calls, one after another. -/
def afterCalls (m : Machine) : List Call → State → State
  | [],      s => s
  | c :: cs, s => afterCalls m cs (m.answer s c).1

/-- A run of which the first step is the last is that step. -/
theorem answer_of_done (h : m.step s = (t, st)) (hst : st ≠ .running) (c : Call) : m.answer s c = (t, st) := by
  cases c with
  | step => exact h
  | execute patience => exact run_of_done patience h hst

theorem afterCalls_of_same (h : m.step s = (s, st)) (hst : st ≠ .running) : ∀ cs : List Call, m.afterCalls cs s = s
  | []      => rfl
  | c :: cs => by
    rw [afterCalls, answer_of_done h hst c]
    exact afterCalls_of_same h hst cs

theorem Repeats.step_at_limit (h : m.Repeats s st) {limit : Nat} (hlimit : m.limit = some limit) (hn : limit ≤ n) :
    m.step { s with steps := n } = ({ s with steps := n }, .failed ⟨s.ip, .stepLimit limit⟩) := by
  obtain ⟨i, hi⟩ := h.code
  have hm : m = m.withLimit limit := by
    unfold withLimit
    rw [← hlimit]
  rw [hm]
  exact Machine.step_at_limit (s := { s with steps := n }) hi hn

theorem exhausted_eq_none_iff : m.exhausted? s = none ↔ ∀ limit, m.limit = some limit → s.steps < limit := by
  unfold exhausted?
  cases m.limit <;> simp [Option.filter]

/-- **Below the limit each call counts one instruction.** -/
theorem Repeats.afterCalls_below (h : m.Repeats s st) : ∀ (cs : List Call) {n : Nat},
    (∀ limit, m.limit = some limit → n + cs.length ≤ limit) →
      m.afterCalls cs { s with steps := n } = { s with steps := n + cs.length }
  | [],      _, _ => rfl
  | c :: cs, n, hn => by
    have hlt : ∀ limit, m.limit = some limit → n < limit := fun limit hlimit => by
      have hle := hn limit hlimit
      rw [List.length_cons] at hle
      omega
    have hstep := h.again n (exhausted_eq_none_iff.2 hlt)
    rw [afterCalls, answer_of_done hstep h.ended c, List.length_cons, Nat.add_comm cs.length, ← Nat.add_assoc]
    refine h.afterCalls_below cs fun limit hlimit => ?_
    have hle := hn limit hlimit
    rw [List.length_cons] at hle
    omega

/-- **Calls that reach the limit stay there.** -/
theorem Repeats.afterCalls_limit (h : m.Repeats s st) {limit : Nat} (hlimit : m.limit = some limit) :
    ∀ (cs : List Call) {n : Nat}, n ≤ limit → limit ≤ n + cs.length →
      m.afterCalls cs { s with steps := n } = { s with steps := limit }
  | [],      n, hn, hreach => by
    obtain rfl : n = limit := Nat.le_antisymm hn hreach
    rfl
  | c :: cs, n, hn, hreach => by
    rw [List.length_cons] at hreach
    rcases Nat.lt_or_eq_of_le hn with hlt | rfl
    · have hbelow : ∀ other, m.limit = some other → n < other := fun other hother => by
        rw [hlimit] at hother
        cases hother
        exact hlt
      rw [afterCalls, answer_of_done (h.again n (exhausted_eq_none_iff.2 hbelow)) h.ended c]
      exact h.afterCalls_limit hlimit cs hlt (by omega)
    · exact afterCalls_of_same (h.step_at_limit hlimit (Nat.le_refl n)) nofun (c :: cs)

/-- **A run that has ended stays as it is.**  Take any state in which a step comes to the end of the
program, to an exit, or to an error other than that a write was refused.  All further calls, for a
step or for a run to the end, keep coming to that; only an exit and an error give way to the step
limit, from the call on at which as many instructions have been started.  In these calls nothing
changes but the step counter: it stays where no instruction is started, and otherwise counts every
call up to the limit. -/
theorem settled_stays (h : m.step s = (t, st)) (hst : st.Settled) (cs : List Call) (c : Call) :
    let u := m.afterCalls cs t
    (t = if st.started then s.counted else s) ∧
    (st.started = false → u = t ∧ m.answer u c = (t, st)) ∧
    (st.started = true →
      ((∀ limit, m.limit = some limit → t.steps + cs.length < limit) →
        u = { t with steps := t.steps + cs.length } ∧
          m.answer u c = ({ t with steps := t.steps + cs.length + 1 }, st)) ∧
      ∀ limit, m.limit = some limit → limit ≤ t.steps + cs.length →
        u = { t with steps := limit } ∧ m.answer u c = (u, .failed ⟨t.ip, .stepLimit limit⟩)) := by
  have hended : st ≠ .running := by
    rintro rfl
    exact hst
  intro u
  rcases settled_cases h hst with ⟨hnot, rfl⟩ | ⟨hstarted, ht, hexhausted, hrepeats⟩
  · have hu : u = t := afterCalls_of_same h hended cs
    refine ⟨by rw [hnot]; rfl, fun _ => ⟨hu, ?_⟩, fun hstarted => ?_⟩
    · rw [hu]
      exact answer_of_done h hended c
    · rw [hnot] at hstarted
      cases hstarted
  · refine ⟨by rw [hstarted]; exact ht, fun hnot => ?_, fun _ => ⟨fun hbelow => ?_, fun limit hlimit hreach => ?_⟩⟩
    · rw [hstarted] at hnot
      cases hnot
    · have hu : u = { t with steps := t.steps + cs.length } :=
        hrepeats.afterCalls_below cs fun limit hlimit => Nat.le_of_lt (hbelow limit hlimit)
      refine ⟨hu, ?_⟩
      rw [hu]
      exact answer_of_done (hrepeats.again _ (exhausted_eq_none_iff.2 hbelow)) hended c
    · -- The step was started, so its count does not exceed the limit.
      have hle : t.steps ≤ limit := by
        rw [ht]
        exact exhausted_eq_none_iff.1 hexhausted limit hlimit
      have hu : u = { t with steps := limit } := hrepeats.afterCalls_limit hlimit cs hle hreach
      refine ⟨hu, ?_⟩
      rw [hu]
      exact answer_of_done (hrepeats.step_at_limit hlimit (Nat.le_refl limit)) nofun c

/-- A value that cannot be stored is not taken off the stack, however often that is tried, and after
the fourth time the limit is reached. -/
theorem settled_stays_at_limit :
    let m : Machine :=
      ⟨#[⟨.label, 1, [.const (.label "a")]⟩, ⟨.pops, 2, [.var ⟨.gf, "x"⟩]⟩], [("a", 0)], some 5, .quiet⟩
    let s : State := { State.start .nothing with ip := 1, steps := 1, data := [.int 1] }
    let failed : Status := .failed ⟨1, .frame (.undefined "GF@x")⟩
    m.step s = ({ s with steps := 2 }, failed) ∧
    m.answer (m.afterCalls [.step, .execute 7] { s with steps := 2 }) .step = ({ s with steps := 5 }, failed) ∧
    m.answer (m.afterCalls [.step, .execute 7, .step, .step] { s with steps := 2 }) (.execute 0) =
      ({ s with steps := 5 }, .failed ⟨1, .stepLimit 5⟩) := by
  intro m s failed
  have hstep : m.step s = ({ s with steps := 2 }, failed) := rfl
  have hsettled : failed.Settled := nofun
  obtain ⟨-, -, hbelow⟩ := settled_stays hstep hsettled [.step, .execute 7] .step
  obtain ⟨-, -, hreach⟩ := settled_stays hstep hsettled [.step, .execute 7, .step, .step] (.execute 0)
  have hfar : ∀ limit, m.limit = some limit → 4 < limit := by
    rintro limit ⟨⟩
    decide
  obtain ⟨hu, hlast⟩ := (hreach rfl).2 5 rfl (by decide)
  rw [hu] at hlast ⊢
  exact ⟨hstep, ((hbelow rfl).1 hfar).2, hlast⟩

end Machine

end IppCode
