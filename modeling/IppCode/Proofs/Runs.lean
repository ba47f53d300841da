import IppCode.Machine.Step
/-!
# Runs — the steps of a machine, one after another

A run goes on from where it stands (`run_add`), and a run that ends does so in a last step
(`Ends.last`).  Steps may also be called on after the end: `after` counts the calls, not
the instructions, and `results` has what each call comes to.
-/
namespace IppCode.Machine

variable {m : Machine} {s t : State} {st : Status}

theorem load_eq_ok {p : Program} {limit : Option Nat} {sink : Sink} : load p limit sink = .ok m ↔
    ∃ labels, Labels.ofProgram p = .ok labels ∧ m = ⟨p.instructions.toArray, labels, limit, sink⟩ := by
  unfold load
  cases Labels.ofProgram p with
  | error e => simp
  | ok labels => simp [eq_comm]

/-- The state after so many calls of a step, whatever each of them comes to. -/
def after (m : Machine) : Nat → State → State
  | 0,     s => s
  | n + 1, s => after m n (m.step s).1

/-- **What every step keeps, a run keeps.** -/
theorem after_of_step {P : State → Prop} (hstep : ∀ s, P s → P (m.step s).1) :
    ∀ (n : Nat) {s : State}, P s → P (m.after n s)
  | 0, _, hs => hs
  | n + 1, s, hs => after_of_step hstep n (hstep s hs)

/-- What so many calls of a step come to, one after another. -/
def results (m : Machine) : Nat → State → List Status
  | 0,     _ => []
  | n + 1, s => (m.step s).2 :: results m n (m.step s).1

/-- **A run comes to an end**, in a state and with a status that says how. -/
def Ends (m : Machine) (s t : State) (st : Status) : Prop :=
  ∃ n, m.run n s = (t, st) ∧ st ≠ .running

theorem run_of_running (n : Nat) (h : m.step s = (t, .running)) : m.run (n + 1) s = m.run n t := by
  rw [run, h]

theorem run_of_done (n : Nat) (h : m.step s = (t, st)) (hst : st ≠ .running) :
    m.run (n + 1) s = (t, st) := by
  unfold run
  rw [h]
  cases st with
  | running => exact absurd rfl hst
  | ended how => rfl
  | failed why => rfl

/-- A run either goes on after its first step or ends with it. -/
theorem run_cases {n : Nat} (h : m.run (n + 1) s = (t, st)) :
    (∃ u, m.step s = (u, .running) ∧ m.run n u = (t, st)) ∨ (m.step s = (t, st) ∧ st ≠ .running) := by
  rcases hu : m.step s with ⟨u, st'⟩
  by_cases hst : st' = .running
  · subst hst
    rw [run_of_running n hu] at h
    exact .inl ⟨u, rfl, h⟩
  · rw [run_of_done n hu hst] at h
    cases h
    exact .inr ⟨rfl, hst⟩

theorem run_one (m : Machine) (s : State) : m.run 1 s = m.step s := by
  rcases hr : m.run 1 s with ⟨t, st⟩
  rcases run_cases hr with ⟨u, hu, hrun⟩ | ⟨hstep, -⟩
  · cases hrun
    exact hu.symm
  · exact hstep.symm

theorem run_add : ∀ {a : Nat} (b : Nat) {s : State}, m.run a s = (t, .running) →
    m.run (a + b) s = m.run b t
  | 0, b, s, h => by
    cases h
    rw [Nat.zero_add]
  | a + 1, b, s, h => by
    rcases run_cases h with ⟨u, hu, hrun⟩ | ⟨-, hne⟩
    · rw [Nat.add_right_comm, run_of_running (a + b) hu]
      exact run_add b hrun
    · exact absurd rfl hne

theorem run_succ {n : Nat} (h : m.run n s = (t, .running)) : m.run (n + 1) s = m.step t := by
  rw [run_add 1 h, run_one]

theorem running_of_le : ∀ {a b : Nat}, a ≤ b → ∀ {s : State}, m.run b s = (t, .running) →
    ∃ u, m.run a s = (u, .running)
  | 0, _, _, s, _ => ⟨s, rfl⟩
  | a + 1, 0, hab, _, _ => absurd hab (Nat.not_succ_le_zero a)
  | a + 1, b + 1, hab, s, h => by
    rcases run_cases h with ⟨u, hu, hrun⟩ | ⟨-, hne⟩
    · obtain ⟨v, hv⟩ := running_of_le (Nat.le_of_succ_le_succ hab) hrun
      exact ⟨v, by rw [run_of_running a hu, hv]⟩
    · exact absurd rfl hne

/-- A run that has ended stays as it is. -/
theorem run_of_le : ∀ {a b : Nat}, a ≤ b → ∀ {s : State}, m.run a s = (t, st) → st ≠ .running →
    m.run b s = (t, st)
  | 0, _, _, _, h, hst => by
    cases h
    exact absurd rfl hst
  | a + 1, 0, hab, _, _, _ => absurd hab (Nat.not_succ_le_zero a)
  | a + 1, b + 1, hab, s, h, hst => by
    rcases run_cases h with ⟨u, hu, hrun⟩ | ⟨hstep, -⟩
    · rw [run_of_running b hu]
      exact run_of_le (Nat.le_of_succ_le_succ hab) hrun hst
    · exact run_of_done b hstep hst

/-- **A run ends in one way only.** -/
theorem Ends.unique {t' : State} {st' : Status} (h : m.Ends s t st) (h' : m.Ends s t' st') : t = t' ∧ st = st' := by
  obtain ⟨n, hn, hst⟩ := h
  obtain ⟨n', hn', hst'⟩ := h'
  rcases Nat.le_total n n' with hle | hle
  · exact Prod.mk.inj ((run_of_le hle hn hst).symm.trans hn')
  · exact Prod.mk.inj (hn.symm.trans (run_of_le hle hn' hst'))

/-- **A run that ends has a last step.** -/
theorem exists_last : ∀ {n : Nat} {s : State}, m.run n s = (t, st) → st ≠ .running →
    ∃ k u, m.run k s = (u, .running) ∧ m.step u = (t, st)
  | 0, s, h, hst => by
    cases h
    exact absurd rfl hst
  | n + 1, s, h, hst => by
    rcases run_cases h with ⟨u, hu, hrun⟩ | ⟨hstep, -⟩
    · obtain ⟨k, v, hv, hstep⟩ := exists_last hrun hst
      exact ⟨k + 1, v, by rw [run_of_running k hu, hv], hstep⟩
    · exact ⟨0, s, rfl, hstep⟩

theorem Ends.last (h : m.Ends s t st) : ∃ n u, m.run n s = (u, .running) ∧ m.step u = (t, st) := by
  obtain ⟨n, hrun, hst⟩ := h
  exact exists_last hrun hst

theorem ends_of_last {n : Nat} {u : State} (h : m.run n s = (u, .running)) (hstep : m.step u = (t, st))
    (hst : st ≠ .running) : m.Ends s t st :=
  ⟨n + 1, by rw [run_succ h, hstep], hst⟩

theorem after_of_running : ∀ {n : Nat} {s : State}, m.run n s = (t, .running) → m.after n s = t
  | 0, s, h => by
    cases h
    rfl
  | n + 1, s, h => by
    rcases run_cases h with ⟨u, hu, hrun⟩ | ⟨-, hne⟩
    · rw [after, hu]
      exact after_of_running hrun
    · exact absurd rfl hne

theorem exists_call {n : Nat} (h : m.run n s = (t, st)) (hst : st ≠ .running) :
    ∃ k, m.step (m.after k s) = (t, st) := by
  obtain ⟨k, u, hu, hstep⟩ := exists_last h hst
  exact ⟨k, by rw [after_of_running hu, hstep]⟩

end IppCode.Machine
