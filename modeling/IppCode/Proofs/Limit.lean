import IppCode.Proofs.Effects
/-!
# Limit — a run with a limit is the beginning of the run without one

A step counts the instruction that it runs (`step_running`), and below its limit a machine
does what it does without one (`run_withLimit`).  So a run that starts fewer instructions
than the limit allows is not changed by it, and any other one is cut off where the run
without a limit stands after as many instructions (`run_under_limit`).
-/
namespace IppCode.Machine

variable {m : Machine} {s t : State} {st : Status} {limit : Nat}

/-! ## Counting instructions -/

/-- A step counts the instruction that it starts, however that comes out. -/
theorem step_counts {i : Instruction} (hi : m.code[s.ip]? = some i) (hm : m.exhausted? s = none)
    (h : m.step s = (t, st)) : t.steps = s.steps + 1 := by
  unfold step at h
  rw [hi, hm] at h
  simp only at h
  split at h
  · rename_i flow s' hok
    have hsteps := (effect_of_perform hok).steps_eq
    cases flow <;> cases h <;> exact hsteps
  · rename_i fault s' hfault
    cases h
    obtain ⟨log, -, rfl⟩ := m.perform_atomic i _ _ _ hfault
    rfl

/-- A step that goes on has run an instruction. -/
theorem step_running (h : m.step s = (t, .running)) :
    (∃ i, m.code[s.ip]? = some i) ∧ t.steps = s.steps + 1 := by
  obtain ⟨i, flow, u, hi, heffect, hfollow⟩ := effect_of_running h
  refine ⟨⟨i, hi⟩, ?_⟩
  rw [eq_of_follow hfollow]
  exact heffect.steps_eq

theorem run_counts : ∀ {n : Nat} {s : State}, m.run n s = (t, .running) → t.steps = s.steps + n
  | 0, s, h => by
    cases h
    rfl
  | n + 1, s, h => by
    rcases run_cases h with ⟨u, hu, hrun⟩ | ⟨-, hne⟩
    · rw [run_counts hrun, (step_running hu).2]
      omega
    · exact absurd rfl hne

/-! ## With and without a limit -/

def withLimit (m : Machine) (limit : Nat) : Machine := { m with limit := some limit }

theorem exhausted_withLimit (m : Machine) (limit : Nat) (s : State) :
    (m.withLimit limit).exhausted? s = if limit ≤ s.steps then some limit else none := by
  unfold exhausted? withLimit
  by_cases h : limit ≤ s.steps <;> simp [Option.filter, h]

theorem exhausted_eq_none (hm : m.limit = none) (s : State) : m.exhausted? s = none := by
  unfold exhausted?
  rw [hm]
  rfl

/-- Below the limit a step is the same. -/
theorem step_withLimit (hm : m.limit = none) (h : s.steps < limit) :
    (m.withLimit limit).step s = m.step s := by
  have hlim : (m.withLimit limit).exhausted? s = none := by
    rw [exhausted_withLimit, if_neg (by omega)]
  unfold step
  rw [hlim, exhausted_eq_none hm]
  rfl

/-- Past the last instruction a run is complete, whatever the limit. -/
theorem step_past_end (h : m.code[s.ip]? = none) : m.step s = (s, .ended .completed) := by
  unfold step
  rw [h]

theorem step_at_limit {i : Instruction} (hi : m.code[s.ip]? = some i) (h : limit ≤ s.steps) :
    (m.withLimit limit).step s = (s, .failed ⟨s.ip, .stepLimit limit⟩) := by
  have hi' : (m.withLimit limit).code[s.ip]? = some i := hi
  have hlim : (m.withLimit limit).exhausted? s = some limit := by
    rw [exhausted_withLimit, if_pos h]
  unfold step
  rw [hi', hlim]

/-- **Up to the limit a run is the same.** -/
theorem run_withLimit (hm : m.limit = none) : ∀ {n : Nat} {s : State}, m.run n s = (t, .running) →
    s.steps + n ≤ limit → (m.withLimit limit).run n s = (t, .running)
  | 0, s, h, _ => h
  | n + 1, s, h, hle => by
    rcases run_cases h with ⟨u, hu, hrun⟩ | ⟨-, hne⟩
    · have hcount := (step_running hu).2
      rw [run_of_running n ((step_withLimit hm (by omega)).trans hu)]
      exact run_withLimit hm hrun (by omega)
    · exact absurd rfl hne

/-- The limit cuts the run off: it ends in the state that the run without a limit has after
as many instructions, at the instruction that would be next. -/
def CutShort (m : Machine) (limit : Nat) (s : State) : Prop :=
  ∃ t, m.run limit s = (t, .running) ∧ t.steps = limit ∧
    (m.withLimit limit).Ends s t (.failed ⟨t.ip, .stepLimit limit⟩)

theorem cutShort_of_running (hm : m.limit = none) (hs : s.steps = 0) {i : Instruction}
    (h : m.run limit s = (t, .running)) (hi : m.code[t.ip]? = some i) : m.CutShort limit s := by
  have hcount : t.steps = limit := by
    rw [run_counts h, hs, Nat.zero_add]
  have hrun : (m.withLimit limit).run limit s = (t, .running) := run_withLimit hm h (by omega)
  exact ⟨t, h, hcount, ends_of_last hrun (step_at_limit hi (Nat.le_of_eq hcount.symm)) (by simp)⟩

theorem cutShort_of_lt (hm : m.limit = none) (hs : s.steps = 0) {n : Nat}
    (h : m.run n s = (t, .running)) (hlt : limit < n) : m.CutShort limit s := by
  obtain ⟨u, hu⟩ := running_of_le (Nat.le_of_lt hlt) h
  obtain ⟨v, hv⟩ := running_of_le hlt h
  rw [run_succ hu] at hv
  obtain ⟨i, hi⟩ := (step_running hv).1
  exact cutShort_of_running hm hs hu hi

theorem run_withLimit_ends (m : Machine) (limit : Nat) (s : State) :
    ((m.withLimit limit).run (limit + 1) s).2 ≠ .running := by
  intro h
  rcases hrun : (m.withLimit limit).run (limit + 1) s with ⟨t, st⟩
  rw [hrun] at h
  simp only at h
  subst h
  obtain ⟨u, hu⟩ := running_of_le (Nat.le_succ limit) hrun
  rw [run_succ hu] at hrun
  obtain ⟨i, hi⟩ := (step_running hrun).1
  have hcount := run_counts hu
  have hstep : (m.withLimit limit).step u = (u, .failed ⟨u.ip, .stepLimit limit⟩) :=
    step_at_limit hi (by omega)
  rw [hstep] at hrun
  cases hrun

/-- What ends within the limit ends in the same way, and anything that takes longer is cut short. -/
theorem ends_withLimit (hm : m.limit = none) (hs : s.steps = 0) (h : m.Ends s t st) :
    (t.steps ≤ limit → (m.withLimit limit).Ends s t st) ∧ (limit < t.steps → m.CutShort limit s) := by
  obtain ⟨n, u, hu, hstep⟩ := h.last
  have hne : st ≠ .running := h.choose_spec.2
  have hcount := run_counts hu
  cases hi : m.code[u.ip]? with
  | none =>
    -- The program is complete: the last step has started no instruction.
    have hdone := step_past_end hi
    rw [hstep] at hdone
    cases hdone
    constructor
    · intro hle
      exact ends_of_last (run_withLimit hm hu (by omega)) (step_past_end hi) hne
    · intro hlt
      exact cutShort_of_lt hm hs hu (by omega)
  | some i =>
    have hlast := step_counts hi (exhausted_eq_none hm u) hstep
    constructor
    · intro hle
      exact ends_of_last (run_withLimit hm hu (by omega)) ((step_withLimit hm (by omega)).trans hstep) hne
    · intro hlt
      rcases Nat.lt_or_ge limit n with hlt' | hge
      · exact cutShort_of_lt hm hs hu hlt'
      · obtain rfl : n = limit := by omega
        exact cutShort_of_running hm hs hu hi

/-- A run without an end is cut short by every limit. -/
theorem cutShort_of_endless (hm : m.limit = none) (hs : s.steps = 0) (h : ∀ t st, ¬ m.Ends s t st) :
    m.CutShort limit s := by
  rcases hrun : m.run (limit + 1) s with ⟨t, st⟩
  have hst : st = .running := by
    by_contra hne
    exact h t st ⟨limit + 1, hrun, hne⟩
  subst hst
  exact cutShort_of_lt hm hs hrun (Nat.lt_succ_self limit)

/-- **A limit changes nothing but where the run stops.**  A run that ends with no more
instructions started than the limit allows ends in the same state and in the same way; any
other one, also one without an end, is cut off where it stands after as many
instructions.  In any case the end comes within one step more than the limit. -/
theorem run_under_limit {p : Program} {sink : Sink} {m : Machine} (h : load p none sink = .ok m)
    (input : Input) (limit : Nat) :
    load p (some limit) sink = .ok (m.withLimit limit) ∧
    (∀ t st, m.Ends (.start input) t st →
      (t.steps ≤ limit → (m.withLimit limit).Ends (.start input) t st) ∧
      (limit < t.steps → m.CutShort limit (.start input))) ∧
    ((∀ t st, ¬ m.Ends (.start input) t st) → m.CutShort limit (.start input)) ∧
    ((m.withLimit limit).run (limit + 1) (.start input)).2 ≠ .running := by
  obtain ⟨labels, hlabels, rfl⟩ := load_eq_ok.1 h
  have hload : load p (some limit) sink = .ok ⟨p.instructions.toArray, labels, some limit, sink⟩ :=
    load_eq_ok.2 ⟨labels, hlabels, rfl⟩
  exact ⟨hload, fun t st hends => ends_withLimit rfl rfl hends, fun hnever => cutShort_of_endless rfl rfl hnever,
    run_withLimit_ends _ limit _⟩

/-- The instruction that ends the program may be the last one that the limit allows. -/
theorem exit_under_limit :
    load ⟨[⟨.exit, 1, [.const (.int 3)]⟩]⟩ none .quiet =
      .ok ⟨#[⟨.exit, 1, [.const (.int 3)]⟩], [], none, .quiet⟩ ∧
    (withLimit ⟨#[⟨.exit, 1, [.const (.int 3)]⟩], [], none, .quiet⟩ 1).Ends (.start .nothing)
      { State.start .nothing with steps := 1 } (.ended (.exited 3)) := by
  have h : load ⟨[⟨.exit, 1, [.const (.int 3)]⟩]⟩ none .quiet =
      .ok ⟨#[⟨.exit, 1, [.const (.int 3)]⟩], [], none, .quiet⟩ := rfl
  exact ⟨h, ((run_under_limit h .nothing 1).2.1 _ _ ⟨1, rfl, by simp⟩).1 (by decide)⟩

end IppCode.Machine
