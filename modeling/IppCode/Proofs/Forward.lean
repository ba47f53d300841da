import Mathlib.Algebra.Ring.Nat
import IppCode.Proofs.Control
import IppCode.Proofs.Limit
/-!
# Forward — programs that only jump forward come to an end

Without a limit, and although a return goes back: what follows a call runs again for every
return to it, so the position alone is no measure.  Each position has three times the weight of
the next one, and a state has the weight of its position and of every address on its call
stack.  A call replaces one weight by two that are each at most a third of it, so every step
that goes on makes the state lighter (`weight_lt`), and a run has no more steps than its
first state has weight (`ends_of_forward`).
-/
namespace IppCode

/-- The operations that go to the label that is their first operand. -/
def Opcode.namesTarget : Opcode → Bool
  | call | jump | jumpIfEq | jumpIfNeq => true
  | _ => false

namespace Program

variable {p : Program} {s t : State}

/-- **Jumps and calls go forward**: a label that one names is defined further on, if anywhere. -/
def Forward (p : Program) : Prop :=
  ∀ (k j : Nat) (i l : Instruction) (name : Text), p.instructions[k]? = some i →
    i.opcode.namesTarget = true → i.args[0]? = some (.const (.label name)) →
    p.instructions[j]? = some l → l.IsLabel name → k < j

/-- The weight of a position, which is one at the end of the program. -/
def weightAt (p : Program) (k : Nat) : Nat := 3 ^ (p.instructions.length - k)

def weight (p : Program) (s : State) : Nat := p.weightAt s.ip + (s.calls.map p.weightAt).sum

theorem weight_pos (p : Program) (s : State) : 0 < p.weight s :=
  Nat.add_pos_left (Nat.pow_pos (by decide)) _

theorem weightAt_succ {k : Nat} (h : k < p.instructions.length) : p.weightAt k = 3 * p.weightAt (k + 1) := by
  have hgap : p.instructions.length - k = p.instructions.length - (k + 1) + 1 := by omega
  unfold weightAt
  rw [hgap, Nat.pow_succ']

theorem weightAt_le {j k : Nat} (h : j ≤ k) : p.weightAt k ≤ p.weightAt j :=
  Nat.pow_le_pow_right (by decide) (Nat.sub_le_sub_left h _)

/-- **Every move makes the state lighter.** -/
theorem weight_lt_of_moves (hp : p.Forward) {i : Instruction} (hi : p.instructions[s.ip]? = some i)
    (hmove : p.Moves i s t) : p.weight t < p.weight s := by
  have hthird := weightAt_succ (lt_length_of_getElem? hi)
  have hpos : 0 < p.weightAt (s.ip + 1) := Nat.pow_pos (by decide)
  have hahead : ∀ name l, i.opcode.namesTarget = true → i.args[0]? = some (.const (.label name)) →
      p.instructions[t.ip]? = some l → l.IsLabel name → p.weightAt t.ip ≤ p.weightAt (s.ip + 1) :=
    fun name l hop hname hl hdef => weightAt_le (hp s.ip t.ip i l name hi hop hname hl hdef)
  unfold weight
  cases hmove with
  | on _ hip hcalls =>
    rw [hip, hcalls]
    omega
  | jump hop hname hl hdef hcalls =>
    have hle := hahead _ _ (by rcases hop with hop | hop | hop <;> rw [hop] <;> rfl) hname hl hdef
    rw [hcalls]
    omega
  | call hop hname hl hdef hcalls =>
    have hle := hahead _ _ (by rw [hop]; rfl) hname hl hdef
    rw [hcalls, List.map_cons, List.sum_cons]
    omega
  | back _ hcalls =>
    rw [hcalls, List.map_cons, List.sum_cons]
    omega

end Program

namespace Machine

variable {m : Machine} {s t : State} {st : Status}

/-- **What cannot get lighter for ever comes to an end**, within as many steps as it has weight. -/
theorem run_ends_of_descent {weight : State → Nat} (hpos : ∀ s, 0 < weight s)
    (hstep : ∀ s t, m.step s = (t, .running) → weight t < weight s) (s : State) :
    ∃ n t st, m.run n s = (t, st) ∧ st ≠ .running ∧ n ≤ weight s := by
  induction hw : weight s using Nat.strongRecOn generalizing s with
  | ind w ih =>
    subst hw
    rcases hs : m.step s with ⟨u, st⟩
    by_cases hst : st = .running
    · subst hst
      have hlt := hstep s u hs
      obtain ⟨n, t, st, hrun, hne, hn⟩ := ih (weight u) hlt u rfl
      exact ⟨n + 1, t, st, by rw [run_of_running n hs, hrun], hne, by omega⟩
    · exact ⟨1, u, st, run_of_done 0 hs hst, hst, hpos s⟩

/-- A step starts at most one instruction. -/
theorem steps_step_le (m : Machine) (s : State) : (m.step s).1.steps ≤ s.steps + 1 := by
  rcases hs : m.step s with ⟨t, st⟩
  cases hi : m.code[s.ip]? with
  | none =>
    rw [step_past_end hi] at hs
    cases hs
    exact Nat.le_succ _
  | some i =>
    cases hm : m.exhausted? s with
    | none => exact Nat.le_of_eq (step_counts hi hm hs)
    | some limit =>
      unfold step at hs
      rw [hi, hm] at hs
      cases hs
      exact Nat.le_succ _

theorem steps_run_le : ∀ {n : Nat} {s : State}, m.run n s = (t, st) → t.steps ≤ s.steps + n
  | 0, s, h => by
    cases h
    exact Nat.le_refl _
  | n + 1, s, h => by
    have hone := m.steps_step_le s
    rcases run_cases h with ⟨u, hu, hrun⟩ | ⟨hs, -⟩
    · have hrest := steps_run_le hrun
      rw [hu] at hone
      simp only at hone
      omega
    · rw [hs] at hone
      simp only at hone
      omega

/-- **A program whose jumps and calls go forward ends**, whatever its input and its sink are, and
has then started at most as many instructions as three to the power of its length.  Returns
may be anywhere. -/
theorem ends_of_forward {p : Program} {sink : Sink} (hp : p.Forward) (h : load p none sink = .ok m)
    (input : Input) :
    ∃ t st, m.Ends (.start input) t st ∧ t.steps ≤ 3 ^ p.instructions.length := by
  have hstep : ∀ s t, m.step s = (t, .running) → p.weight t < p.weight s := fun s t hs => by
    obtain ⟨i, hi, hmove⟩ := moves_of_step h hs
    exact Program.weight_lt_of_moves hp hi hmove
  obtain ⟨n, t, st, hrun, hne, hn⟩ := run_ends_of_descent p.weight_pos hstep (.start input)
  have hsteps : t.steps ≤ 0 + n := steps_run_le hrun
  have hweight : p.weight (.start input) = 3 ^ p.instructions.length := rfl
  exact ⟨t, st, ⟨n, hrun, hne⟩, by omega⟩

/-- The last two instructions run twice, the second time after a return that goes back to them. -/
theorem ends_of_forward_call :
    let p : Program := ⟨[⟨.call, 1, [.const (.label "f")]⟩, ⟨.label, 2, [.const (.label "f")]⟩, ⟨.ret, 3, []⟩]⟩
    let m : Machine := ⟨p.instructions.toArray, [("f", 1)], none, .quiet⟩
    p.Forward ∧ load p none .quiet = .ok m ∧ (m.after 3 (.start .nothing)).ip = 1 ∧
      ∃ t st, m.Ends (.start .nothing) t st ∧ t.steps ≤ 27 := by
  intro p m
  have hp : p.Forward := by
    intro k j i l name hi hop hname hl hdef
    have hk : k = 0 := by
      -- Only the first instruction names a label to go to.
      match k, hi with
      | 0, _ => rfl
      | 1, rfl => cases hop
      | 2, rfl => cases hop
    have hj : j = 1 := by
      match j, hl with
      | 0, rfl => cases hdef.1
      | 1, _ => rfl
      | 2, rfl => cases hdef.1
    omega
  have h : load p none .quiet = .ok m := rfl
  have hback : (m.after 3 (.start .nothing)).ip = 1 := by decide +kernel
  exact ⟨hp, h, hback, ends_of_forward hp h .nothing⟩

end Machine

end IppCode
