import IppCode.Proofs.Control
/-!
# Isolation — what lies deep enough on a stack stays as it is

A step puts at most one item on each stack or takes one off, and of the local frames it may
also change the innermost (`stacks_step`).  So the items that a run never gets down to are at
its end what they were (`lowest_after`), and in particular a call has its address back on
top when the run returns from it (`return_of_call`).
-/
namespace IppCode

namespace Stack

variable {α : Type} {s t : Stack α} {d : Nat}

/-- The lowest items, so many of them, from the bottom up. -/
def lowest (d : Nat) (s : Stack α) : List α := s.fromBottom.take d

theorem lowest_cons (a : α) (h : d ≤ s.length) : lowest d (a :: s) = lowest d s := by
  have hlen : d ≤ s.reverse.length := by rwa [List.length_reverse]
  unfold lowest fromBottom
  rw [List.reverse_cons, List.take_append_of_le_length hlen]

/-- A stack is known by all of its items. -/
theorem eq_of_lowest_eq (hlen : t.length = s.length) (h : lowest s.length t = lowest s.length s) : t = s := by
  unfold lowest fromBottom at h
  rw [List.take_of_length_le (by simp [hlen]), List.take_of_length_le (by simp)] at h
  exact List.reverse_injective h

/-- The second stack is the first one, or has one item more or less on top. -/
inductive Near : Stack α → Stack α → Prop
  | same (s : Stack α) : Near s s
  | more (a : α) (s : Stack α) : Near s (a :: s)
  | less (a : α) (s : Stack α) : Near (a :: s) s

/-- Or it has another item on top. -/
inductive Touched : Stack α → Stack α → Prop
  | near {s t : Stack α} (h : Near s t) : Touched s t
  | top (a b : α) (s : Stack α) : Touched (a :: s) (b :: s)

theorem Near.lowest_eq (h : Near s t) (hs : d ≤ s.length) (ht : d ≤ t.length) : lowest d t = lowest d s := by
  cases h with
  | same => rfl
  | more a => exact lowest_cons a hs
  | less a => exact (lowest_cons a ht).symm

theorem Touched.lowest_eq (h : Touched s t) (hs : d < s.length) (ht : d < t.length) : lowest d t = lowest d s := by
  cases h with
  | near h => exact h.lowest_eq (Nat.le_of_lt hs) (Nat.le_of_lt ht)
  | top a b r =>
    have hr : d ≤ r.length := Nat.le_of_lt_succ hs
    rw [lowest_cons b hr, lowest_cons a hr]

end Stack

open Stack (Near Touched lowest)

/-! ## One step -/

/-- Only the innermost local frame can be replaced. -/
theorem Frames.touched_replace {fs : Frames} {scope : Scope} {f g : Frame} (h : fs.frame scope = .ok f) :
    Touched fs.locals (fs.replace g scope).locals := by
  cases scope with
  | gf | tf => exact .near (.same _)
  | lf =>
    unfold replace
    cases hlocals : fs.locals with
    | nil =>
      unfold frame at h
      rw [hlocals] at h
      cases h
    | cons a r => exact .top a g r

namespace Effect

variable {m : Machine} {i : Instruction} {s t : State} {flow : Flow}

theorem calls_near (h : Effect m i s flow t) : Near s.calls t.calls := by
  cases h with
  | called => exact .more _ _
  | returned _ hcalls =>
    rw [hcalls]
    exact .less _ _
  | _ => exact .same _

theorem data_near (h : Effect m i s flow t) : Near s.data t.data := by
  cases h with
  | pushed => exact .more _ _
  | popped _ _ hdata =>
    rw [hdata]
    exact .less _ _
  | _ => exact .same _

theorem locals_touched (h : Effect m i s flow t) : Touched s.frames.locals t.frames.locals := by
  cases h with
  | assigned _ _ hassign | popped _ _ _ hassign | read _ _ _ hassign =>
    obtain ⟨f, g, hf, -, rfl⟩ := Frames.Change.assign_eq_ok.1 hassign
    exact Frames.touched_replace hf
  | declared _ _ hdeclare =>
    obtain ⟨f, g, hf, -, rfl⟩ := Frames.Change.declare_eq_ok.1 hdeclare
    exact Frames.touched_replace hf
  | framePushed _ hpush =>
    obtain ⟨f, -, rfl⟩ := Frames.Change.push_eq_ok.1 hpush
    exact .near (.more _ _)
  | framePopped _ hpop =>
    obtain ⟨f, r, hlocals, rfl⟩ := Frames.Change.pop_eq_ok.1 hpop
    rw [hlocals]
    exact .near (.less _ _)
  | _ => exact .near (.same _)

end Effect

namespace Machine

variable {m : Machine} {s t : State} {n d : Nat}

/-- **What a step may do to the stacks**, whatever it comes to. -/
theorem stacks_step (m : Machine) (s : State) : Touched s.frames.locals (m.step s).1.frames.locals ∧
    Near s.data (m.step s).1.data ∧ Near s.calls (m.step s).1.calls := by
  rcases hstep : m.step s with ⟨t, st⟩
  rcases step_cases hstep with ⟨hstays, -⟩ | ⟨-, i, flow, u, -, heffect, hfollow⟩
  · rw [hstays.frames, hstays.data, hstays.calls]
    exact ⟨.near (.same _), .same _, .same _⟩
  · rw [eq_of_follow hfollow]
    exact ⟨heffect.locals_touched, heffect.data_near, heffect.calls_near⟩

/-! ## Runs -/

/-- What no step changes between states with a property is the same at both ends of a run
through such states. -/
theorem after_eq_of_step {γ : Type} (P : State → Prop) (view : State → γ)
    (hstep : ∀ s, P s → P (m.step s).1 → view (m.step s).1 = view s) :
    ∀ {n : Nat} {s : State}, (∀ k ≤ n, P (m.after k s)) → view (m.after n s) = view s
  | 0, _, _ => rfl
  | n + 1, s, h => by
    have hfirst : view (m.step s).1 = view s := hstep s (h 0 (Nat.zero_le _)) (h 1 (Nat.le_add_left 1 n))
    have hrest : view (m.after n (m.step s).1) = view (m.step s).1 :=
      after_eq_of_step P view hstep fun k hk => h (k + 1) (Nat.succ_le_succ hk)
    exact hrest.trans hfirst

theorem lowest_calls_after (h : ∀ k ≤ n, d ≤ (m.after k s).calls.length) :
    lowest d (m.after n s).calls = lowest d s.calls :=
  after_eq_of_step (fun s => d ≤ s.calls.length) (fun s => lowest d s.calls)
    (fun s hs ht => (m.stacks_step s).2.2.lowest_eq hs ht) h

/-- **What a run never gets down to stays as it is.**  If there are always more than so many
local frames, the lowest so many of them keep all their variables and values; if there are
always at least so many values on the data stack, or addresses on the call stack, the lowest
so many of these stay the same.  Steps that fail, or are called after the end, count too. -/
theorem lowest_after (m : Machine) (s : State) (n d : Nat) :
    ((∀ k ≤ n, d < (m.after k s).frames.locals.length) →
      lowest d (m.after n s).frames.locals = lowest d s.frames.locals) ∧
    ((∀ k ≤ n, d ≤ (m.after k s).data.length) → lowest d (m.after n s).data = lowest d s.data) ∧
    ((∀ k ≤ n, d ≤ (m.after k s).calls.length) → lowest d (m.after n s).calls = lowest d s.calls) := by
  refine ⟨fun h => ?_, fun h => ?_, lowest_calls_after⟩
  · exact after_eq_of_step (fun s => d < s.frames.locals.length) (fun s => lowest d s.frames.locals)
      (fun s hs ht => (m.stacks_step s).1.lowest_eq hs ht) h
  · exact after_eq_of_step (fun s => d ≤ s.data.length) (fun s => lowest d s.data)
      (fun s hs ht => (m.stacks_step s).2.1.lowest_eq hs ht) h

/-- A call whose body pushes and pops a frame and a value, and assigns to the frame of the
caller. -/
theorem lowest_after_call :
    let m : Machine := ⟨#[⟨.call, 1, [.const (.label "f")]⟩, ⟨.label, 2, [.const (.label "f")]⟩,
      ⟨.createFrame, 3, []⟩, ⟨.pushFrame, 4, []⟩, ⟨.pushs, 5, [.const (.bool true)]⟩, ⟨.popFrame, 6, []⟩,
      ⟨.pops, 7, [.var ⟨.lf, "x"⟩]⟩, ⟨.ret, 8, []⟩], [("f", 1)], none, .quiet⟩
    let s : State := { State.start .nothing with
      frames := ⟨.empty, none, [⟨[("x", none)]⟩, ⟨[("y", some .nil)]⟩]⟩, data := [.nil], calls := [7] }
    (m.after 8 s).frames.locals = [⟨[("x", some (.bool true))]⟩, ⟨[("y", some .nil)]⟩] ∧
    (∀ k ≤ 8, 1 < (m.after k s).frames.locals.length) ∧ (∀ k ≤ 8, 1 ≤ (m.after k s).data.length) ∧
    (∀ k ≤ 8, 1 ≤ (m.after k s).calls.length) ∧
    lowest 1 (m.after 8 s).frames.locals = [⟨[("y", some .nil)]⟩] ∧ lowest 1 (m.after 8 s).data = [.nil] ∧
    lowest 1 (m.after 8 s).calls = [7] := by
  intro m s
  have htop : (m.after 8 s).frames.locals = [⟨[("x", some (.bool true))]⟩, ⟨[("y", some .nil)]⟩] := by
    decide +kernel
  have hlocals : ∀ k ≤ 8, 1 < (m.after k s).frames.locals.length := by decide +kernel
  have hdata : ∀ k ≤ 8, 1 ≤ (m.after k s).data.length := by decide +kernel
  have hcalls : ∀ k ≤ 8, 1 ≤ (m.after k s).calls.length := by decide +kernel
  obtain ⟨hframes, hvalues, haddresses⟩ := lowest_after m s 8 1
  exact ⟨htop, hlocals, hdata, hcalls, hframes hlocals, hvalues hdata, haddresses hcalls⟩

/-! ## Calls and their returns -/

theorem perform_call {i : Instruction} {k : Nat} (hop : i.opcode = .call) (hk : m.destination i = .ok k) :
    m.perform i s = .ok (.jump k) { s with calls := (s.ip + 1) :: s.calls } := by
  unfold perform
  rw [hop]
  exact Action.look_bind_eq_ok.2 ⟨k, hk, rfl⟩

theorem perform_ret {i : Instruction} {k : Nat} {calls : Stack Nat} (hop : i.opcode = .ret)
    (hcalls : s.calls = k :: calls) : m.perform i s = .ok (.jump k) { s with calls := calls } := by
  unfold perform
  rw [hop]
  exact bind_eq_ok.2 ⟨k, _, Action.popCall_eq_ok.2 ⟨calls, Stack.pop_eq_some.2 hcalls, rfl⟩, rfl⟩

/-- **A call is returned from where it was made.**  Where the next instruction is a call to a
label that is defined, the run goes on at the label.  If from there on the call stack is
always deeper than it was before the call, and a return is met when it is so by one address,
the run goes on after that call with the call stack as it was. -/
theorem return_of_call {i : Instruction} {k : Nat} (hi : m.code[s.ip]? = some i) (hop : i.opcode = .call)
    (hk : m.destination i = .ok k) (hlimit : m.exhausted? s = none) :
    ∃ c, m.step s = (c, .running) ∧ c.ip = k ∧
      ∀ n r, (∀ j ≤ n, s.calls.length < (m.after j c).calls.length) →
        m.code[(m.after n c).ip]? = some r → r.opcode = .ret →
        (m.after n c).calls.length = s.calls.length + 1 → m.exhausted? (m.after n c) = none →
        ∃ t, m.step (m.after n c) = (t, .running) ∧ t.ip = s.ip + 1 ∧ t.calls = s.calls := by
  have hcall := step_of_perform hi hlimit (perform_call hop hk)
  refine ⟨_, hcall, rfl, fun n r hdeep hr hret hdepth hno => ?_⟩
  have hlowest := lowest_calls_after (d := s.calls.length + 1) hdeep
  have hcalls := Stack.eq_of_lowest_eq (s := (s.ip + 1) :: s.calls) hdepth hlowest
  exact ⟨_, step_of_perform hr hno (perform_ret hret hcalls), rfl, rfl⟩

/-- A call inside a call. -/
theorem return_of_nested_call :
    let m : Machine := ⟨#[⟨.call, 1, [.const (.label "f")]⟩, ⟨.brk, 2, []⟩, ⟨.label, 3, [.const (.label "f")]⟩,
      ⟨.call, 4, [.const (.label "g")]⟩, ⟨.ret, 5, []⟩, ⟨.label, 6, [.const (.label "g")]⟩, ⟨.ret, 7, []⟩],
      [("g", 5), ("f", 2)], some 9, .quiet⟩
    let c : State := { State.start .nothing with ip := 2, steps := 1, calls := [1] }
    m.step (.start .nothing) = (c, .running) ∧ (m.after 2 c).calls = [4, 1] ∧
      ∃ t, m.step (m.after 4 c) = (t, .running) ∧ t.ip = 1 ∧ t.calls = [] := by
  intro m c
  have hi : m.code[(State.start .nothing).ip]? = some ⟨.call, 1, [.const (.label "f")]⟩ := rfl
  have hk : m.destination ⟨.call, 1, [.const (.label "f")]⟩ = .ok 2 := rfl
  have hc : m.step (.start .nothing) = (c, .running) := rfl
  obtain ⟨c', hc', -, hreturn⟩ := return_of_call hi rfl hk rfl
  obtain rfl : c = c' := congrArg Prod.fst (hc.symm.trans hc')
  have hdeep : ∀ j ≤ 4, 0 < (m.after j c).calls.length := by decide +kernel
  have hr : m.code[(m.after 4 c).ip]? = some ⟨.ret, 5, []⟩ := by decide +kernel
  have hdepth : (m.after 4 c).calls.length = 1 := by decide +kernel
  have hlimit : m.exhausted? (m.after 4 c) = none := by decide +kernel
  have hcalls : (m.after 2 c).calls = [4, 1] := by decide +kernel
  exact ⟨hc, hcalls, hreturn 4 ⟨.ret, 5, []⟩ hdeep hr rfl hdepth hlimit⟩

end Machine

end IppCode
