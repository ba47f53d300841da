import IppCode.Proofs.Destinations
import IppCode.Proofs.Repetition
/-!
# Transfer — values that go over the data stack

Instructions that push operands leave their values on the data stack, the last one on top
(`Machine.run_pushes`), and instructions that pop into variables assign what they find there, one
after another (`Machine.run_pops`).  A variable that is assigned more than once keeps the last value
(`Frames.Stores.lookup_last`).  Both blocks together bring the values over in reverse and leave the
data stack as it was (`transfer_reverses`).
-/
namespace IppCode

/-! ## Frames -/

/-- **The values are assigned to the variables**, one after another. -/
inductive Frames.Stores : Frames → List Variable → List Value → Frames → Prop
  | nil (fs : Frames) : Stores fs [] [] fs
  | cons {fs fs₁ fs₂ : Frames} {v : Variable} {a : Value} {vs : List Variable} {values : List Value}
      (hassign : Change.assign v a fs = .ok () fs₁) (hrest : Stores fs₁ vs values fs₂) :
      Stores fs (v :: vs) (a :: values) fs₂

namespace Frames

variable {fs fs' : Frames} {v w : Variable} {a : Value} {vs : List Variable} {values : List Value} {k : Nat}

theorem Change.exists_lookup_of_assign (h : Change.assign v a fs = .ok () fs') {c : Option Value}
    (hw : fs.lookup w = .ok c) : ∃ c, fs'.lookup w = .ok c := by
  by_cases hwv : w = v
  · exact ⟨some a, hwv ▸ lookup_of_assign h⟩
  · exact ⟨c, ((sameExcept_of_assign h).lookup w hwv).trans hw⟩

/-- Only a variable that is there can be assigned. -/
theorem Change.exists_lookup (h : Change.assign v a fs = .ok () fs') : ∃ c, fs.lookup v = .ok c := by
  obtain ⟨f, g, hf, hset, -⟩ := Change.assign_eq_ok.1 h
  unfold Frame.set? at hset
  split at hset
  · rename_i c hc
    exact ⟨c, lookup_of_cell hf hc⟩
  · cases hset

/-- Variables that are there can be assigned, one after another. -/
theorem exists_stores : ∀ {vs : List Variable} {values : List Value} {fs : Frames}, values.length = vs.length →
    (∀ v ∈ vs, ∃ c, fs.lookup v = .ok c) → ∃ fs', fs.Stores vs values fs'
  | [], [], fs, _, _ => ⟨fs, .nil fs⟩
  | v :: vs, a :: values, fs, hlen, hvs => by
    obtain ⟨c, hc⟩ := hvs v (.head _)
    obtain ⟨fs₁, hassign⟩ := Change.assign_of_lookup a hc
    have hrest : ∀ w ∈ vs, ∃ c, fs₁.lookup w = .ok c := by
      intro w hw
      obtain ⟨d, hd⟩ := hvs w (.tail _ hw)
      exact Change.exists_lookup_of_assign hassign hd
    obtain ⟨fs', hstores⟩ := exists_stores (Nat.succ.inj hlen) hrest
    exact ⟨fs', .cons hassign hstores⟩

namespace Stores

theorem lookup_other (h : fs.Stores vs values fs') (hw : w ∉ vs) : fs'.lookup w = fs.lookup w := by
  induction h with
  | nil => rfl
  | cons hassign hrest ih =>
    rw [List.mem_cons, not_or] at hw
    rw [ih hw.2]
    exact (Change.sameExcept_of_assign hassign).lookup w hw.1

/-- **The last assignment counts.** -/
theorem lookup_last (h : fs.Stores vs values fs') (hv : vs[k]? = some v) (ha : values[k]? = some a)
    (hlast : ∀ j, k < j → vs[j]? ≠ some v) : fs'.lookup v = .ok (some a) := by
  induction h generalizing k with
  | nil => cases hv
  | cons hassign hrest ih =>
    cases k with
    | zero =>
      cases hv
      cases ha
      -- No later assignment is to the variable, so that this one is still read at the end.
      have hnot : v ∉ _ := fun hmem => by
        obtain ⟨j, hj⟩ := List.getElem?_of_mem hmem
        exact hlast (j + 1) (Nat.succ_pos j) hj
      rw [hrest.lookup_other hnot]
      exact Change.lookup_of_assign hassign
    | succ k => exact ih hv ha fun j hj => hlast (j + 1) (Nat.succ_lt_succ hj)

theorem locals_tail (h : fs.Stores vs values fs') : fs'.locals.tail = fs.locals.tail := by
  induction h with
  | nil => rfl
  | cons hassign _ ih => rw [ih, (Change.sameExcept_of_assign hassign).hidden]

theorem names_eq (h : fs.Stores vs values fs') : fs'.names = fs.names := by
  induction h with
  | nil => rfl
  | cons hassign _ ih => rw [ih, Change.names_eq_of_assign hassign]

end Stores

end Frames

/-! ## Instructions -/

/-- The instruction pushes the value of this operand. -/
def Instruction.Pushes (i : Instruction) (x : Operand) : Prop := i.opcode = .pushs ∧ i.operand 0 = .ok x

/-- The instruction pops into this variable. -/
def Instruction.Pops (i : Instruction) (v : Variable) : Prop := i.opcode = .pops ∧ i.var 0 = .ok v

namespace State

/-- The run has gone on by so many instructions, which have left these frames and this data stack. -/
def further (s : State) (n : Nat) (frames : Frames) (data : Stack Value) : State :=
  { s with ip := s.ip + n, steps := s.steps + n, frames := frames, data := data }

theorem further_further (s : State) (n k : Nat) (frames frames' : Frames) (data data' : Stack Value) :
    (s.further n frames data).further k frames' data' = s.further (n + k) frames' data' := by
  unfold further
  simp only [Nat.add_assoc]

/-- The value of an operand depends on the frames alone. -/
theorem valueOf_of_frames {s t : State} (h : t.frames = s.frames) (x : Operand) : t.valueOf x = s.valueOf x := by
  unfold valueOf lookup
  rw [h]

/-- Operands that can be read have values. -/
theorem exists_values {s : State} {xs : List Operand} (h : ∀ x ∈ xs, ∃ a, s.valueOf x = .ok a) :
    ∃ values, List.Forall₂ (fun x a => s.valueOf x = .ok a) xs values := by
  induction xs with
  | nil => exact ⟨[], .nil⟩
  | cons x xs ih =>
    obtain ⟨a, ha⟩ := h x (.head _)
    obtain ⟨values, hvalues⟩ := ih fun y hy => h y (.tail _ hy)
    exact ⟨a :: values, .cons ha hvalues⟩

/-- Counted from the last operand, the values are in reverse. -/
theorem exists_value_reverse {s : State} {xs : List Operand} {values : List Value} {k : Nat}
    (h : List.Forall₂ (fun x a => s.valueOf x = .ok a) xs values) (hk : k < xs.length) :
    ∃ x a, xs[xs.length - 1 - k]? = some x ∧ s.valueOf x = .ok a ∧ values.reverse[k]? = some a := by
  have hvalues : k < values.length := h.length_eq ▸ hk
  have hx : xs.length - 1 - k < xs.length := by omega
  have ha : xs.length - 1 - k < values.length := h.length_eq ▸ hx
  have hreverse : values.reverse[k]? = values[values.length - 1 - k]? := List.getElem?_reverse hvalues
  rw [← h.length_eq] at hreverse
  exact ⟨_, _, List.getElem?_eq_getElem hx, h.get hx ha, hreverse.trans (List.getElem?_eq_getElem ha)⟩

/-- What is assigned was there to be resolved. -/
theorem destination_of_assign {s : State} {i : Instruction} {v : Variable} {a : Value} {fs : Frames}
    (hvar : i.var 0 = .ok v) (h : Frames.Change.assign v a s.frames = .ok () fs) : s.destination i = .ok v := by
  obtain ⟨c, hc⟩ := Frames.Change.exists_lookup h
  exact Action.destination_eq_ok.2 ⟨hvar, c, Action.lookup_eq_ok.2 hc⟩

end State

namespace Machine

variable {m : Machine} {s : State} {i : Instruction} {x : Operand} {v : Variable} {a : Value}

theorem step_of_pushes (hi : m.code[s.ip]? = some i) (hlimit : m.exhausted? s = none) (hpushes : i.Pushes x)
    (hx : s.valueOf x = .ok a) :
    m.step s = (s.further 1 s.frames (a :: s.data), .running) := by
  obtain ⟨op, n, args⟩ := i
  obtain ⟨rfl, hoperand⟩ := hpushes
  have hvalue : s.counted.value ⟨.pushs, n, args⟩ 0 = .ok a := except_bind_eq_ok.2 ⟨x, hoperand, hx⟩
  have hperform : m.perform ⟨.pushs, n, args⟩ s.counted = .ok .next { s.counted with data := a :: s.data } :=
    Action.look_bind_eq_ok.2 ⟨a, hvalue, Action.proceed_eq_ok.2 ⟨rfl, rfl⟩⟩
  exact step_of_perform hi hlimit hperform

theorem step_of_pops {data : Stack Value} {frames : Frames} (hi : m.code[s.ip]? = some i)
    (hlimit : m.exhausted? s = none) (hpops : i.Pops v) (hdata : s.data = a :: data)
    (hassign : Frames.Change.assign v a s.frames = .ok () frames) :
    m.step s = (s.further 1 frames data, .running) := by
  obtain ⟨op, n, args⟩ := i
  obtain ⟨rfl, hvar⟩ := hpops
  have hdestination : s.counted.destination ⟨.pops, n, args⟩ = .ok v := State.destination_of_assign hvar hassign
  have hpop : Action.popData s.counted = .ok a { s.counted with data := data } :=
    Action.popData_eq_ok.2 ⟨data, Stack.pop_eq_some.2 hdata, rfl⟩
  have hperform : m.perform ⟨.pops, n, args⟩ s.counted =
      .ok .next { s.counted with data := data, frames := frames } :=
    Action.look_bind_eq_ok.2 ⟨v, hdestination, bind_eq_ok.2
      ⟨a, _, hpop, Action.proceed_change_eq_ok.2 ⟨frames, hassign, rfl, rfl⟩⟩⟩
  exact step_of_perform hi hlimit hperform

/-! ## Blocks of instructions -/

section Blocks

variable {α : Type} {R : Instruction → α → Prop} {p : Nat} {b : α} {bs : List α}

/-- From a position on there is one instruction for each item, in the order of the items. -/
def BlockAt (m : Machine) (R : Instruction → α → Prop) (p : Nat) (bs : List α) : Prop :=
  ∀ k b, bs[k]? = some b → ∃ i, m.code[p + k]? = some i ∧ R i b

theorem blockAt_nil (m : Machine) (R : Instruction → α → Prop) (p : Nat) : m.BlockAt R p [] := nofun

theorem blockAt_cons : m.BlockAt R p (b :: bs) ↔ (∃ i, m.code[p]? = some i ∧ R i b) ∧ m.BlockAt R (p + 1) bs := by
  constructor
  · intro h
    refine ⟨h 0 b rfl, fun k c hc => ?_⟩
    rw [Nat.add_right_comm]
    exact h (k + 1) c hc
  · rintro ⟨hhead, htail⟩ (_ | k) c hc
    · cases hc
      exact hhead
    · rw [← Nat.add_assoc, Nat.add_right_comm]
      exact htail k c hc

end Blocks

/-- The next so many instructions do not come to the limit. -/
def Allows (m : Machine) (s : State) (n : Nat) : Prop := ∀ k < n, ∀ limit, m.limit = some limit → s.steps + k < limit

section Limits

variable {n k : Nat} {t : State}

theorem Allows.exhausted (h : m.Allows s (n + 1)) : m.exhausted? s = none :=
  exhausted_eq_none_iff.2 (h 0 (Nat.succ_pos n))

/-- After some of the instructions the others are still allowed. -/
theorem Allows.rest (h : m.Allows s (n + k)) (ht : t.steps = s.steps + k) : m.Allows t n := by
  intro j hj limit hlimit
  rw [ht, Nat.add_assoc]
  exact h (k + j) (by omega) limit hlimit

theorem Allows.start (h : m.Allows s (n + k)) : m.Allows s k :=
  fun j hj => h j (Nat.lt_of_lt_of_le hj (Nat.le_add_left k n))

end Limits

/-- **A block of pushes** leaves the values of its operands, the last one on top. -/
theorem run_pushes {xs : List Operand} {values : List Value}
    (hread : List.Forall₂ (fun x a => s.valueOf x = .ok a) xs values) (hblock : m.BlockAt Instruction.Pushes s.ip xs)
    (hallows : m.Allows s xs.length) :
    m.run xs.length s = (s.further xs.length s.frames (values.reverse ++ s.data), .running) := by
  induction xs generalizing s values with
  | nil =>
    cases hread
    rfl
  | cons x xs ih =>
    cases hread with
    | @cons _ a _ values hx hrest =>
      obtain ⟨⟨i, hi, hpushes⟩, hblock⟩ := blockAt_cons.1 hblock
      have hstep := step_of_pushes hi hallows.exhausted hpushes hx
      -- The frames are the same, so that the other operands still have their values.
      have hread : List.Forall₂ (fun x a => (s.further 1 s.frames (a :: s.data)).valueOf x = .ok a) xs values :=
        hrest.imp fun x b hb => (State.valueOf_of_frames rfl x).trans hb
      have hrun := ih (s := s.further 1 s.frames (a :: s.data)) hread hblock (hallows.rest rfl)
      rw [List.length_cons, run_of_running _ hstep, hrun, State.further_further, Nat.add_comm 1, List.reverse_cons,
        List.append_assoc]
      rfl

/-- **A block of pops** takes values off the data stack and assigns them. -/
theorem run_pops {vs : List Variable} {values : List Value} {frames : Frames} {data : Stack Value}
    (hstores : s.frames.Stores vs values frames) (hdata : s.data = values ++ data)
    (hblock : m.BlockAt Instruction.Pops s.ip vs) (hallows : m.Allows s vs.length) :
    m.run vs.length s = (s.further vs.length frames data, .running) := by
  induction vs generalizing s values with
  | nil =>
    cases hstores
    rw [List.nil_append] at hdata
    rw [← hdata]
    rfl
  | cons v vs ih =>
    cases hstores with
    | @cons _ fs₁ _ _ a _ values hassign hrest =>
      obtain ⟨⟨i, hi, hpops⟩, hblock⟩ := blockAt_cons.1 hblock
      have hstep : m.step s = (s.further 1 fs₁ (values ++ data), .running) :=
        step_of_pops hi hallows.exhausted hpops hdata hassign
      have hrun := ih (s := s.further 1 fs₁ (values ++ data)) hrest rfl hblock (hallows.rest rfl)
      rw [List.length_cons, run_of_running _ hstep, hrun, State.further_further, Nat.add_comm 1]

/-- One value that is stored is moved. -/
theorem perform_move {fs : Frames} (h : s.frames.Stores [v] [a] fs) (hx : s.valueOf x = .ok a) (n : Int) :
    m.perform ⟨.move, n, [.var v, x]⟩ s = .ok .next { s with frames := fs } := by
  cases h with
  | cons hassign hrest =>
    cases hrest
    have hdestination : s.destination ⟨.move, n, [.var v, x]⟩ = .ok v := State.destination_of_assign rfl hassign
    exact Action.store_eq_ok.2 ⟨v, a, fs, hdestination, hx, hassign, rfl, rfl⟩

/-- **The data stack brings values over in reverse.**  As many pushes as pops, one after another, all go
well if the operands can be read and the variables are there, and leave the data stack as it was.
Each variable then has the value that an operand had at the start: the one that is as far from the
last as the last pop into the variable is from the first.  No other variable has changed, and the
frames and their variables are the same.  One value goes over as if it had been moved. -/
theorem transfer_reverses (m : Machine) {s : State} {xs : List Operand} {vs : List Variable}
    (hlen : vs.length = xs.length) (hread : ∀ x ∈ xs, ∃ a, s.valueOf x = .ok a)
    (hvs : ∀ v ∈ vs, ∃ c, s.lookup v = .ok c) (hpushes : m.BlockAt Instruction.Pushes s.ip xs)
    (hpops : m.BlockAt Instruction.Pops (s.ip + xs.length) vs) (hallows : m.Allows s (xs.length + vs.length)) :
    ∃ frames, m.run (xs.length + vs.length) s = (s.further (xs.length + vs.length) frames s.data, .running) ∧
      (∀ k v, vs[k]? = some v → (∀ j, k < j → vs[j]? ≠ some v) →
        ∃ x a, xs[xs.length - 1 - k]? = some x ∧ s.valueOf x = .ok a ∧ frames.lookup v = .ok (some a)) ∧
      (∀ w, w ∉ vs → frames.lookup w = s.frames.lookup w) ∧ frames.locals.tail = s.frames.locals.tail ∧
      frames.names = s.frames.names ∧
      ∀ x v, xs = [x] → vs = [v] →
        ∀ n, m.perform ⟨.move, n, [.var v, x]⟩ s = .ok .next { s with frames := frames } := by
  obtain ⟨values, hvalues⟩ := State.exists_values hread
  have hreverse : values.reverse.length = vs.length := by rw [List.length_reverse, ← hvalues.length_eq, hlen]
  obtain ⟨frames, hstores⟩ := Frames.exists_stores hreverse fun v hv => by
    obtain ⟨c, hc⟩ := hvs v hv
    exact ⟨c, Action.lookup_eq_ok.1 hc⟩
  rw [Nat.add_comm xs.length] at hallows
  have hpushed := run_pushes hvalues hpushes hallows.start
  have hpopped := run_pops (s := s.further xs.length s.frames (values.reverse ++ s.data)) hstores rfl hpops
    (hallows.rest rfl)
  refine ⟨frames, ?_, fun k v hv hlast => ?_, fun w => hstores.lookup_other, hstores.locals_tail, hstores.names_eq, ?_⟩
  · rw [run_add _ hpushed, hpopped, State.further_further]
  · have hk : k < xs.length := hlen ▸ (List.getElem?_eq_some_iff.1 hv).1
    obtain ⟨x, a, hx, ha, hvalue⟩ := State.exists_value_reverse hvalues hk
    exact ⟨x, a, hx, ha, hstores.lookup_last hv hvalue hlast⟩
  · rintro x v rfl rfl n
    cases hvalues with
    | cons ha hrest =>
      cases hrest
      exact perform_move hstores ha n

/-- Two variables change places, of which one is popped into twice, and the limit is the number of
instructions. -/
theorem transfer_reverses_of_exchange :
    let a : Variable := ⟨.gf, "a"⟩
    let b : Variable := ⟨.gf, "b"⟩
    let m : Machine := ⟨#[⟨.pushs, 1, [.var a]⟩, ⟨.pushs, 2, [.var b]⟩, ⟨.pushs, 3, [.const (.int 7)]⟩,
      ⟨.pops, 4, [.var b]⟩, ⟨.pops, 5, [.var a]⟩, ⟨.pops, 6, [.var b]⟩], [], some 6, .quiet⟩
    let s : State := { State.start .nothing with
      frames := ⟨⟨[("a", some (.int 1)), ("b", some (.int 2))]⟩, none, []⟩, data := [.nil] }
    ∃ frames, m.run 6 s = (s.further 6 frames [.nil], .running) ∧ frames.lookup a = .ok (some (.int 2)) ∧
      frames.lookup b = .ok (some (.int 1)) := by
  intro a b m s
  have hpushes : m.BlockAt Instruction.Pushes 0 [.var a, .var b, .const (.int 7)] :=
    blockAt_cons.2 ⟨⟨_, rfl, rfl, rfl⟩, blockAt_cons.2 ⟨⟨_, rfl, rfl, rfl⟩, blockAt_cons.2 ⟨⟨_, rfl, rfl, rfl⟩,
      m.blockAt_nil _ _⟩⟩⟩
  have hpops : m.BlockAt Instruction.Pops 3 [b, a, b] :=
    blockAt_cons.2 ⟨⟨_, rfl, rfl, rfl⟩, blockAt_cons.2 ⟨⟨_, rfl, rfl, rfl⟩, blockAt_cons.2 ⟨⟨_, rfl, rfl, rfl⟩,
      m.blockAt_nil _ _⟩⟩⟩
  have hread : ∀ x ∈ [Operand.var a, .var b, .const (.int 7)], ∃ value, s.valueOf x = .ok value :=
    List.forall_mem_cons.2 ⟨⟨_, rfl⟩, List.forall_mem_cons.2 ⟨⟨_, rfl⟩, List.forall_mem_cons.2 ⟨⟨_, rfl⟩, nofun⟩⟩⟩
  have hthere : ∀ v ∈ [b, a, b], ∃ c, s.lookup v = .ok c :=
    List.forall_mem_cons.2 ⟨⟨_, rfl⟩, List.forall_mem_cons.2 ⟨⟨_, rfl⟩, List.forall_mem_cons.2 ⟨⟨_, rfl⟩, nofun⟩⟩⟩
  have hallows : m.Allows s 6 := by
    intro k hk limit hlimit
    cases hlimit
    exact (Nat.zero_add k).symm ▸ hk
  obtain ⟨frames, hrun, hlast, -⟩ := transfer_reverses m rfl hread hthere hpushes hpops hallows
  obtain ⟨x, value, hx, hvalue, ha⟩ := hlast 1 a rfl (by rintro (_ | _ | _ | j) <;> simp [a, b])
  cases hx
  cases hvalue
  obtain ⟨x, value, hx, hvalue, hb⟩ := hlast 2 b rfl (by rintro (_ | _ | _ | j) <;> simp)
  cases hx
  cases hvalue
  exact ⟨frames, hrun, ha, hb⟩

end Machine

end IppCode
