import Mathlib.Data.List.Forall2
/-!
# Traversal — lists that are read up to the first element at fault

Records, arguments and lines are read one after another, and the first one that cannot be read
ends the reading.  So either each of them is read (`mapM_eq_ok`), or there is a first place at
which one cannot be, and the error is the one from there (`mapM_eq_error`).
-/
namespace IppCode

variable {α β ε : Type}

/-- **The first place at which something is wrong**, and what is wrong there. -/
structure FirstAt (Wrong : Nat → ε → Prop) (k : Nat) (e : ε) : Prop where
  wrong   : Wrong k e
  earlier : ∀ j < k, ∀ e', ¬ Wrong j e'

namespace FirstAt

variable {Wrong Wrong' : Nat → ε → Prop} {j k : Nat} {e e' : ε}

theorem congr (h : ∀ k e, Wrong k e ↔ Wrong' k e) : FirstAt Wrong k e ↔ FirstAt Wrong' k e := by
  obtain rfl : Wrong = Wrong' := funext fun k => funext fun e => propext (h k e)
  exact Iff.rfl

theorem zero_iff : FirstAt Wrong 0 e ↔ Wrong 0 e :=
  ⟨FirstAt.wrong, fun h => ⟨h, fun j hj => absurd hj (Nat.not_lt_zero j)⟩⟩

/-- A place in front at which nothing is wrong makes no difference. -/
theorem succ_iff (h : ∀ e, ¬ Wrong 0 e) : FirstAt Wrong (k + 1) e ↔ FirstAt (fun j => Wrong (j + 1)) k e := by
  constructor
  · rintro ⟨hwrong, hearlier⟩
    exact ⟨hwrong, fun j hj => hearlier (j + 1) (Nat.succ_lt_succ hj)⟩
  · rintro ⟨hwrong, hearlier⟩
    refine ⟨hwrong, fun j hj => ?_⟩
    cases j with
    | zero => exact h
    | succ j => exact hearlier j (Nat.lt_of_succ_lt_succ hj)

theorem exists_succ_iff (h : ∀ e, ¬ Wrong 0 e) :
    (∃ k, FirstAt Wrong k e) ↔ ∃ k, FirstAt (fun j => Wrong (j + 1)) k e := by
  constructor
  · rintro ⟨k, hk⟩
    cases k with
    | zero => exact absurd hk.wrong (h e)
    | succ k => exact ⟨k, (succ_iff h).1 hk⟩
  · rintro ⟨k, hk⟩
    exact ⟨k + 1, (succ_iff h).2 hk⟩

theorem place_unique (h : FirstAt Wrong j e) (h' : FirstAt Wrong k e') : j = k := by
  rcases Nat.lt_trichotomy j k with hlt | heq | hlt
  · exact absurd h.wrong (h'.earlier j hlt e)
  · exact heq
  · exact absurd h'.wrong (h.earlier k hlt e')

/-- If anything is wrong, something is wrong first. -/
theorem exists_of_wrong (h : Wrong k e) : ∃ j e', FirstAt Wrong j e' := by
  induction k using Nat.strongRecOn generalizing e with
  | _ k ih =>
    by_cases hearlier : ∃ j < k, ∃ e', Wrong j e'
    · obtain ⟨j, hj, e', he'⟩ := hearlier
      exact ih j hj he'
    · exact ⟨k, e, h, fun j hj e' he' => hearlier ⟨j, hj, e', he'⟩⟩

end FirstAt

/-- The element at a place cannot be read. -/
def FailsAt (f : α → Except ε β) (l : List α) (k : Nat) (e : ε) : Prop := ∃ a, l[k]? = some a ∧ f a = .error e

variable {f : α → Except ε β} {a : α} {l : List α} {e : ε}

theorem mapM_cons_except : (a :: l).mapM f = match f a with
    | .error e => .error e
    | .ok b    =>
      match l.mapM f with
      | .error e => .error e
      | .ok bs   => .ok (b :: bs) := by
  rw [List.mapM_cons]
  cases f a with
  | error e => rfl
  | ok b =>
    cases l.mapM f with
    | error e => rfl
    | ok bs => rfl

theorem mapM_eq_ok : ∀ {l : List α} {bs : List β},
    l.mapM f = .ok bs ↔ List.Forall₂ (fun a b => f a = .ok b) l bs
  | [], bs => by
    rw [List.mapM_nil, List.forall₂_nil_left_iff]
    constructor
    · rintro ⟨⟩
      rfl
    · rintro rfl
      rfl
  | a :: l, bs => by
    rw [List.forall₂_cons_left_iff, mapM_cons_except]
    constructor
    · intro h
      split at h
      · cases h
      · rename_i b hb
        split at h
        · cases h
        · rename_i bs' hbs
          cases h
          exact ⟨b, bs', hb, mapM_eq_ok.1 hbs, rfl⟩
    · rintro ⟨b, bs', hb, hbs, rfl⟩
      rw [hb, mapM_eq_ok.2 hbs]

theorem failsAt_zero : FailsAt f (a :: l) 0 e ↔ f a = .error e := by
  simp [FailsAt]

theorem failsAt_zipIdx {f : α × Nat → Except ε β} {m k : Nat} :
    FailsAt f (l.zipIdx m) k e ↔ ∃ a, l[k]? = some a ∧ f (a, m + k) = .error e := by
  simp only [FailsAt, List.getElem?_zipIdx, Option.map_eq_some_iff]
  constructor
  · rintro ⟨_, ⟨a, ha, rfl⟩, h⟩
    exact ⟨a, ha, h⟩
  · rintro ⟨a, ha, h⟩
    exact ⟨_, ⟨a, ha, rfl⟩, h⟩

theorem mapM_eq_error : ∀ {l : List α}, l.mapM f = .error e ↔ ∃ k, FirstAt (FailsAt f l) k e
  | [] => by
    refine iff_of_false (by rw [List.mapM_nil]; rintro ⟨⟩) ?_
    rintro ⟨k, ⟨a, ha, -⟩, -⟩
    cases ha
  | a :: l => by
    rw [mapM_cons_except]
    cases ha : f a with
    | error e' =>
      have hzero : FirstAt (FailsAt f (a :: l)) 0 e' := FirstAt.zero_iff.2 (failsAt_zero.2 ha)
      constructor
      · rintro ⟨⟩
        exact ⟨0, hzero⟩
      · rintro ⟨k, hk⟩
        obtain rfl := hk.place_unique hzero
        cases ha.symm.trans (failsAt_zero.1 hk.wrong)
        rfl
    | ok b =>
      have hfine : ∀ e', ¬ FailsAt f (a :: l) 0 e' := fun e' h => by
        rw [failsAt_zero, ha] at h
        cases h
      rw [FirstAt.exists_succ_iff hfine]
      change _ ↔ ∃ k, FirstAt (FailsAt f l) k e
      rw [← mapM_eq_error]
      cases l.mapM f with
      | error e' => exact Iff.rfl
      | ok bs => exact iff_of_false nofun nofun

/-- If there is something for each element, there is a list of such things. -/
theorem exists_forall₂_iff {R : α → β → Prop} : ∀ {l : List α},
    (∃ bs, List.Forall₂ R l bs) ↔ ∀ a ∈ l, ∃ b, R a b
  | [] => by simp
  | a :: l => by
    rw [List.forall_mem_cons, ← exists_forall₂_iff]
    constructor
    · rintro ⟨bs, h⟩
      obtain ⟨b, bs', hb, hbs, -⟩ := List.forall₂_cons_left_iff.1 h
      exact ⟨⟨b, hb⟩, bs', hbs⟩
    · rintro ⟨⟨b, hb⟩, bs, hbs⟩
      exact ⟨b :: bs, .cons hb hbs⟩

end IppCode
