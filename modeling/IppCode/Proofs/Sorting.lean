import Mathlib.Data.List.Forall2
import Mathlib.Data.List.Nodup
import IppCode.Sort
/-!
# Sorting — where the elements of a list go when it is sorted

Elements that are numbered one after another stay where they are (`Counts.ascending_eq_self`),
and lists whose elements correspond, with equal keys, correspond when they are sorted
(`forall₂_ascending`).  An element goes behind all elements with a smaller key and behind
those with the same key that stood before it (`getElem?_ascending`), and there is no other way
to sort a list without changing the order of equal keys (`sorts_iff`).
-/
namespace IppCode.Sort

variable {α β : Type}

/-- **The elements are numbered one after another**, from a number on. -/
def Counts (key : α → Int) : Nat → List α → Prop
  | _, []     => True
  | k, a :: l => key a = k ∧ Counts key (k + 1) l

namespace Counts

variable {key : α → Int}

theorem ascending_eq_self : ∀ {k : Nat} {l : List α}, Counts key k l → ascending key l = l
  | _, [], _ => rfl
  | _, [_], _ => rfl
  | k, a :: b :: l, ⟨ha, hl⟩ => by
    have hb : key b = (k + 1 : Nat) := hl.1
    have hab : key a ≤ key b := by omega
    rw [ascending, ascending_eq_self hl, insert, if_pos hab]

theorem map_key : ∀ {k : Nat} {l : List α}, Counts key k l → l.map key = (List.range' k l.length).map Int.ofNat
  | _, [], _ => rfl
  | k, a :: l, ⟨ha, hl⟩ => by
    rw [List.map_cons, ha, map_key hl]
    rfl

/-- What is made of elements together with their numbers has these numbers. -/
theorem of_zipIdx {R : β × Nat → α → Prop} (hkey : ∀ q a, R q a → key a = q.2) :
    ∀ {l : List β} {k : Nat} {as : List α}, List.Forall₂ R (l.zipIdx k) as → Counts key k as
  | [], _, _, .nil => trivial
  | _ :: _, _, _, .cons ha has => ⟨hkey _ _ ha, of_zipIdx hkey has⟩

end Counts

section Correspond

variable {R : α → β → Prop} {key : α → Int} {key' : β → Int}

theorem forall₂_insert (hkey : ∀ a b, R a b → key a = key' b) {a : α} {b : β} (hab : R a b) {l : List α}
    {l' : List β} (h : List.Forall₂ R l l') : List.Forall₂ R (insert key a l) (insert key' b l') := by
  induction h with
  | nil => exact .cons hab .nil
  | cons hcd h ih =>
    unfold insert
    rw [hkey _ _ hab, hkey _ _ hcd]
    split
    · exact .cons hab (.cons hcd h)
    · exact .cons hcd ih

theorem forall₂_ascending (hkey : ∀ a b, R a b → key a = key' b) {l : List α} {l' : List β}
    (h : List.Forall₂ R l l') : List.Forall₂ R (ascending key l) (ascending key' l') := by
  induction h with
  | nil => exact .nil
  | cons hab _ ih => exact forall₂_insert hkey hab ih

end Correspond

variable {key : α → Int} {a b : α} {l : List α}

/-! ## Ties -/

section Ties

variable {R : α → α → Prop}

theorem pairwise_insert_of_ties (hl : l.Pairwise fun x y => key x < key y ∨ key x = key y ∧ R x y)
    (ha : ∀ b ∈ l, R a b) : (insert key a l).Pairwise fun x y => key x < key y ∨ key x = key y ∧ R x y := by
  induction l with
  | nil => exact List.pairwise_singleton _ _
  | cons b l ih =>
    unfold insert
    obtain ⟨hb, hl⟩ := List.pairwise_cons.1 hl
    split
    · rename_i hab
      refine .cons (fun x hx => ?_) (.cons hb hl)
      have hR : R a x := ha x hx
      rcases List.mem_cons.1 hx with rfl | hx
      · exact (Int.lt_or_eq_of_le hab).imp_right fun h => ⟨h, hR⟩
      · have hbx : key b ≤ key x := (hb x hx).elim Int.le_of_lt fun h => Int.le_of_eq h.1
        exact (Int.lt_or_eq_of_le (Int.le_trans hab hbx)).imp_right fun h => ⟨h, hR⟩
    · rename_i hab
      refine .cons (fun x hx => ?_) (ih hl fun x hx => ha x (List.mem_cons_of_mem b hx))
      rcases List.mem_cons.1 ((perm_insert key a l).mem_iff.1 hx) with rfl | hx
      · exact .inl (Int.not_le.1 hab)
      · exact hb x hx

/-- **Elements with the same key keep their order**: what holds of elements and those behind them
holds of elements with the same key when the list is sorted. -/
theorem pairwise_of_ties (key : α → Int) : ∀ {l : List α}, l.Pairwise R →
    (ascending key l).Pairwise fun x y => key x < key y ∨ key x = key y ∧ R x y
  | [], _ => .nil
  | a :: l, h => by
    have ha : ∀ b ∈ ascending key l, R a b := fun b hb =>
      List.rel_of_pairwise_cons h ((perm_ascending key l).mem_iff.1 hb)
    exact pairwise_insert_of_ties (pairwise_of_ties key h.of_cons) ha

end Ties

/-! ## One sorted list -/

/-- **Elements with different keys can only be sorted in one way.** -/
theorem ascending_eq_of_perm {l' : List α} (hperm : l.Perm l') (hkeys : (l.map key).Nodup) :
    ascending key l = ascending key l' := by
  refine List.Perm.eq_of_pairwise (fun a b ha hb hab hba => ?_) (pairwise_ascending key l) (pairwise_ascending key l')
    ((perm_ascending key l).trans (hperm.trans (perm_ascending key l').symm))
  have ha : a ∈ l := (perm_ascending key l).mem_iff.1 ha
  have hb : b ∈ l := hperm.mem_iff.2 ((perm_ascending key l').mem_iff.1 hb)
  exact List.inj_on_of_nodup_map hkeys ha hb (Int.le_antisymm hab hba)

/-- The first element with a key is still the first one when the list is sorted. -/
theorem find?_ascending (key : α → Int) (k : Int) (l : List α) :
    (ascending key l).find? (fun a => key a = k) = l.find? fun a => key a = k := by
  have hfilter := filter_ascending key k l
  simp only [beq_eq_decide] at hfilter
  rw [← List.head?_filter, hfilter, List.head?_filter]

theorem head_le (h : (b :: l).Pairwise fun x y => key x ≤ key y) (ha : a ∈ b :: l) : key b ≤ key a := by
  rcases List.mem_cons.1 ha with rfl | ha
  · exact Int.le_refl _
  · exact List.rel_of_pairwise_cons h ha

/-! ## The only way to sort -/

/-- **The second list is the first one in ascending order**, with the elements of each key in the
order in which they were. -/
structure Sorts (key : α → Int) (l l' : List α) : Prop where
  perm      : l'.Perm l
  ascending : l'.Pairwise fun a b => key a ≤ key b
  stable    : ∀ k, l'.filter (fun a => key a == k) = l.filter fun a => key a == k

theorem eq_of_filter_eq : ∀ {l l' : List α}, l.Pairwise (fun a b => key a ≤ key b) →
    l'.Pairwise (fun a b => key a ≤ key b) →
    (∀ k, l.filter (fun a => key a == k) = l'.filter fun a => key a == k) → l = l'
  | [], [], _, _, _ => rfl
  | [], b :: l', _, _, h => by
    have hb := h (key b)
    rw [List.filter_cons_of_pos (by simp)] at hb
    cases hb
  | a :: l, [], _, _, h => by
    have ha := h (key a)
    rw [List.filter_cons_of_pos (by simp)] at ha
    cases ha
  | a :: l, b :: l', hl, hl', h => by
    have mem_iff : ∀ x, x ∈ a :: l ↔ x ∈ b :: l' := by
      intro x
      have hx := congrArg (x ∈ ·) (h (key x))
      simpa only [List.mem_filter, beq_self_eq_true, and_true, eq_iff_iff] using hx
    have hkey : key a = key b :=
      Int.le_antisymm (head_le hl ((mem_iff b).2 List.mem_cons_self)) (head_le hl' ((mem_iff a).1 List.mem_cons_self))
    -- both heads are the first element with the least key
    have hheads := h (key a)
    rw [List.filter_cons_of_pos (by simp), List.filter_cons_of_pos (by simp [hkey])] at hheads
    obtain ⟨rfl, -⟩ := List.cons.inj hheads
    have htails : ∀ k, l.filter (fun a => key a == k) = l'.filter fun a => key a == k := by
      intro k
      have hk := h k
      rw [List.filter_cons, List.filter_cons] at hk
      split at hk
      · exact (List.cons.inj hk).2
      · exact hk
    rw [eq_of_filter_eq hl.of_cons hl'.of_cons htails]

/-- **There is exactly one way to sort a list** without changing the order of equal keys. -/
theorem sorts_iff {l l' : List α} : Sorts key l l' ↔ l' = ascending key l := by
  constructor
  · intro h
    exact eq_of_filter_eq h.ascending (pairwise_ascending key l) fun k => (h.stable k).trans (filter_ascending key k l).symm
  · rintro rfl
    exact ⟨perm_ascending key l, pairwise_ascending key l, fun k => filter_ascending key k l⟩

/-! ## Places -/

/-- A new element goes behind those with a smaller key. -/
theorem getElem?_insert_self : ∀ {l : List α}, l.Pairwise (fun x y => key x ≤ key y) →
    (insert key a l)[l.countP fun x => key x < key a]? = some a
  | [], _ => rfl
  | b :: l, h => by
    unfold insert
    by_cases hab : key a ≤ key b
    · have hnone : (b :: l).countP (fun x => key x < key a) = 0 := by
        rw [List.countP_eq_zero]
        intro x hx
        have hbx : key b ≤ key x := head_le h hx
        simp only [decide_eq_true_eq]
        omega
      rw [if_pos hab, hnone]
      rfl
    · rw [if_neg hab, List.countP_cons_of_pos (by simp; omega), List.getElem?_cons_succ]
      exact getElem?_insert_self h.of_cons

/-- An element makes room for a new one whose key is not greater. -/
theorem getElem?_insert : ∀ {l : List α} {n : Nat}, l.Pairwise (fun x y => key x ≤ key y) → l[n]? = some a →
    (insert key b l)[n + if key b ≤ key a then 1 else 0]? = some a
  | [], _, _, h => by simp at h
  | c :: l, n, hsorted, h => by
    unfold insert
    by_cases hbc : key b ≤ key c
    · have hca : key c ≤ key a := head_le hsorted (List.mem_of_getElem? h)
      rw [if_pos hbc, if_pos (Int.le_trans hbc hca), List.getElem?_cons_succ]
      exact h
    · rw [if_neg hbc]
      cases n with
      | zero =>
        cases h
        rw [if_neg hbc]
        rfl
      | succ n =>
        rw [Nat.add_right_comm, List.getElem?_cons_succ]
        exact getElem?_insert hsorted.of_cons h

/-- The place in the sorted list of an element that stands at a position. -/
def place (key : α → Int) (l : List α) (n : Nat) (a : α) : Nat :=
  (l.countP fun x => key x < key a) + (l.take n).countP fun x => key x = key a

/-- **Where an element goes when the list is sorted.** -/
theorem getElem?_ascending (key : α → Int) : ∀ {l : List α} {n : Nat}, l[n]? = some a →
    (ascending key l)[place key l n a]? = some a
  | [], _, h => by simp at h
  | b :: l, 0, h => by
    cases h
    have hcount : (ascending key l).countP (fun x => key x < key a) = place key (a :: l) 0 a := by
      rw [(perm_ascending key l).countP_eq]
      simp [place]
    rw [← hcount]
    exact getElem?_insert_self (pairwise_ascending key l)
  | b :: l, n + 1, h => by
    have hplace : place key (b :: l) (n + 1) a = place key l n a + if key b ≤ key a then 1 else 0 := by
      unfold place
      rw [List.take_succ_cons, List.countP_cons, List.countP_cons]
      simp only [decide_eq_true_eq]
      split <;> split <;> split <;> omega
    rw [hplace]
    exact getElem?_insert (pairwise_ascending key l) (getElem?_ascending key h)

theorem place_map (key : α → Int) (f : β → α) (l : List β) (n : Nat) (b : β) :
    place key (l.map f) n (f b) = place (key ∘ f) l n b := by
  unfold place
  rw [← List.map_take, List.countP_map, List.countP_map]
  rfl

end IppCode.Sort
