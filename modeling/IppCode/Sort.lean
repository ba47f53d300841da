/-!
# Sort — ascending by a key, equal keys in their first order

Insertion from the right: an element goes in front of the first one whose key is
not smaller, so elements with equal keys never pass each other.
-/
namespace IppCode.Sort

variable {α : Type}

def insert (key : α → Int) (a : α) : List α → List α
  | []     => [a]
  | b :: r => if key a ≤ key b then a :: b :: r else b :: insert key a r

/-- The list in ascending order of the key, stably. -/
def ascending (key : α → Int) : List α → List α
  | []     => []
  | a :: r => insert key a (ascending key r)

theorem perm_insert (key : α → Int) (a : α) : ∀ l : List α, (insert key a l).Perm (a :: l)
  | []     => .refl _
  | b :: r => by
    unfold insert
    split
    · exact .refl _
    · exact ((perm_insert key a r).cons b).trans (.swap a b r)

theorem perm_ascending (key : α → Int) : ∀ l : List α, (ascending key l).Perm l
  | []     => .refl _
  | a :: r => (perm_insert key a _).trans ((perm_ascending key r).cons a)

theorem pairwise_insert (key : α → Int) (a : α) : ∀ {l : List α},
    l.Pairwise (fun x y => key x ≤ key y) → (insert key a l).Pairwise fun x y => key x ≤ key y
  | [], _ => by simp [insert]
  | b :: r, h => by
    unfold insert
    split
    · rename_i hab
      refine .cons (fun x hx => ?_) h
      rcases List.mem_cons.1 hx with rfl | hx
      · exact hab
      · exact Int.le_trans hab (List.rel_of_pairwise_cons h hx)
    · rename_i hab
      refine .cons (fun x hx => ?_) (pairwise_insert key a h.of_cons)
      rcases List.mem_cons.1 ((perm_insert key a r).mem_iff.1 hx) with rfl | hx
      · omega
      · exact List.rel_of_pairwise_cons h hx

theorem pairwise_ascending (key : α → Int) : ∀ l : List α,
    (ascending key l).Pairwise fun x y => key x ≤ key y
  | []     => .nil
  | a :: r => pairwise_insert key a (pairwise_ascending key r)

/-- The elements of one key keep their order. -/
theorem filter_ascending (key : α → Int) (k : Int) : ∀ l : List α,
    (ascending key l).filter (fun x => key x == k) = l.filter fun x => key x == k
  | []     => rfl
  | a :: r => by
    have insert_filter : ∀ l : List α, (insert key a l).filter (fun x => key x == k) =
        (a :: l).filter fun x => key x == k := by
      intro l
      induction l with
      | nil => rfl
      | cons b t ih =>
        unfold insert
        split
        · rfl
        · rename_i hab
          simp only [List.filter_cons, ih]
          by_cases ha : key a = k
          · have hb : key b ≠ k := by omega
            simp [ha, hb]
          · simp [ha]
    rw [ascending, insert_filter, List.filter_cons, List.filter_cons, filter_ascending key k r]

end IppCode.Sort
