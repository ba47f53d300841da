import Mathlib.Data.List.Induction
import Mathlib.Data.List.Nodup
import IppCode.Proofs.Sorting
import IppCode.Verify
/-!
# Reports — what the verifier says, element by element

Each check goes through a sequence and keeps what it needs of the elements that it has met.
What it says of an element is a function of that element and of those before it (`inTurn`,
`eq_inTurn`), so its report is known element by element: `recordErrors_eq`, `argumentErrors_eq`,
`repeatedLabels_eq`.
-/
namespace IppCode

/-- What is said of each element in turn, given the elements before it. -/
def inTurn {α β : Type} (say : List α → α → List β) (l : List α) : List β :=
  l.zipIdx.flatMap fun p => say (l.take p.2) p.1

section InTurn

variable {α β σ : Type} {say : List α → α → List β} {l : List α}

/-- **A recursion that keeps a state speaks in turn**, if the state is always what the elements
that have been met make of it. -/
theorem eq_inTurn {f : σ → List α → List β} (Keeps : List α → σ → Prop) (hnil : ∀ s, f s [] = [])
    (hcons : ∀ before s a rest, Keeps before s →
      ∃ s', Keeps (before ++ [a]) s' ∧ f s (a :: rest) = say before a ++ f s' rest)
    {s : σ} (hs : Keeps [] s) (l : List α) : f s l = inTurn say l := by
  have hrest : ∀ (rest before : List α) (s : σ), Keeps before s →
      f s rest = (rest.zipIdx before.length).flatMap fun p => say ((before ++ rest).take p.2) p.1 := by
    intro rest
    induction rest with
    | nil => exact fun _ s _ => hnil s
    | cons a rest ih =>
      intro before s hs
      obtain ⟨s', hs', hstep⟩ := hcons before s a rest hs
      have hlater := ih (before ++ [a]) s' hs'
      rw [List.length_append, List.append_assoc] at hlater
      rw [hstep, List.zipIdx_cons, List.flatMap_cons, List.take_left, hlater]
      rfl
  exact hrest l [] s hs

/-- Nothing is said iff there is nothing to say of any element after those before it. -/
theorem inTurn_eq_nil : inTurn say l = [] ↔ ∀ before a rest, l = before ++ a :: rest → say before a = [] := by
  unfold inTurn
  rw [List.flatMap_eq_nil_iff]
  constructor
  · rintro h before a rest rfl
    have hmem : (a, before.length) ∈ (before ++ a :: rest).zipIdx := by
      rw [List.mem_zipIdx_iff_getElem?, List.getElem?_append_right (Nat.le_refl _), Nat.sub_self]
      rfl
    have hsay := h _ hmem
    rwa [List.take_left] at hsay
  · rintro h ⟨a, k⟩ hp
    have ha : l[k]? = some a := List.mem_zipIdx_iff_getElem?.1 hp
    obtain ⟨hlt, rfl⟩ := List.getElem?_eq_some_iff.1 ha
    refine h (l.take k) l[k] (l.drop (k + 1)) ?_
    rw [List.getElem_cons_drop, List.take_append_drop]

/-- What is said is said of some element. -/
theorem exists_of_mem_inTurn {b : β} (h : b ∈ inTurn say l) : ∃ before, ∃ a ∈ l, b ∈ say before a := by
  obtain ⟨⟨a, k⟩, ha, hb⟩ := List.mem_flatMap.1 h
  exact ⟨_, a, List.mem_of_getElem? (List.mem_zipIdx_iff_getElem?.1 ha), hb⟩

/-- The keys that there are are different iff no element has the key of one before it. -/
theorem nodup_filterMap_iff_before {κ : Type} {key? : α → Option κ} : (l.filterMap key?).Nodup ↔
    ∀ before a rest, l = before ++ a :: rest → ∀ k, key? a = some k → k ∉ before.filterMap key? := by
  constructor
  · rintro h before a rest rfl k hk
    rw [List.filterMap_append, List.filterMap_cons_some hk, List.nodup_middle, List.nodup_cons] at h
    exact fun hmem => h.1 (List.mem_append_left _ hmem)
  · induction l using List.reverseRecOn with
    | nil => exact fun _ => List.nodup_nil
    | append_singleton l a ih =>
      intro h
      have hl : (l.filterMap key?).Nodup := ih fun before b rest hb => h before b (rest ++ [a]) (by simp [hb])
      have ha : ∀ k, key? a = some k → k ∉ l.filterMap key? := h l a [] rfl
      rw [List.filterMap_append]
      cases hk : key? a with
      | none => simpa [hk] using hl
      | some k =>
        rw [List.filterMap_cons_some hk, List.filterMap_nil, ← List.concat_eq_append]
        exact hl.concat (ha k hk)

/-- So it is if each element has to be fine by itself and its key, if it has one, to be new. -/
theorem inTurn_eq_nil_of_key? {κ : Type} {key? : α → Option κ} {Fine : α → Prop}
    (h : ∀ before a, say before a = [] ↔ Fine a ∧ ∀ k, key? a = some k → k ∉ before.filterMap key?) :
    inTurn say l = [] ↔ (∀ a ∈ l, Fine a) ∧ (l.filterMap key?).Nodup := by
  simp only [inTurn_eq_nil, h, nodup_filterMap_iff_before]
  constructor
  · intro hall
    refine ⟨fun a ha => ?_, fun before a rest hl => (hall before a rest hl).2⟩
    obtain ⟨before, rest, hl⟩ := List.append_of_mem ha
    exact (hall before a rest hl).1
  · rintro ⟨hfine, hnew⟩ before a rest hl
    exact ⟨hfine a (by simp [hl]), hnew before a rest hl⟩

theorem inTurn_eq_nil_of_key {κ : Type} {key : α → κ} {Fine : α → Prop}
    (h : ∀ before a, say before a = [] ↔ Fine a ∧ key a ∉ before.map key) :
    inTurn say l = [] ↔ (∀ a ∈ l, Fine a) ∧ (l.map key).Nodup := by
  rw [← List.filterMap_eq_map]
  refine inTurn_eq_nil_of_key? fun before a => ?_
  rw [h, List.filterMap_eq_map]
  simp

end InTurn

namespace Verify

/-- What is wrong with the record at a position, as errors. -/
def errorsAt (k : Nat) (r : Record) (faults : List VerifyFault) : List VerifyError :=
  faults.map (⟨k, r.order, ·⟩)

/-! ## Operations and order numbers -/

/-- What is wrong with the operation and the order number of a record after those before it. -/
def recordFaults (before : List Record) (r : Record) : List VerifyFault :=
  (if isBlank r.opcode then [.emptyOpcode] else []) ++
    if r.order < 1 then [.nonPositiveOrder]
    else ((before.findIdx? fun x => x.order = r.order).map .duplicateOrder).toList

/-- `seen` tells for each positive number where it was used first. -/
def Seen (before : List Record) (seen : List (Int × Nat)) : Prop :=
  ∀ n : Int, 1 ≤ n → seen.lookup n = before.findIdx? fun x => x.order = n

theorem findIdx?_snoc (before : List Record) (r : Record) (n : Int) :
    (before ++ [r]).findIdx? (fun x => x.order = n) =
      (before.findIdx? fun x => x.order = n).or (if r.order = n then some before.length else none) := by
  rw [List.findIdx?_append]
  by_cases h : r.order = n <;> simp [List.findIdx?_cons, h]

theorem Seen.skip {before : List Record} {seen : List (Int × Nat)} {r : Record} (h : Seen before seen)
    (hr : r.order < 1 ∨ ∃ k, seen.lookup r.order = some k) : Seen (before ++ [r]) seen := by
  intro n hn
  rw [findIdx?_snoc, ← h n hn]
  split_ifs with he
  · obtain hlt | ⟨k, hk⟩ := hr
    · omega
    · rw [← he, hk]
      rfl
  · rw [Option.or_none]

theorem Seen.use {before : List Record} {seen : List (Int × Nat)} {r : Record} (h : Seen before seen)
    (hr : seen.lookup r.order = none) : Seen (before ++ [r]) ((r.order, before.length) :: seen) := by
  intro n hn
  rw [findIdx?_snoc, ← h n hn, List.lookup_cons]
  by_cases he : n = r.order
  · rw [he, hr]
    simp
  · have hb : (n == r.order) = false := by simpa using he
    rw [hb, if_neg (Ne.symm he), Option.or_none]

theorem recordErrors_eq (rs : List Record) : recordErrors [] 0 rs =
    inTurn (fun before r => errorsAt before.length r (recordFaults before r)) rs := by
  refine eq_inTurn (f := fun s => recordErrors s.1 s.2) (fun before s => Seen before s.1 ∧ s.2 = before.length)
    (fun _ => rfl) ?_ (s := ([], 0)) ⟨fun _ _ => rfl, rfl⟩ rs
  rintro before ⟨seen, k⟩ r rest ⟨hseen, hk⟩
  simp only at hseen hk
  subst hk
  have hlength : before.length + 1 = (before ++ [r]).length := by simp
  unfold errorsAt recordFaults
  rw [List.map_append]
  by_cases hpos : r.order < 1
  · refine ⟨(seen, _), ⟨hseen.skip (.inl hpos), rfl⟩, ?_⟩
    rw [recordErrors, if_pos hpos, if_pos hpos, ← hlength]
    split_ifs <;> rfl
  · have hlookup := hseen r.order (by omega)
    cases hfirst : seen.lookup r.order with
    | some first =>
      refine ⟨(seen, _), ⟨hseen.skip (.inr ⟨first, hfirst⟩), rfl⟩, ?_⟩
      rw [recordErrors, if_neg hpos, if_neg hpos, ← hlookup, hfirst, ← hlength]
      split_ifs <;> rfl
    | none =>
      refine ⟨(_, _), ⟨hseen.use hfirst, rfl⟩, ?_⟩
      rw [recordErrors, if_neg hpos, if_neg hpos, ← hlookup, hfirst, ← hlength]
      split_ifs <;> rfl

/-- **Nothing is wrong with operations and numbers** iff no operation is blank and the numbers
are positive and different. -/
theorem recordErrors_eq_nil {rs : List Record} : recordErrors [] 0 rs = [] ↔
    (∀ r ∈ rs, isBlank r.opcode = false) ∧ (∀ r ∈ rs, 1 ≤ r.order) ∧ (rs.map Record.order).Nodup := by
  have hfaults : ∀ before r, recordFaults before r = [] ↔
      (isBlank r.opcode = false ∧ 1 ≤ r.order) ∧ r.order ∉ before.map Record.order := by
    intro before r
    unfold recordFaults
    rw [List.append_eq_nil_iff, and_assoc]
    refine and_congr (by split_ifs <;> simp_all) ?_
    by_cases hpos : r.order < 1
    · simp only [hpos, if_true]
      exact iff_of_false (by simp) (by omega)
    · simp only [hpos, if_false, Option.toList_eq_nil_iff, Option.map_eq_none_iff, List.findIdx?_eq_none_iff]
      simp [show 1 ≤ r.order by omega]
  have herrors : ∀ before r, errorsAt before.length r (recordFaults before r) = [] ↔
      (isBlank r.opcode = false ∧ 1 ≤ r.order) ∧ r.order ∉ before.map Record.order :=
    fun before r => List.map_eq_nil_iff.trans (hfaults before r)
  rw [recordErrors_eq, inTurn_eq_nil_of_key herrors, ← and_assoc]
  simp only [forall_and]

/-! ## Slots -/

/-- What is wrong with a slot after those before it. -/
def slotFault (before : List Int) (s : Int) : List VerifyFault :=
  if s < 1 ∨ 3 < s then [.slotOutOfRange s] else if s ∈ before then [.duplicateSlot s] else []

/-- The slots from one on, up to the highest that is used, that are not used. -/
def gaps (slots : List Int) : List Int :=
  ((List.range' 1 ((slots.max?.getD 0).toNat - 1)).map Int.ofNat).filter fun s => s ∉ slots

/-- What is wrong with the slots of a record; gaps mean something only if no slot is out of range. -/
def argumentFaults (slots : List Int) : List VerifyFault :=
  inTurn slotFault slots ++ if ∀ s ∈ slots, 1 ≤ s ∧ s ≤ 3 then (gaps slots).map .missingSlot else []

theorem inRange_eq_true {s : Int} : inRange s = true ↔ 1 ≤ s ∧ s ≤ 3 := by
  simp [inRange]

theorem slotFaults_eq (slots : List Int) : slotFaults [] slots = inTurn slotFault slots := by
  refine eq_inTurn (fun before used => ∀ s, s ∈ used ↔ s ∈ before ∧ inRange s = true) (fun _ => rfl) ?_ (by simp) slots
  intro before used s rest hused
  unfold slotFault
  by_cases hrange : inRange s = true
  · have hin : ¬ (s < 1 ∨ 3 < s) := by
      have h := inRange_eq_true.1 hrange
      omega
    have hcontains : used.contains s = decide (s ∈ before) := by simp [hused, hrange]
    refine ⟨s :: used, fun t => ?_, ?_⟩
    · rw [List.mem_cons, hused, List.mem_append, List.mem_singleton]
      constructor
      · rintro (rfl | ⟨ht, hr⟩)
        · exact ⟨.inr rfl, hrange⟩
        · exact ⟨.inl ht, hr⟩
      · rintro ⟨ht | rfl, hr⟩
        · exact .inr ⟨ht, hr⟩
        · exact .inl rfl
    · rw [slotFaults, hrange, hcontains, if_neg hin]
      by_cases hs : s ∈ before <;> simp [hs]
  · have hout : s < 1 ∨ 3 < s := by
      have h := mt inRange_eq_true.2 hrange
      omega
    refine ⟨used, fun t => ?_, ?_⟩
    · rw [hused, List.mem_append, List.mem_singleton]
      constructor
      · exact fun h => ⟨.inl h.1, h.2⟩
      · rintro ⟨ht | rfl, hr⟩
        · exact ⟨ht, hr⟩
        · exact absurd hr hrange
    · rw [slotFaults, Bool.eq_false_iff.2 hrange, if_pos hout]
      rfl

theorem mem_range {k : Nat} {s : Int} : s ∈ (List.range' 1 k).map Int.ofNat ↔ 1 ≤ s ∧ s ≤ k := by
  rw [List.mem_map]
  simp only [List.mem_range'_1, Int.ofNat_eq_natCast]
  constructor
  · rintro ⟨n, hn, rfl⟩
    omega
  · exact fun hs => ⟨s.toNat, by omega, by omega⟩

theorem nodup_range (k : Nat) : ((List.range' 1 k).map Int.ofNat).Nodup :=
  List.Nodup.map (fun _ _ => Int.ofNat.inj) List.nodup_range'

theorem mem_gaps {slots : List Int} {s : Int} :
    s ∈ gaps slots ↔ 1 ≤ s ∧ (∃ t ∈ slots, s < t) ∧ s ∉ slots := by
  unfold gaps
  cases htop : slots.max? with
  | none =>
    obtain rfl := List.max?_eq_none_iff.1 htop
    simp
  | some top =>
    obtain ⟨hmem, hle⟩ := List.max?_eq_some_iff.1 htop
    have hbelow : (∃ t ∈ slots, s < t) ↔ s < top :=
      ⟨fun ⟨t, ht, hst⟩ => Int.lt_of_lt_of_le hst (hle t ht), fun h => ⟨top, hmem, h⟩⟩
    rw [List.mem_filter, mem_range, decide_eq_true_iff, hbelow, Option.getD_some, ← and_assoc]
    exact and_congr_left fun _ => by omega

theorem pairwise_gaps (slots : List Int) : (gaps slots).Pairwise (· < ·) :=
  (List.pairwise_map.2 ((List.pairwise_lt_range' 1 Nat.one_pos).imp Int.ofNat_lt.2)).filter _

theorem missingFaults_eq (slots : List Int) : missingFaults slots =
    if ∀ s ∈ slots, 1 ≤ s ∧ s ≤ 3 then (gaps slots).map .missingSlot else [] := by
  unfold missingFaults
  simp only [List.all_eq_true, inRange_eq_true]
  split_ifs with hrange
  · have hsorted : ([1, 2, 3].filter fun s => !slots.contains s && slots.any (s < ·)).Pairwise (· < ·) :=
      List.Pairwise.filter _ (by decide : List.Pairwise (· < ·) ([1, 2, 3] : List Int))
    have hmem : ∀ s, s ∈ [1, 2, 3].filter (fun s => !slots.contains s && slots.any (s < ·)) ↔ s ∈ gaps slots := by
      intro s
      rw [mem_gaps]
      simp only [List.mem_filter, List.mem_cons, List.not_mem_nil, or_false, Bool.and_eq_true, Bool.not_eq_true',
        List.contains_eq_mem, decide_eq_false_iff_not, List.any_eq_true, decide_eq_true_eq]
      constructor
      · rintro ⟨hs, hnew, hbelow⟩
        exact ⟨by omega, hbelow, hnew⟩
      · rintro ⟨hone, ⟨t, ht, hst⟩, hnew⟩
        have hthree := (hrange t ht).2
        exact ⟨by omega, hnew, t, ht, hst⟩
    have hperm := (List.perm_ext_iff_of_nodup (hsorted.imp Int.ne_of_lt) ((pairwise_gaps slots).imp Int.ne_of_lt)).2 hmem
    rw [hperm.eq_of_pairwise (fun a b _ _ hab hba => absurd hab (Int.not_lt.2 (Int.le_of_lt hba))) hsorted (pairwise_gaps slots)]
  · rfl

theorem argumentErrors_eq (rs : List Record) : argumentErrors 0 rs =
    inTurn (fun before r => errorsAt before.length r (argumentFaults (r.args.map Arg.slot))) rs := by
  refine eq_inTurn (fun before k => k = before.length) (fun _ => rfl) ?_ rfl rs
  rintro before _ r rest rfl
  refine ⟨before.length + 1, by simp, ?_⟩
  rw [argumentErrors, slotFaults_eq, missingFaults_eq]
  rfl

/-- **Nothing is wrong with the slots** iff they are those from one on, at most three, each used
once. -/
theorem argumentFaults_eq_nil {slots : List Int} :
    argumentFaults slots = [] ↔ ∃ k ≤ 3, slots.Perm ((List.range' 1 k).map Int.ofNat) := by
  have hslot : ∀ before s, slotFault before s = [] ↔ (1 ≤ s ∧ s ≤ 3) ∧ s ∉ before.map id := by
    intro before s
    unfold slotFault
    rw [List.map_id]
    split_ifs with hout hused
    · exact iff_of_false (by simp) (by omega)
    · exact iff_of_false (by simp) (by simp [hused])
    · exact iff_of_true rfl ⟨by omega, hused⟩
  have hgaps : gaps slots = [] ↔ ∀ s, 1 ≤ s → (∃ t ∈ slots, s < t) → s ∈ slots := by
    simp only [List.eq_nil_iff_forall_not_mem, mem_gaps, not_and, not_not]
  unfold argumentFaults
  rw [List.append_eq_nil_iff, inTurn_eq_nil_of_key hslot, List.map_id]
  constructor
  · rintro ⟨⟨hrange, hnodup⟩, hmissing⟩
    rw [if_pos hrange, List.map_eq_nil_iff, hgaps] at hmissing
    cases htop : slots.max? with
    | none =>
      rw [List.max?_eq_none_iff.1 htop]
      exact ⟨0, Nat.zero_le 3, .nil⟩
    | some top =>
      obtain ⟨hmem, hle⟩ := List.max?_eq_some_iff.1 htop
      have hthree := hrange top hmem
      refine ⟨top.toNat, by omega, (List.perm_ext_iff_of_nodup hnodup (nodup_range _)).2 fun s => ?_⟩
      rw [mem_range]
      constructor
      · intro hs
        have hone := (hrange s hs).1
        have htop := hle s hs
        omega
      · rintro ⟨hone, hs⟩
        rcases Int.lt_or_eq_of_le (show s ≤ top by omega) with hlt | rfl
        · exact hmissing s hone ⟨top, hmem, hlt⟩
        · exact hmem
  · rintro ⟨k, hk, hperm⟩
    have hmem : ∀ s, s ∈ slots ↔ 1 ≤ s ∧ s ≤ k := fun s => hperm.mem_iff.trans mem_range
    have hrange : ∀ s ∈ slots, 1 ≤ s ∧ s ≤ 3 := fun s hs => by
      have h := (hmem s).1 hs
      omega
    refine ⟨⟨hrange, hperm.nodup_iff.2 (nodup_range k)⟩, ?_⟩
    rw [if_pos hrange, List.map_eq_nil_iff, hgaps]
    rintro s hone ⟨t, ht, hst⟩
    have h := (hmem t).1 ht
    exact (hmem s).2 ⟨hone, by omega⟩

/-! ## Labels -/

/-- What is wrong with the label of a record after those of the records before it. -/
def labelFaults (before : List Record) (r : Record) : List VerifyFault :=
  match definedLabel? r with
  | some label => if label ∈ before.filterMap definedLabel? then [.duplicateLabel label] else []
  | none       => []

theorem repeatedLabels_eq (l : List (Record × Nat)) : repeatedLabels [] l =
    inTurn (fun before q => errorsAt q.2 q.1 (labelFaults (before.map Prod.fst) q.1)) l := by
  refine eq_inTurn (fun before defined => ∀ t, t ∈ defined ↔ t ∈ (before.map Prod.fst).filterMap definedLabel?)
    (fun _ => rfl) ?_ (fun _ => Iff.rfl) l
  rintro before defined ⟨r, k⟩ rest hdefined
  have hsnoc : ((before ++ [(r, k)]).map Prod.fst).filterMap definedLabel? =
      (before.map Prod.fst).filterMap definedLabel? ++ (definedLabel? r).toList := by
    rw [List.map_append, List.filterMap_append]
    cases h : definedLabel? r <;> simp [h]
  unfold labelFaults
  rw [repeatedLabels, hsnoc]
  cases hlabel : definedLabel? r with
  | none => exact ⟨defined, by simpa using hdefined, rfl⟩
  | some label =>
    by_cases hold : label ∈ (before.map Prod.fst).filterMap definedLabel?
    · have hcontains : defined.contains label = true := List.contains_iff_mem.2 ((hdefined label).2 hold)
      refine ⟨defined, fun t => ?_, ?_⟩
      · rw [hdefined, List.mem_append, Option.toList_some, List.mem_singleton]
        exact ⟨.inl, fun h => h.elim id fun e => e ▸ hold⟩
      · simp only [if_pos hcontains, if_pos hold]
        rfl
    · have hcontains : ¬ defined.contains label = true := fun h => hold ((hdefined label).1 (List.contains_iff_mem.1 h))
      refine ⟨label :: defined, fun t => ?_, ?_⟩
      · rw [List.mem_cons, hdefined, List.mem_append, Option.toList_some, List.mem_singleton, or_comm]
      · simp only [if_neg hcontains, if_neg hold]
        rfl

/-- Nothing is wrong with the labels iff they are all different. -/
theorem repeatedLabels_eq_nil {l : List (Record × Nat)} :
    repeatedLabels [] l = [] ↔ (l.filterMap fun q => definedLabel? q.1).Nodup := by
  have hfaults : ∀ (before : List (Record × Nat)) (q : Record × Nat),
      errorsAt q.2 q.1 (labelFaults (before.map Prod.fst) q.1) = [] ↔
      True ∧ ∀ label, definedLabel? q.1 = some label → label ∉ before.filterMap fun q => definedLabel? q.1 := by
    intro before q
    unfold errorsAt labelFaults
    rw [List.map_eq_nil_iff, List.filterMap_map]
    cases definedLabel? q.1 with
    | none => simp
    | some label => simp [Function.comp_def]
  rw [repeatedLabels_eq, inTurn_eq_nil_of_key? hfaults]
  simp

/-- The first record comes before the second one in the program: it has the smaller number, or
the same number and the smaller position. -/
def Precedes (p q : Record × Nat) : Prop := p.1.order < q.1.order ∨ p.1.order = q.1.order ∧ p.2 < q.2

theorem pairwise_precedes (rs : List Record) : (Sort.ascending (fun q => q.1.order) rs.zipIdx).Pairwise Precedes := by
  refine Sort.pairwise_of_ties _ (List.pairwise_map.1 ?_ : rs.zipIdx.Pairwise fun p q => p.2 < q.2)
  rw [List.zipIdx_map_snd]
  exact List.pairwise_lt_range' 1 Nat.one_pos

/-! ## Slots out of range -/

section OutOfRange

variable {before : List Record} {r : Record} {slots : List Int} {s : Int}

theorem slotOutOfRange_notMem_recordFaults : .slotOutOfRange s ∉ recordFaults before r := by
  unfold recordFaults
  split_ifs <;> simp

theorem slotOutOfRange_notMem_labelFaults : .slotOutOfRange s ∉ labelFaults before r := by
  unfold labelFaults
  split
  · split_ifs <;> simp
  · simp

theorem slotOutOfRange_mem_argumentFaults (h : .slotOutOfRange s ∈ argumentFaults slots) :
    s ∈ slots ∧ (s < 1 ∨ 3 < s) := by
  rcases List.mem_append.1 h with h | h
  · obtain ⟨_, t, ht, h⟩ := exists_of_mem_inTurn h
    unfold slotFault at h
    split_ifs at h with hout
    · cases List.mem_singleton.1 h
      exact ⟨ht, hout⟩
    · cases List.mem_singleton.1 h
    · cases h
  · split_ifs at h
    · obtain ⟨_, -, h⟩ := List.mem_map.1 h
      cases h
    · cases h

end OutOfRange

end Verify

end IppCode
