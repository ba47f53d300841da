import IppCode.Machine.Labels
import IppCode.Proofs.Traversal
/-!
# Labels — the label map and the instructions that define labels

A label map holds what it was begun with and the labels of the instructions it was built
from, each with its position, and nothing else (`lookup_collect`).  It can be built iff all of
these labels are new and different (`exists_collect_iff`), and otherwise the error is about the
first instruction that defines a label again or has none to define (`label_map_exact`).
-/
namespace IppCode

/-- The instruction is the definition of the label. -/
def Instruction.IsLabel (i : Instruction) (name : Text) : Prop :=
  i.opcode = .label ∧ i.args.head? = some (.const (.label name))

theorem Instruction.IsLabel.unique {i : Instruction} {a b : Text} (ha : i.IsLabel a) (hb : i.IsLabel b) :
    a = b := by
  simpa using ha.2.symm.trans hb.2

namespace Labels

variable {known labels : Labels} {k : Nat} {i : Instruction} {is : List Instruction}

/-! ## One instruction -/

theorem label_cases (i : Instruction) :
    i.opcode ≠ .label ∨ (∃ name, i.IsLabel name) ∨ i.opcode = .label ∧ ∀ name, ¬ i.IsLabel name := by
  by_cases hop : i.opcode = .label
  · by_cases hlabel : ∃ name, i.IsLabel name
    · exact .inr (.inl hlabel)
    · exact .inr (.inr ⟨hop, not_exists.1 hlabel⟩)
  · exact .inl hop

theorem collect_of_ne (hop : i.opcode ≠ .label) : collect known k (i :: is) = collect known (k + 1) is := by
  rw [collect, if_neg hop]

theorem collect_of_isLabel {name : Text} (hdef : i.IsLabel name) : collect known k (i :: is) =
    if (known.lookup name).isSome then .error ⟨k, .duplicateLabel name⟩ else collect ((name, k) :: known) (k + 1) is := by
  obtain ⟨rest, hargs⟩ := List.head?_eq_some_iff.1 hdef.2
  rw [collect, if_pos hdef.1, hargs]

theorem collect_of_unnamed (hop : i.opcode = .label) (hname : ∀ name, ¬ i.IsLabel name) :
    collect known k (i :: is) = .error ⟨k, .malformedOperand 0 .label⟩ := by
  rw [collect, if_pos hop]
  split
  · rename_i name rest hargs
    exact absurd ⟨hop, by rw [hargs, List.head?_cons]⟩ (hname name)
  · rfl

/-- The map passes an instruction that defines no label, and adds the label of one that does,
which has to be new. -/
theorem collect_cons : collect known k (i :: is) = .ok labels ↔
    (i.opcode ≠ .label ∧ collect known (k + 1) is = .ok labels) ∨
    ∃ name, i.IsLabel name ∧ known.lookup name = none ∧ collect ((name, k) :: known) (k + 1) is = .ok labels := by
  constructor
  · intro h
    rcases label_cases i with hop | ⟨name, hdef⟩ | ⟨hop, hname⟩
    · exact .inl ⟨hop, collect_of_ne hop ▸ h⟩
    · rw [collect_of_isLabel hdef] at h
      split at h
      · cases h
      · rename_i hnew
        exact .inr ⟨name, hdef, Option.not_isSome_iff_eq_none.1 hnew, h⟩
    · rw [collect_of_unnamed hop hname] at h
      cases h
  · rintro (⟨hop, h⟩ | ⟨name, hdef, hnew, h⟩)
    · rw [collect_of_ne hop, h]
    · rw [collect_of_isLabel hdef, hnew]
      exact h

/-! ## What a map holds, and when it can be built -/

/-- **What a label map holds.** -/
theorem lookup_collect : ∀ {is : List Instruction} {known : Labels} {k : Nat}, collect known k is = .ok labels →
    ∀ name j, labels.lookup name = some j ↔
      known.lookup name = some j ∨ ∃ n i, j = k + n ∧ is[n]? = some i ∧ i.IsLabel name
  | [], known, k, h, name, j => by
    cases h
    simp
  | i :: is, known, k, h, name, j => by
    have hsplit : (∃ n i', j = k + n ∧ (i :: is)[n]? = some i' ∧ i'.IsLabel name) ↔
        (j = k ∧ i.IsLabel name) ∨ ∃ n i', j = k + 1 + n ∧ is[n]? = some i' ∧ i'.IsLabel name := by
      constructor
      · rintro ⟨n, i', hj, hi', hdef⟩
        cases n with
        | zero =>
          cases hi'
          exact .inl ⟨hj, hdef⟩
        | succ n => exact .inr ⟨n, i', by omega, hi', hdef⟩
      · rintro (⟨hj, hdef⟩ | ⟨n, i', hj, hi', hdef⟩)
        · exact ⟨0, i, hj, rfl, hdef⟩
        · exact ⟨n + 1, i', by omega, hi', hdef⟩
    rw [hsplit]
    rcases collect_cons.1 h with ⟨hop, hrest⟩ | ⟨label, hdef, hnew, hrest⟩
    · have hno : ¬ i.IsLabel name := fun hdef => hop hdef.1
      rw [lookup_collect hrest name j]
      simp [hno]
    · rw [lookup_collect hrest name j]
      by_cases hname : name = label
      · subst hname
        simp [hnew, hdef, eq_comm]
      · have hno : ¬ i.IsLabel name := fun hd => hname (hd.unique hdef)
        have hne : (name == label) = false := by simpa using hname
        simp [List.lookup_cons, hne, hno]

theorem lookup_cons_eq_none {name other : Text} :
    List.lookup other ((name, k) :: known) = none ↔ other ≠ name ∧ known.lookup other = none := by
  simp [List.lookup_eq_none_iff]

/-- **When a label map can be built**: every label instruction defines a label that is not known
yet, and no two of them define the same. -/
theorem exists_collect_iff : ∀ {is : List Instruction} {known : Labels} {k : Nat},
    (∃ labels, collect known k is = .ok labels) ↔
      (∀ i ∈ is, i.opcode = .label → ∃ name, i.IsLabel name ∧ known.lookup name = none) ∧
      is.Pairwise fun i j => ∀ name, i.IsLabel name → ¬ j.IsLabel name
  | [], known, k => by simp [collect]
  | i :: is, known, k => by
    simp only [collect_cons, List.forall_mem_cons, List.pairwise_cons]
    constructor
    · rintro ⟨labels, ⟨hop, hrest⟩ | ⟨name, hdef, hnew, hrest⟩⟩
      · obtain ⟨hall, hdistinct⟩ := exists_collect_iff.1 ⟨labels, hrest⟩
        exact ⟨⟨fun h => absurd h hop, hall⟩, fun _ _ _ h => absurd h.1 hop, hdistinct⟩
      · obtain ⟨hall, hdistinct⟩ := exists_collect_iff.1 ⟨labels, hrest⟩
        have hother : ∀ j ∈ is, ∀ other, j.IsLabel other → other ≠ name ∧ known.lookup other = none := by
          intro j hj other hother
          obtain ⟨name', hdef', hnew'⟩ := hall j hj hother.1
          obtain rfl := hdef'.unique hother
          exact lookup_cons_eq_none.1 hnew'
        refine ⟨⟨fun _ => ⟨name, hdef, hnew⟩, fun j hj hop => ?_⟩, fun j hj other hi hj' => ?_, hdistinct⟩
        · obtain ⟨other, hdef', -⟩ := hall j hj hop
          exact ⟨other, hdef', (hother j hj other hdef').2⟩
        · exact (hother j hj other hj').1 (hi.unique hdef)
    · rintro ⟨⟨hi, hall⟩, hdiffer, hdistinct⟩
      by_cases hop : i.opcode = .label
      · obtain ⟨name, hdef, hnew⟩ := hi hop
        have hrest : ∀ j ∈ is, j.opcode = .label →
            ∃ other, j.IsLabel other ∧ List.lookup other ((name, k) :: known) = none := by
          intro j hj hop'
          obtain ⟨other, hdef', hnew'⟩ := hall j hj hop'
          have hne : other ≠ name := fun e => hdiffer j hj name hdef (e ▸ hdef')
          exact ⟨other, hdef', lookup_cons_eq_none.2 ⟨hne, hnew'⟩⟩
        obtain ⟨labels, hlabels⟩ := (exists_collect_iff (k := k + 1)).2 ⟨hrest, hdistinct⟩
        exact ⟨labels, .inr ⟨name, hdef, hnew, hlabels⟩⟩
      · obtain ⟨labels, hlabels⟩ := (exists_collect_iff (k := k + 1)).2 ⟨hall, hdistinct⟩
        exact ⟨labels, .inl ⟨hop, hlabels⟩⟩

theorem target?_eq_some {p : Program} (h : ofProgram p = .ok labels) {name : Text} :
    labels.target? name = some k ↔ ∃ i, p.instructions[k]? = some i ∧ i.IsLabel name := by
  unfold target?
  rw [lookup_collect h name k]
  simp

/-! ## Where a label map cannot be built -/

/-- **What is wrong with an instruction** when some labels are defined already: it should define
a label and has none, or defines one of those. -/
inductive Refused (defined : Text → Prop) (i : Instruction) : Fault → Prop
  | unnamed (hop : i.opcode = .label) (hname : ∀ name, ¬ i.IsLabel name) : Refused defined i (.malformedOperand 0 .label)
  | repeated {name : Text} (hdef : i.IsLabel name) (hdefined : defined name) : Refused defined i (.duplicateLabel name)

/-- One of the instructions at smaller indices defines the label. -/
def DefinedBefore (is : List Instruction) (k : Nat) (name : Text) : Prop :=
  ∃ j < k, ∃ i, is[j]? = some i ∧ i.IsLabel name

/-- **The instruction at an index is refused** for the labels of those before it. -/
def RefusedAt (is : List Instruction) (k : Nat) (fault : Fault) : Prop :=
  ∃ i, is[k]? = some i ∧ Refused (DefinedBefore is k) i fault

/-- The same where some labels are defined before all of the instructions. -/
def RefusedAfter (defined : Text → Prop) (is : List Instruction) (k : Nat) (fault : Fault) : Prop :=
  ∃ i, is[k]? = some i ∧ Refused (fun name => defined name ∨ DefinedBefore is k name) i fault

variable {defined : Text → Prop} {fault fault' : Fault} {e : RuntimeError}

theorem Refused.unique (h : Refused defined i fault) (h' : Refused defined i fault') : fault = fault' := by
  cases h with
  | unnamed _ hname =>
    cases h' with
    | unnamed => rfl
    | repeated hdef => exact absurd hdef (hname _)
  | repeated hdef =>
    cases h' with
    | unnamed _ hname => exact absurd hdef (hname _)
    | repeated hdef' => rw [hdef.unique hdef']

theorem definedBefore_succ {name : Text} :
    DefinedBefore (i :: is) (k + 1) name ↔ i.IsLabel name ∨ DefinedBefore is k name := by
  constructor
  · rintro ⟨j, hj, i', hi', hdef⟩
    cases j with
    | zero =>
      cases hi'
      exact .inl hdef
    | succ j => exact .inr ⟨j, Nat.lt_of_succ_lt_succ hj, i', hi', hdef⟩
  · rintro (hdef | ⟨j, hj, i', hi', hdef⟩)
    · exact ⟨0, Nat.succ_pos k, i, rfl, hdef⟩
    · exact ⟨j + 1, Nat.succ_lt_succ hj, i', hi', hdef⟩

theorem refusedAfter_zero : RefusedAfter defined (i :: is) 0 fault ↔ Refused defined i fault := by
  have hnone : ∀ name, ¬ DefinedBefore (i :: is) 0 name := fun name ⟨j, hj, _⟩ => absurd hj (Nat.not_lt_zero j)
  simp [RefusedAfter, hnone]

theorem refusedAfter_succ : RefusedAfter defined (i :: is) (k + 1) fault ↔
    RefusedAfter (fun name => defined name ∨ i.IsLabel name) is k fault := by
  simp only [RefusedAfter, List.getElem?_cons_succ, definedBefore_succ, or_assoc]

/-- The map holds the labels that are defined. -/
def Holds (known : Labels) (defined : Text → Prop) : Prop := ∀ name, known.lookup name ≠ none ↔ defined name

theorem Holds.cons {name : Text} (h : known.Holds defined) (hdef : i.IsLabel name) :
    Holds ((name, k) :: known) fun x => defined x ∨ i.IsLabel x := by
  intro x
  change _ ↔ defined x ∨ i.IsLabel x
  rw [ne_eq, lookup_cons_eq_none, ← h x]
  constructor
  · intro hx
    by_cases hname : x = name
    · exact .inr (hname ▸ hdef)
    · exact .inl fun hnone => hx ⟨hname, hnone⟩
  · rintro (hx | hx) ⟨hne, hnone⟩
    · exact hx hnone
    · exact hne (hx.unique hdef)

/-- **One instruction**: it is refused, and so is the whole map, or its label is added, if it has one. -/
theorem collect_step (h : known.Holds defined) (k : Nat) (i : Instruction) (is : List Instruction) :
    (∃ fault, Refused defined i fault ∧ collect known k (i :: is) = .error ⟨k, fault⟩) ∨
    (∀ fault, ¬ Refused defined i fault) ∧ ∃ known' : Labels, known'.Holds (fun name => defined name ∨ i.IsLabel name) ∧
      collect known k (i :: is) = collect known' (k + 1) is := by
  rcases label_cases i with hop | ⟨name, hdef⟩ | ⟨hop, hname⟩
  · have hno : ∀ name, ¬ i.IsLabel name := fun name hdef => hop hdef.1
    refine .inr ⟨fun fault hfault => ?_, known, fun name => ?_, collect_of_ne hop⟩
    · cases hfault with
      | unnamed hop' => exact hop hop'
      | repeated hdef => exact hno _ hdef
    · rw [h name]
      simp [hno]
  · rw [collect_of_isLabel hdef]
    split
    · rename_i hknown
      exact .inl ⟨_, .repeated hdef ((h name).1 (Option.isSome_iff_ne_none.1 hknown)), rfl⟩
    · rename_i hknown
      refine .inr ⟨fun fault hfault => ?_, _, h.cons hdef, rfl⟩
      cases hfault with
      | unnamed _ hname => exact hname name hdef
      | repeated hdef' hdefined =>
        rw [hdef'.unique hdef, ← h name] at hdefined
        exact hknown (Option.isSome_iff_ne_none.2 hdefined)
  · exact .inl ⟨_, .unnamed hop hname, collect_of_unnamed hop hname⟩

/-- **Where a label map cannot be built**: at the first instruction that is refused. -/
theorem collect_eq_error : ∀ {is : List Instruction} {known : Labels} {defined : Text → Prop} {k : Nat},
    known.Holds defined → (collect known k is = .error e ↔
      ∃ n, e.position = k + n ∧ FirstAt (RefusedAfter defined is) n e.fault)
  | [], known, defined, k, _ => by
    refine iff_of_false nofun ?_
    rintro ⟨n, -, ⟨i, hi, -⟩, -⟩
    cases hi
  | i :: is, known, defined, k, h => by
    rcases collect_step h k i is with ⟨fault, hfault, hcollect⟩ | ⟨hfine, known', h', hcollect⟩
    · have hzero : FirstAt (RefusedAfter defined (i :: is)) 0 fault := FirstAt.zero_iff.2 (refusedAfter_zero.2 hfault)
      rw [hcollect]
      constructor
      · rintro ⟨⟩
        exact ⟨0, rfl, hzero⟩
      · rintro ⟨n, hn, hfirst⟩
        obtain rfl := hfirst.place_unique hzero
        obtain ⟨position, fault'⟩ := e
        obtain rfl : position = k := hn
        rw [hfault.unique (refusedAfter_zero.1 hfirst.wrong)]
    · have hnone : ∀ fault, ¬ RefusedAfter defined (i :: is) 0 fault :=
        fun fault hzero => hfine fault (refusedAfter_zero.1 hzero)
      rw [hcollect, collect_eq_error h']
      constructor
      · rintro ⟨n, hn, hfirst⟩
        refine ⟨n + 1, by omega, (FirstAt.succ_iff hnone).2 ?_⟩
        exact (FirstAt.congr fun _ _ => refusedAfter_succ).2 hfirst
      · rintro ⟨n, hn, hfirst⟩
        cases n with
        | zero => exact absurd hfirst.wrong (hnone e.fault)
        | succ n => exact ⟨n, by omega, (FirstAt.congr fun _ _ => refusedAfter_succ).1 ((FirstAt.succ_iff hnone).1 hfirst)⟩

theorem holds_nil : Holds [] fun _ => False := fun _ => iff_of_false (fun h => h rfl) id

theorem ofProgram_eq_error {p : Program} :
    ofProgram p = .error e ↔ FirstAt (RefusedAt p.instructions) e.position e.fault := by
  have hafter : RefusedAfter (fun _ => False) p.instructions = RefusedAt p.instructions := by
    funext k fault
    simp only [RefusedAfter, RefusedAt, false_or]
  rw [ofProgram, collect_eq_error holds_nil, hafter]
  simp

/-- The instruction at the index defines a label that one before it defines. -/
def RepeatedAt (is : List Instruction) (k : Nat) (name : Text) : Prop :=
  ∃ i, is[k]? = some i ∧ i.IsLabel name ∧ DefinedBefore is k name

/-- If no label instruction is without a label, the only thing that can be wrong is that one is repeated. -/
theorem refusedAt_iff_of_named (h : ∀ i ∈ is, i.opcode = .label → ∃ name, i.IsLabel name) :
    RefusedAt is k fault ↔ ∃ name, fault = .duplicateLabel name ∧ RepeatedAt is k name := by
  constructor
  · rintro ⟨i, hi, hrefused⟩
    cases hrefused with
    | unnamed hop hname =>
      obtain ⟨name, hdef⟩ := h i (List.mem_of_getElem? hi) hop
      exact absurd hdef (hname name)
    | repeated hdef hdefined => exact ⟨_, rfl, i, hi, hdef, hdefined⟩
  · rintro ⟨name, rfl, i, hi, hdef, hdefined⟩
    exact ⟨i, hi, .repeated hdef hdefined⟩

theorem firstAt_refusedAt_iff (h : ∀ i ∈ is, i.opcode = .label → ∃ name, i.IsLabel name) :
    FirstAt (RefusedAt is) k fault ↔ ∃ name, fault = .duplicateLabel name ∧ FirstAt (RepeatedAt is) k name := by
  constructor
  · rintro ⟨hrefused, hearlier⟩
    obtain ⟨name, hfault, hrepeated⟩ := (refusedAt_iff_of_named h).1 hrefused
    exact ⟨name, hfault, hrepeated, fun j hj name' hj' => hearlier j hj _ ((refusedAt_iff_of_named h).2 ⟨name', rfl, hj'⟩)⟩
  · rintro ⟨name, hfault, hrepeated, hearlier⟩
    refine ⟨(refusedAt_iff_of_named h).2 ⟨name, hfault, hrepeated⟩, fun j hj fault' hj' => ?_⟩
    obtain ⟨name', -, hrepeated'⟩ := (refusedAt_iff_of_named h).1 hj'
    exact hearlier j hj name' hrepeated'

/-- **The label map is exact.**  It can be built from a program all of whose label instructions have
labels iff no two of these are the same; otherwise it fails at the first instruction whose label one
before it defines, and names that label.  In a map that can be built a label has the index of the
instruction that defines it, and no other text is in it.  If there are label instructions without
labels, the error is about the first instruction that is one of those or repeats a label. -/
theorem label_map_exact (p : Program) :
    ((∀ i ∈ p.instructions, i.opcode = .label → ∃ name, i.IsLabel name) →
      ((∃ labels, ofProgram p = .ok labels) ↔
        p.instructions.Pairwise fun i j => ∀ name, i.IsLabel name → ¬ j.IsLabel name) ∧
      ∀ e, ofProgram p = .error e ↔
        ∃ name, e.fault = .duplicateLabel name ∧ FirstAt (RepeatedAt p.instructions) e.position name) ∧
    (∀ labels, ofProgram p = .ok labels → ∀ name k, labels.target? name = some k ↔
      ∃ i, p.instructions[k]? = some i ∧ i.IsLabel name) ∧
    ∀ e, ofProgram p = .error e ↔ FirstAt (RefusedAt p.instructions) e.position e.fault := by
  refine ⟨fun hnamed => ⟨?_, fun e => ?_⟩, fun labels hlabels name k => target?_eq_some hlabels, fun e => ofProgram_eq_error⟩
  · unfold ofProgram
    rw [exists_collect_iff]
    refine and_iff_right fun i hi hop => ?_
    obtain ⟨name, hdef⟩ := hnamed i hi hop
    exact ⟨name, hdef, rfl⟩
  · rw [ofProgram_eq_error, firstAt_refusedAt_iff hnamed]

/-- Two labels; a label that is defined twice in front of others that are; and a label instruction
that has a variable in front of a label that is defined twice. -/
theorem label_map_exact_of_repeated :
    let label (name : Text) : Instruction := ⟨.label, 1, [.const (.label name)]⟩
    let fine : Program := ⟨[⟨.brk, 1, []⟩, label "a", label "b"]⟩
    let named : Program := ⟨[label "a", label "b", ⟨.brk, 1, []⟩, label "b", label "a", label "b"]⟩
    let unnamed : Program := ⟨[label "a", ⟨.label, 1, [.var ⟨.gf, "x"⟩]⟩, label "a"]⟩
    (∃ labels, ofProgram fine = .ok labels ∧ labels.target? "b" = some 2 ∧
      ∃ i, fine.instructions[2]? = some i ∧ i.IsLabel "b") ∧
    (ofProgram named = .error ⟨3, .duplicateLabel "b"⟩ ∧ FirstAt (RepeatedAt named.instructions) 3 "b") ∧
    ofProgram unnamed = .error ⟨1, .malformedOperand 0 .label⟩ ∧
      FirstAt (RefusedAt unnamed.instructions) 1 (.malformedOperand 0 .label) := by
  intro label fine named unnamed
  have hfine : ofProgram fine = .ok [("b", 2), ("a", 1)] := by decide
  have hnamed : ofProgram named = .error ⟨3, .duplicateLabel "b"⟩ := by decide
  have hunnamed : ofProgram unnamed = .error ⟨1, .malformedOperand 0 .label⟩ := by decide
  have hlabels : ∀ i ∈ named.instructions, i.opcode = .label → ∃ name, i.IsLabel name := by
    simp [named, label, Instruction.IsLabel]
  obtain ⟨name, hname, hfirst⟩ := (((label_map_exact named).1 hlabels).2 _).1 hnamed
  cases hname
  exact ⟨⟨_, hfine, by decide, ((label_map_exact fine).2.1 _ hfine "b" 2).1 (by decide)⟩, ⟨hnamed, hfirst⟩,
    hunnamed, ((label_map_exact unnamed).2.2 _).1 hunnamed⟩

end Labels

end IppCode
