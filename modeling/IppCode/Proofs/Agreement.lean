import Mathlib.Data.List.Nodup
import IppCode.Proofs.Runs
import IppCode.Proofs.Sorting
import IppCode.Proofs.Verified
/-!
# Agreement — the labels of the records and those of the program

The verifier goes through the records in the order of their numbers, the label map through
the instructions as they are in the program.  They meet the same labels in the same order
(`agrees_of_bound`), so one finds nothing iff the other can be built, and the first error of
the one is the error of the other (`labels_agree`).
-/
namespace IppCode

theorem exists_right_of_getElem? {α β : Type} {R : α → β → Prop} {l : List α} {l' : List β} {n : Nat} {a : α}
    (h : List.Forall₂ R l l') (ha : l[n]? = some a) : ∃ b, l'[n]? = some b ∧ R a b := by
  obtain ⟨hlt, rfl⟩ := List.getElem?_eq_some_iff.1 ha
  have hlt' : n < l'.length := by rw [← h.length_eq]; exact hlt
  exact ⟨l'[n], List.getElem?_eq_getElem hlt', h.get hlt hlt'⟩

/-- The label map takes the label of an instruction whose operands fit, if it has one, and
refuses one that it knows. -/
theorem Labels.collect_of_fits {i : Instruction} (h : i.Fits) (known : Labels) (k : Nat) (is : List Instruction) :
    collect known k (i :: is) = match i.defines? with
      | none      => collect known (k + 1) is
      | some name =>
        if (known.lookup name).isSome then .error ⟨k, .duplicateLabel name⟩
        else collect ((name, k) :: known) (k + 1) is := by
  obtain ⟨opcode, order, args⟩ := i
  by_cases hop : opcode = .label
  · subst hop
    obtain ⟨o, os, hfit, hnil, rfl⟩ := List.forall₂_cons_left_iff.1 h
    cases hnil
    obtain ⟨name, rfl⟩ := Slot.fits_label hfit
    rfl
  · have hnone : Instruction.defines? ⟨opcode, order, args⟩ = none := by
      unfold Instruction.defines?
      split
      · exact absurd ‹_› hop
      · rfl
    rw [hnone, collect, if_neg hop]

namespace Verify

/-- What is found wrong with the labels of records in a sequence, and what becomes of the
label map of the instructions there, the first of which is at a position. -/
inductive Agrees (l : List (Record × Nat)) (k : Nat) : List VerifyError → Except RuntimeError Labels → Prop
  | fine (labels : Labels) : Agrees l k [] (.ok labels)
  | repeated {n : Nat} {r : Record} {v : VerifyError} {vs : List VerifyError} {label : Text}
      (hn : l[n]? = some (r, v.position)) (hv : v.fault = .duplicateLabel label) :
      Agrees l k (v :: vs) (.error ⟨k + n, .duplicateLabel label⟩)

namespace Agrees

variable {l : List (Record × Nat)} {k : Nat} {errors vs : List VerifyError} {v : VerifyError}
  {result : Except RuntimeError Labels}

theorem cons {q : Record × Nat} (h : Agrees l (k + 1) errors result) : Agrees (q :: l) k errors result := by
  cases h with
  | fine labels => exact .fine labels
  | repeated hn hv =>
    rw [Nat.add_right_comm, Nat.add_assoc]
    exact .repeated hn hv

theorem eq_nil_iff (h : Agrees l k errors result) : errors = [] ↔ ∃ labels, result = .ok labels := by
  cases h <;> simp

theorem first (h : Agrees l k (v :: vs) result) : ∃ n r label, l[n]? = some (r, v.position) ∧
    v.fault = .duplicateLabel label ∧ result = .error ⟨k + n, .duplicateLabel label⟩ := by
  cases h with
  | repeated hn hv => exact ⟨_, _, _, hn, hv, rfl⟩

end Agrees

/-- The record, in whatever position, binds to the instruction and has its arguments in their
slots. -/
def Bound (q : Record × Nat) (i : Instruction) : Prop := Slotted q.1 ∧ Instruction.bind q.1 = .ok i

/-- **Records and their instructions in one sequence agree**, if the labels before them did. -/
theorem agrees_of_bound {l : List (Record × Nat)} {is : List Instruction} {defined : List Text} {known : Labels}
    {k : Nat} (h : List.Forall₂ Bound l is) (hknown : ∀ t, t ∈ defined ↔ (known.lookup t).isSome = true) :
    Agrees l k (repeatedLabels defined l) (Labels.collect known k is) := by
  induction h generalizing defined known k with
  | nil => exact .fine known
  | @cons q i l is hq _ ih =>
    obtain ⟨r, j⟩ := q
    obtain ⟨hslot, hbind⟩ := hq
    rw [Labels.collect_of_fits (Instruction.fits_of_bind hbind), ← definedLabel?_of_bind hbind hslot, repeatedLabels]
    cases definedLabel? r with
    | none => exact (ih hknown).cons
    | some name =>
      by_cases hname : name ∈ defined
      · have hcontains : defined.contains name = true := by simpa using hname
        simp only [hcontains, (hknown name).1 hname, if_true]
        exact .repeated (n := 0) (v := ⟨j, r.order, .duplicateLabel name⟩) rfl rfl
      · have hcontains : defined.contains name = false := by simpa using hname
        have hlookup : (known.lookup name).isSome = false := by
          rw [Bool.eq_false_iff]
          exact fun h => hname ((hknown name).2 h)
        have hknown' : ∀ t, t ∈ name :: defined ↔ (((name, k) :: known).lookup t).isSome = true := by
          intro t
          rw [List.mem_cons, List.lookup_cons, hknown t]
          by_cases htn : t = name
          · simp [htn]
          · have hb : (t == name) = false := by simpa using htn
            simp [htn, hb]
        simp only [hcontains, hlookup, Bool.false_eq_true, if_false]
        exact (ih hknown').cons

end Verify

namespace Program

variable {rs : List Record} {p : Program}

theorem bound_of_records (h : ofRecords rs = .ok p) (hslots : ∀ r ∈ rs, Verify.Slotted r) :
    List.Forall₂ Verify.Bound (Sort.ascending (fun q => q.1.order) rs.zipIdx) p.instructions := by
  obtain ⟨is, his, rfl⟩ := ofRecords_eq_ok.1 h
  have hpairs : List.Forall₂ Verify.Bound rs.zipIdx is := by
    have hboth := (List.forall₂_and_left rs is).2 ⟨hslots, his⟩
    rw [← List.zipIdx_map_fst 0 rs] at hboth
    exact (List.forall₂_map_left_iff (f := Prod.fst)).1 hboth
  exact Sort.forall₂_ascending (fun q i hq => (Instruction.bind_eq_ok.1 hq.2).2.1.symm) hpairs

/-- The place of a record in the sorted sequence is the one that its number and those of the
other records give it. -/
theorem place_of_getElem? {n j : Nat} {r : Record}
    (h : (Sort.ascending (fun q => q.1.order) rs.zipIdx)[n]? = some (r, j)) :
    rs[j]? = some r ∧ n = Sort.place Record.order rs j r := by
  have hmem : (r, j) ∈ rs.zipIdx := (Sort.perm_ascending _ _).mem_iff.1 (List.mem_of_getElem? h)
  have hr : rs[j]? = some r := List.mem_zipIdx_iff_getElem?.1 hmem
  have hj : rs.zipIdx[j]? = some (r, j) := by
    rw [List.getElem?_zipIdx, hr]
    simp
  have hnodup : (Sort.ascending (fun q : Record × Nat => q.1.order) rs.zipIdx).Nodup := by
    rw [(Sort.perm_ascending _ _).nodup_iff]
    refine List.Nodup.of_map Prod.snd ?_
    rw [List.zipIdx_map_snd]
    exact List.nodup_range'
  have hplace := Sort.getElem?_ascending (fun q => q.1.order) hj
  have hn := (List.getElem?_inj (List.getElem?_eq_some_iff.1 h).1 hnodup).1 (h.trans hplace.symm)
  have hfst := Sort.place_map Record.order Prod.fst rs.zipIdx j (r, j)
  rw [List.zipIdx_map_fst] at hfst
  exact ⟨hr, hn.trans hfst.symm⟩

/-- **The verifier and the label map agree.**  If the arguments of records that bind are in
their slots, the verifier finds nothing wrong with the labels iff the label map can be built;
otherwise the label map fails with the label of the verifier's first error, at the place that
the record at fault has in the program.  So what has passed the verifier and is bound can be
run. -/
theorem labels_agree (h : ofRecords rs = .ok p) :
    (Verify.argumentErrors 0 rs = [] →
      (Verify.labelErrors rs = [] ↔ ∃ labels, Labels.ofProgram p = .ok labels) ∧
      ∀ v vs, Verify.labelErrors rs = v :: vs → ∃ r i label, rs[v.position]? = some r ∧
        Instruction.bind r = .ok i ∧ p.instructions[Sort.place Record.order rs v.position r]? = some i ∧
        v.fault = .duplicateLabel label ∧
        Labels.ofProgram p = .error ⟨Sort.place Record.order rs v.position r, .duplicateLabel label⟩) ∧
    (verify rs = [] → ∀ limit sink, ∃ m, Machine.load p limit sink = .ok m) := by
  have hagrees : (∀ r ∈ rs, Verify.Slotted r) →
      Verify.Agrees (Sort.ascending (fun q => q.1.order) rs.zipIdx) 0 (Verify.labelErrors rs) (Labels.ofProgram p) :=
    fun hslots => Verify.agrees_of_bound (bound_of_records h hslots) (by simp)
  refine ⟨fun hargs => ?_, fun hverify limit sink => ?_⟩
  · have hslots := Verify.argumentErrors_eq_nil.1 hargs
    refine ⟨(hagrees hslots).eq_nil_iff, fun v vs hv => ?_⟩
    have hfirst := hagrees hslots
    rw [hv] at hfirst
    obtain ⟨n, r, label, hn, hfault, hlabels⟩ := hfirst.first
    obtain ⟨hr, rfl⟩ := place_of_getElem? hn
    obtain ⟨i, hi, -, hbind⟩ := exists_right_of_getElem? (bound_of_records h hslots) hn
    rw [Nat.zero_add] at hlabels
    exact ⟨r, i, label, hr, hbind, hi, hfault, hlabels⟩
  · obtain ⟨-, hslots, hnodup⟩ := verify_eq_nil.1 hverify
    obtain ⟨labels, hlabels⟩ := (hagrees hslots).eq_nil_iff.1 (Verify.labelErrors_eq_nil.2 hnodup)
    exact ⟨_, Machine.load_eq_ok.2 ⟨labels, hlabels, rfl⟩⟩

/-- A program that passes, and the same with another definition of its label in front, which
is the last instruction all the same. -/
theorem labels_agree_on_repeated :
    let rs : List Record := [⟨1, "break", []⟩, ⟨2, "Label", [⟨1, "label", "a"⟩]⟩]
    let r : Record := ⟨3, "LABEL", [⟨1, "label", "a"⟩]⟩
    let p : Program := ⟨[⟨.brk, 1, []⟩, ⟨.label, 2, [.const (.label "a")]⟩]⟩
    let q : Program := ⟨p.instructions ++ [⟨.label, 3, [.const (.label "a")]⟩]⟩
    ofRecords rs = .ok p ∧ verify rs = [] ∧ (∃ m, Machine.load p none .quiet = .ok m) ∧
      ofRecords (r :: rs) = .ok q ∧ Verify.argumentErrors 0 (r :: rs) = [] ∧
      Verify.labelErrors (r :: rs) = [⟨0, 3, .duplicateLabel "a"⟩] ∧
      Labels.ofProgram q = .error ⟨2, .duplicateLabel "a"⟩ := by
  intro rs r p q
  have hp : ofRecords rs = .ok p := by decide +kernel
  have hverify : verify rs = [] := by decide +kernel
  have hq : ofRecords (r :: rs) = .ok q := by decide +kernel
  have hargs : Verify.argumentErrors 0 (r :: rs) = [] := by decide +kernel
  have herrors : Verify.labelErrors (r :: rs) = [⟨0, 3, .duplicateLabel "a"⟩] := by decide +kernel
  obtain ⟨r', i, label, hr, -, -, hfault, hlabels⟩ := ((labels_agree hq).1 hargs).2 _ _ herrors
  cases hr
  cases hfault
  exact ⟨hp, hverify, (labels_agree hp).2 hverify none .quiet, hq, hargs, herrors, hlabels⟩

end Program

end IppCode
