import IppCode.Proofs.Binding
import IppCode.Proofs.Reports
/-!
# Verified — records that pass the checks

Nothing is wrong with the arguments iff every record has them in the slots that it should
(`argumentErrors_eq_nil`), and with the labels iff no two records define the same one
(`labelErrors_eq_nil`), in whatever order the records come.  A record that binds then
defines the label that its instruction has (`definedLabel?_of_bind`).
-/
namespace IppCode

def Instruction.defines? (i : Instruction) : Option Text :=
  match i.opcode, i.args with
  | .label, [.const (.label name)] => some name
  | _,      _                      => none

namespace Operand

theorem eq_of_parse_label {kind t name : Text} (h : parse kind t = .ok (.const (.label name))) : t = name := by
  unfold parse at h
  split at h
  · rename_i k _
    cases k with
    | label =>
      simp only [ofKind] at h
      split at h
      · cases h
        rfl
      · cases h
    | int | var | type =>
      simp only [ofKind] at h
      split at h <;> cases h
    | bool | string | nil => cases h
  · cases h

end Operand

namespace Verify

/-! ## Operations and order numbers -/

/-- **Records that are numbered one after another** have order numbers of their own. -/
theorem recordErrors_of_counts : ∀ {seen : List (Int × Nat)} (position : Nat) {k : Nat} {rs : List Record},
    0 < k → (∀ p ∈ seen, p.1 < k) → Sort.Counts Record.order k rs → (∀ r ∈ rs, isBlank r.opcode = false) →
    recordErrors seen position rs = []
  | _, _, _, [], _, _, _, _ => rfl
  | seen, position, k, r :: rs, hk, hseen, ⟨hr, hcounts⟩, hopcodes => by
    have hnew : seen.lookup r.order = none := by
      rw [List.lookup_eq_none_iff]
      intro p hp
      have hlt := hseen p hp
      simp only [bne_iff_ne]
      omega
    have hseen' : ∀ p ∈ (r.order, position) :: seen, p.1 < (k + 1 : Nat) := by
      intro p hp
      rcases List.mem_cons.1 hp with rfl | hp
      · rw [hr]
        exact Int.ofNat_lt.2 (Nat.lt_succ_self k)
      · have hlt := hseen p hp
        omega
    have hrest := recordErrors_of_counts (position + 1) (Nat.succ_pos k) hseen' hcounts
      fun x hx => hopcodes x (List.mem_cons_of_mem r hx)
    have hopcode : isBlank r.opcode = false := hopcodes r List.mem_cons_self
    have hpos : ¬ r.order < 1 := by omega
    rw [recordErrors]
    simp only [hopcode, hpos, hnew, hrest]
    rfl

/-! ## Slots -/

/-- **The arguments are in the slots from one on**, at most three, each in its own. -/
def Slotted (r : Record) : Prop :=
  slotFaults [] (r.args.map Arg.slot) = [] ∧ missingFaults (r.args.map Arg.slot) = []

theorem argumentErrors_eq_nil : ∀ {k : Nat} {rs : List Record},
    argumentErrors k rs = [] ↔ ∀ r ∈ rs, Slotted r
  | _, [] => by simp [argumentErrors]
  | k, r :: rs => by
    rw [List.forall_mem_cons, ← argumentErrors_eq_nil (k := k + 1), argumentErrors]
    simp only [List.append_eq_nil_iff, List.map_eq_nil_iff]
    exact Iff.rfl

theorem slotted_iff {r : Record} :
    Slotted r ↔ ∃ k ≤ 3, (r.args.map Arg.slot).Perm ((List.range' 1 k).map Int.ofNat) := by
  rw [← argumentFaults_eq_nil, argumentFaults, List.append_eq_nil_iff, ← slotFaults_eq, ← missingFaults_eq]
  exact Iff.rfl

theorem slotted_of_counts {r : Record} (h : Sort.Counts Arg.slot 1 r.args) (hlen : r.args.length ≤ 3) :
    Slotted r :=
  slotted_iff.2 ⟨r.args.length, hlen, by rw [h.map_key]⟩

/-- An argument that is alone is in the first slot. -/
theorem Slotted.slot_eq_one {r : Record} {a : Arg} (h : Slotted r) (hargs : r.args = [a]) : a.slot = 1 := by
  obtain ⟨k, -, hperm⟩ := slotted_iff.1 h
  rw [hargs, List.map_singleton] at hperm
  obtain rfl : 1 = k := by simpa using hperm.length_eq
  have hmem := mem_range.1 (hperm.mem_iff.1 (List.mem_singleton_self a.slot))
  omega

/-! ## Labels -/

/-- **The label of a record is that of its instruction.** -/
theorem definedLabel?_of_bind {r : Record} {i : Instruction} (h : Instruction.bind r = .ok i) (hr : Slotted r) :
    definedLabel? r = i.defines? := by
  obtain ⟨hop, -, hlen, hargs⟩ := Instruction.bind_eq_ok.1 h
  obtain ⟨opcode, order, os⟩ := i
  simp only at hop hlen hargs
  unfold definedLabel?
  by_cases hlabel : opcode = .label
  · subst hlabel
    obtain ⟨a, ha⟩ := List.length_eq_one_iff.1 hlen
    have hone := hr.slot_eq_one ha
    rw [ha] at hargs
    obtain ⟨o, os', ⟨hparse, hfit⟩, hnil, rfl⟩ := List.forall₂_cons_left_iff.1 hargs
    cases hnil
    obtain ⟨name, rfl⟩ := Slot.fits_label hfit
    rw [if_pos hop, ha]
    simp only [List.find?_singleton, hone, decide_true, if_true, Option.map_some]
    rw [Operand.eq_of_parse_label hparse]
    rfl
  · rw [if_neg (by rw [hop]; simpa using hlabel)]
    unfold Instruction.defines?
    split
    · rename_i hop' _
      exact absurd hop' hlabel
    · rfl

/-- **Nothing is wrong with the labels** iff they are all different. -/
theorem labelErrors_eq_nil {rs : List Record} : labelErrors rs = [] ↔ (rs.filterMap definedLabel?).Nodup := by
  have hperm : ((Sort.ascending (fun p => p.1.order) rs.zipIdx).filterMap fun q => definedLabel? q.1).Perm
      (rs.zipIdx.filterMap fun q => definedLabel? q.1) :=
    (Sort.perm_ascending _ rs.zipIdx).filterMap _
  have hfst : (rs.zipIdx.filterMap fun q => definedLabel? q.1) = rs.filterMap definedLabel? := by
    rw [← Function.comp_def definedLabel? Prod.fst, ← List.filterMap_map, List.zipIdx_map_fst]
  unfold labelErrors
  rw [repeatedLabels_eq_nil, hperm.nodup_iff, hfst]

theorem filterMap_definedLabel? : ∀ {rs : List Record} {is : List Instruction},
    List.Forall₂ (fun r i => Instruction.bind r = .ok i) rs is → (∀ r ∈ rs, Slotted r) →
    rs.filterMap definedLabel? = is.filterMap Instruction.defines?
  | _, _, .nil, _ => rfl
  | r :: rs, i :: is, .cons h t, hr => by
    rw [List.filterMap_cons, List.filterMap_cons, definedLabel?_of_bind h (hr r List.mem_cons_self),
      filterMap_definedLabel? t fun x hx => hr x (List.mem_cons_of_mem r hx)]

end Verify

theorem verify_eq_nil {rs : List Record} : verify rs = [] ↔
    Verify.recordErrors [] 0 rs = [] ∧ (∀ r ∈ rs, Verify.Slotted r) ∧ (rs.filterMap Verify.definedLabel?).Nodup := by
  unfold verify
  rw [List.append_eq_nil_iff, List.append_eq_nil_iff, Verify.argumentErrors_eq_nil, Verify.labelErrors_eq_nil,
    and_assoc]

/-! ## The whole report -/

/-- **What the verifier asks of the records of a program.** -/
structure Verify.Passes (rs : List Record) : Prop where
  opcodes  : ∀ r ∈ rs, isBlank r.opcode = false
  positive : ∀ r ∈ rs, 1 ≤ r.order
  orders   : (rs.map Record.order).Nodup
  /-- The slots of a record are those from one on, at most three, each used once. -/
  slots    : ∀ r ∈ rs, ∃ k ≤ 3, (r.args.map Arg.slot).Perm ((List.range' 1 k).map Int.ofNat)
  labels   : (rs.filterMap definedLabel?).Nodup

theorem verify_eq_nil_iff_passes {rs : List Record} : verify rs = [] ↔ Verify.Passes rs := by
  simp only [verify_eq_nil, Verify.recordErrors_eq_nil, Verify.slotted_iff]
  constructor
  · rintro ⟨⟨hopcodes, hpositive, horders⟩, hslots, hlabels⟩
    exact ⟨hopcodes, hpositive, horders, hslots, hlabels⟩
  · rintro ⟨hopcodes, hpositive, horders, hslots, hlabels⟩
    exact ⟨⟨hopcodes, hpositive, horders⟩, hslots, hlabels⟩

/-- **The verifier reports exactly what is wrong.**  First, record by record, what is wrong with
operations and order numbers, then, again record by record, what is wrong with the slots; then
the labels that were defined before, in the one sequence of the records in which each comes
after those with smaller numbers and after those with the same number that stand ahead of it.
So it reports nothing iff the records are as it asks. -/
theorem verify_exact (rs : List Record) :
    (∃ sorted : List (Record × Nat), sorted.Perm rs.zipIdx ∧ sorted.Pairwise Verify.Precedes ∧
      verify rs =
        inTurn (fun before r => Verify.errorsAt before.length r (Verify.recordFaults before r)) rs ++
        inTurn (fun before r => Verify.errorsAt before.length r (Verify.argumentFaults (r.args.map Arg.slot))) rs ++
        inTurn (fun before q => Verify.errorsAt q.2 q.1 (Verify.labelFaults (before.map Prod.fst) q.1)) sorted) ∧
    (verify rs = [] ↔ Verify.Passes rs) := by
  refine ⟨⟨_, Sort.perm_ascending (fun q => q.1.order) _, Verify.pairwise_precedes rs, ?_⟩, verify_eq_nil_iff_passes⟩
  rw [verify, Verify.recordErrors_eq, Verify.argumentErrors_eq, Verify.labelErrors, Verify.repeatedLabels_eq]

/-- **A slot is reported as out of range** only if there is an argument in it, and it is. -/
theorem exists_arg_of_slotOutOfRange {rs : List Record} {e : VerifyError} {slot : Int} (he : e ∈ verify rs)
    (hfault : e.fault = .slotOutOfRange slot) : ∃ r ∈ rs, ∃ a ∈ r.args, a.slot = slot ∧ (slot < 1 ∨ 3 < slot) := by
  have hsaid {k : Nat} {r : Record} {faults : List VerifyFault} (h : e ∈ Verify.errorsAt k r faults) :
      .slotOutOfRange slot ∈ faults := by
    obtain ⟨fault, hmem, rfl⟩ := List.mem_map.1 h
    exact hfault ▸ hmem
  rw [verify, Verify.recordErrors_eq, Verify.argumentErrors_eq, Verify.labelErrors, Verify.repeatedLabels_eq,
    List.mem_append, List.mem_append] at he
  rcases he with (he | he) | he
  · obtain ⟨before, r, -, he⟩ := exists_of_mem_inTurn he
    exact absurd (hsaid he) Verify.slotOutOfRange_notMem_recordFaults
  · obtain ⟨before, r, hr, he⟩ := exists_of_mem_inTurn he
    obtain ⟨hslot, hout⟩ := Verify.slotOutOfRange_mem_argumentFaults (hsaid he)
    obtain ⟨a, ha, hslot⟩ := List.mem_map.1 hslot
    exact ⟨r, hr, a, ha, hslot, hout⟩
  · obtain ⟨before, q, -, he⟩ := exists_of_mem_inTurn he
    exact absurd (hsaid he) Verify.slotOutOfRange_notMem_labelFaults

end IppCode
