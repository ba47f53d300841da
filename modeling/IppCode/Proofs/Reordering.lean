import Mathlib.Data.List.Perm.Basic
import IppCode.Proofs.Verified
/-!
# Reordering — records and arguments in another order

Records are sorted by their numbers, and the arguments of a record by their slots.  Where these
are all different, what is sorted does not depend on the order in which it came
(`Sort.ascending_eq_of_perm`), so neither does the program that the records bind to, nor whether
they pass the verifier (`ofRecords_of_reordered`).
-/
namespace IppCode

/-! ## One record -/

/-- **The record with its arguments in another order.** -/
structure Record.Rearranged (r r' : Record) : Prop where
  order  : r'.order = r.order
  opcode : r'.opcode = r.opcode
  args   : r'.args.Perm r.args

namespace Record.Rearranged

variable {r r' : Record} (h : r.Rearranged r')

include h

theorem symm : r'.Rearranged r := ⟨h.order.symm, h.opcode.symm, h.args.symm⟩

theorem ascending_args (hslots : (r.args.map Arg.slot).Nodup) :
    Sort.ascending Arg.slot r'.args = Sort.ascending Arg.slot r.args :=
  (Sort.ascending_eq_of_perm h.args.symm hslots).symm

theorem bind_eq (hslots : (r.args.map Arg.slot).Nodup) : Instruction.bind r' = Instruction.bind r := by
  unfold Instruction.bind
  rw [h.opcode, h.args.length_eq, h.ascending_args hslots, h.order]

theorem definedLabel?_eq (hslots : (r.args.map Arg.slot).Nodup) : Verify.definedLabel? r' = Verify.definedLabel? r := by
  unfold Verify.definedLabel?
  rw [h.opcode, ← Sort.find?_ascending, h.ascending_args hslots, Sort.find?_ascending]

end Record.Rearranged

/-! ## All records -/

theorem Program.map_order_of_bound {rs : List Record} {is : List Instruction}
    (h : List.Forall₂ (fun r i => Instruction.bind r = .ok i) rs is) :
    is.map Instruction.order = rs.map Record.order := by
  induction h with
  | nil => rfl
  | cons hi _ ih => rw [List.map_cons, List.map_cons, ih, (Instruction.bind_eq_ok.1 hi).2.1]

theorem Verify.Passes.distinct_slots {rs : List Record} (h : Passes rs) : ∀ r ∈ rs, (r.args.map Arg.slot).Nodup := by
  intro r hr
  obtain ⟨k, -, hperm⟩ := h.slots r hr
  exact hperm.nodup_iff.2 (nodup_range k)

/-- **The records in another order, each with its arguments in another order.** -/
def Reordered (rs rs' : List Record) : Prop :=
  ∃ rearranged, List.Forall₂ Record.Rearranged rs rearranged ∧ rearranged.Perm rs'

namespace Reordered

variable {rs rs' : List Record} (h : Reordered rs rs')

include h

theorem symm : Reordered rs' rs := by
  obtain ⟨mid, hmid, hperm⟩ := h
  have hback : List.Forall₂ Record.Rearranged mid rs := hmid.flip.imp fun _ _ hr => hr.symm
  exact List.perm_comp_forall₂ hperm.symm hback

theorem exists_rearranged {r' : Record} (hr' : r' ∈ rs') : ∃ r ∈ rs, r.Rearranged r' := by
  obtain ⟨mid, hmid, hperm⟩ := h
  exact exists_left_of_mem hmid (hperm.mem_iff.2 hr')

/-- What is the same for a record however its arguments are ordered is found as often as before. -/
theorem map_perm {β : Type} {f : Record → β} (hf : ∀ r ∈ rs, ∀ r', r.Rearranged r' → f r' = f r) :
    (rs'.map f).Perm (rs.map f) := by
  obtain ⟨mid, hmid, hperm⟩ := h
  have heq : mid.map f = rs.map f := by
    clear hperm
    induction hmid with
    | nil => rfl
    | cons hr _ ih =>
      rw [List.map_cons, List.map_cons, hf _ List.mem_cons_self _ hr, ih fun r hr => hf r (List.mem_cons_of_mem _ hr)]
  exact heq ▸ hperm.symm.map f

theorem orders_perm : (rs'.map Record.order).Perm (rs.map Record.order) := h.map_perm fun _ _ _ hr => hr.order

theorem distinct_slots (hslots : ∀ r ∈ rs, (r.args.map Arg.slot).Nodup) : ∀ r ∈ rs', (r.args.map Arg.slot).Nodup := by
  intro r' hr'
  obtain ⟨r, hr, hsame⟩ := h.exists_rearranged hr'
  exact (hsame.args.map Arg.slot).nodup_iff.2 (hslots r hr)

/-- **The records bind to the same program.** -/
theorem ofRecords_eq_ok (horders : (rs.map Record.order).Nodup) (hslots : ∀ r ∈ rs, (r.args.map Arg.slot).Nodup)
    {p : Program} (hp : Program.ofRecords rs = .ok p) : Program.ofRecords rs' = .ok p := by
  obtain ⟨is, his, rfl⟩ := Program.ofRecords_eq_ok.1 hp
  have hbind : (rs'.map Instruction.bind).Perm (rs.map Instruction.bind) :=
    h.map_perm fun r hr _ hsame => hsame.bind_eq (hslots r hr)
  obtain ⟨is', his', hperm⟩ := List.perm_comp_forall₂ hbind
    ((List.forall₂_map_left_iff (R := fun bound i => bound = .ok i)).2 his)
  have hkeys : (is'.map Instruction.order).Nodup := by
    rw [(hperm.map Instruction.order).nodup_iff, Program.map_order_of_bound his]
    exact horders
  refine Program.ofRecords_eq_ok.2 ⟨is', List.forall₂_map_left_iff.1 his', ?_⟩
  unfold Program.ofInstructions
  rw [Sort.ascending_eq_of_perm hperm hkeys]

/-- **The records still pass the verifier.** -/
theorem passes (hpass : Verify.Passes rs) : Verify.Passes rs' := by
  have hlabels : (rs'.map Verify.definedLabel?).Perm (rs.map Verify.definedLabel?) :=
    h.map_perm fun r hr _ hsame => hsame.definedLabel?_eq (hpass.distinct_slots r hr)
  refine ⟨fun r' hr' => ?_, fun r' hr' => ?_, h.orders_perm.nodup_iff.2 hpass.orders, fun r' hr' => ?_, ?_⟩
  · obtain ⟨r, hr, hsame⟩ := h.exists_rearranged hr'
    rw [hsame.opcode]
    exact hpass.opcodes r hr
  · obtain ⟨r, hr, hsame⟩ := h.exists_rearranged hr'
    rw [hsame.order]
    exact hpass.positive r hr
  · obtain ⟨r, hr, hsame⟩ := h.exists_rearranged hr'
    obtain ⟨k, hk, hperm⟩ := hpass.slots r hr
    exact ⟨k, hk, (hsame.args.map Arg.slot).trans hperm⟩
  · have hdefined := hlabels.filterMap id
    rw [List.filterMap_map, List.filterMap_map] at hdefined
    exact hdefined.nodup_iff.2 hpass.labels

end Reordered

/-- **The order in which records and arguments come does not matter.**  Records with different
numbers, each with its arguments in different slots, bind to the same program, or to none,
however the records and the arguments of each are ordered; and they pass the verifier, or do
not, all the same. -/
theorem ofRecords_of_reordered {rs rs' : List Record} (horders : (rs.map Record.order).Nodup)
    (hslots : ∀ r ∈ rs, (r.args.map Arg.slot).Nodup) (h : Reordered rs rs') :
    (∀ p, Program.ofRecords rs' = .ok p ↔ Program.ofRecords rs = .ok p) ∧ (verify rs' = [] ↔ verify rs = []) := by
  have horders' : (rs'.map Record.order).Nodup := h.orders_perm.nodup_iff.2 horders
  refine ⟨fun p => ⟨h.symm.ofRecords_eq_ok horders' (h.distinct_slots hslots), h.ofRecords_eq_ok horders hslots⟩, ?_⟩
  rw [verify_eq_nil_iff_passes, verify_eq_nil_iff_passes]
  exact ⟨h.symm.passes, h.passes⟩

/-- The arguments come last slot first, and the declaration after its use. -/
theorem ofRecords_of_reordered_add :
    let declared : Record := ⟨1, "defvar", [⟨1, "var", "GF@x"⟩]⟩
    let sum : Record := ⟨2, "ADD", [⟨1, "var", "GF@x"⟩, ⟨2, "int", "1"⟩, ⟨3, "int", "2"⟩]⟩
    let mixed : Record := ⟨2, "ADD", [⟨3, "int", "2"⟩, ⟨1, "var", "GF@x"⟩, ⟨2, "int", "1"⟩]⟩
    ([declared, sum].map Record.order).Nodup ∧ (∀ r ∈ [declared, sum], (r.args.map Arg.slot).Nodup) ∧
      Reordered [declared, sum] [mixed, declared] ∧
      Program.ofRecords [mixed, declared] = .ok ⟨[⟨.defVar, 1, [.var ⟨.gf, "x"⟩]⟩,
        ⟨.add, 2, [.var ⟨.gf, "x"⟩, .const (.int 1), .const (.int 2)]⟩]⟩ ∧
      verify [mixed, declared] = [] := by
  intro declared sum mixed
  have h : Reordered [declared, sum] [mixed, declared] :=
    ⟨[declared, mixed], .cons ⟨rfl, rfl, .refl _⟩ (.cons ⟨rfl, rfl, by decide⟩ .nil), .swap _ _ _⟩
  have horders : ([declared, sum].map Record.order).Nodup := by decide
  have hslots : ∀ r ∈ [declared, sum], (r.args.map Arg.slot).Nodup := by decide
  obtain ⟨hprogram, hverify⟩ := ofRecords_of_reordered horders hslots h
  exact ⟨horders, hslots, h, (hprogram _).2 (by decide +kernel), hverify.2 (by decide +kernel)⟩

end IppCode
