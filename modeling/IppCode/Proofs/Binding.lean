import IppCode.Program
import IppCode.Proofs.Traversal
/-!
# Binding — what a program that binds consists of

Binding reads one instruction from each record (`bindAll_eq_ok`), and an instruction has
one operand for each slot of its signature (`bind_eq_ok`).  So the operands of a bound
program are what the operations ask for, and their names can be written in source text.
-/
namespace IppCode

theorem exists_left_of_mem {α β : Type} {R : α → β → Prop} : ∀ {l : List α} {l' : List β},
    List.Forall₂ R l l' → ∀ {b : β}, b ∈ l' → ∃ a ∈ l, R a b
  | _, _, .cons h t, b, hb => by
    rcases List.mem_cons.1 hb with rfl | hb
    · exact ⟨_, List.mem_cons_self, h⟩
    · obtain ⟨a, ha, hab⟩ := exists_left_of_mem t hb
      exact ⟨a, List.mem_cons_of_mem _ ha, hab⟩

/-! ## Operands in their slots -/

/-- **The operands are what the operation asks for**, slot by slot. -/
def Instruction.Fits (i : Instruction) : Prop :=
  List.Forall₂ (fun slot o => Slot.fits slot o = true) i.opcode.signature i.args

/-- The name that an operand has, if any, is one that can be written. -/
def Operand.Named : Operand → Prop
  | var v               => Name.isName v.name = true
  | const (.label name) => Name.isName name = true
  | _                   => True

namespace Slot

theorem fits_var {o : Operand} (h : Slot.var.fits o = true) : ∃ v, o = .var v := by
  cases o with
  | var v => exact ⟨v, rfl⟩
  | const value => cases value <;> cases h

theorem fits_label {o : Operand} (h : Slot.label.fits o = true) : ∃ name, o = .const (.label name) := by
  cases o with
  | var v => cases h
  | const value =>
    cases value with
    | label name => exact ⟨name, rfl⟩
    | int _ | bool _ | text _ | type _ | nil => cases h

theorem fits_type {o : Operand} (h : Slot.type.fits o = true) : ∃ n, o = .const (.type n) := by
  cases o with
  | var v => cases h
  | const value =>
    cases value with
    | type n => exact ⟨n, rfl⟩
    | int _ | bool _ | text _ | label _ | nil => cases h

end Slot

theorem Instruction.Fits.operand {i : Instruction} (h : i.Fits) {k : Nat} {slot : Slot}
    (hk : i.opcode.signature[k]? = some slot) : ∃ o, i.args[k]? = some o ∧ slot.fits o = true := by
  obtain ⟨hlt, rfl⟩ := List.getElem?_eq_some_iff.1 hk
  have hlt' : k < i.args.length := by rw [← h.length_eq]; exact hlt
  exact ⟨i.args[k], List.getElem?_eq_getElem hlt', h.get hlt hlt'⟩

namespace Variable

theorem named_of_ofText? {t : Text} {v : Variable} (h : ofText? t = some v) :
    t = v.text ∧ Name.isName v.name = true := by
  unfold ofText? at h
  split at h
  · cases h
  · rename_i scope name hcut
    split at h
    · cases h
    · rename_i s hs
      split at h
      · rename_i hname
        cases h
        obtain ⟨rfl, -⟩ := Text.cutAt_eq_some hcut
        have hscope := List.find?_some hs
        rw [beq_iff_eq] at hscope
        exact ⟨by rw [text, hscope], hname⟩
      · cases h

end Variable

theorem Operand.named_of_parse {kind t : Text} {o : Operand} (h : parse kind t = .ok o) : o.Named := by
  unfold parse at h
  split at h
  · rename_i k hk
    cases k with
    | int => simp only [ofKind] at h; split at h <;> cases h; trivial
    | bool => cases h; trivial
    | string => cases h; trivial
    | nil => cases h; trivial
    | var =>
      simp only [ofKind] at h
      split at h
      · rename_i v hv
        cases h
        exact (Variable.named_of_ofText? hv).2
      · cases h
    | label =>
      simp only [ofKind] at h
      split at h
      · rename_i hname
        cases h
        exact hname
      · cases h
    | type => simp only [ofKind] at h; split at h <;> cases h; trivial
  · cases h

/-! ## Records to instructions -/

namespace Instruction

def Reads (slot : Slot) (arg : Arg) (o : Operand) : Prop :=
  Operand.parse arg.kind arg.value = .ok o ∧ slot.fits o = true

theorem bindArg_eq_ok {opcode : Opcode} {k : Nat} {slot : Slot} {arg : Arg} {o : Operand} :
    bindArg opcode k slot arg = .ok o ↔ Reads slot arg o := by
  unfold bindArg Reads
  cases Operand.parse arg.kind arg.value with
  | error why => simp
  | ok o' =>
    by_cases hfit : slot.fits o' = true
    · simp only [hfit, if_true, Except.ok.injEq]
      exact ⟨fun e => ⟨e, e ▸ hfit⟩, fun h => h.1⟩
    · simp only [hfit, if_false, reduceCtorEq, Except.ok.injEq, false_iff, not_and]
      intro e
      exact e ▸ hfit

theorem bindArgs_eq_mapM (opcode : Opcode) : ∀ (k : Nat) (slots : List Slot) (args : List Arg),
    bindArgs opcode k slots args = ((slots.zip args).zipIdx k).mapM fun q => bindArg opcode q.2 q.1.1 q.1.2
  | _, [], _ => rfl
  | _, _ :: _, [] => rfl
  | k, slot :: slots, arg :: args => by
    rw [List.zip_cons_cons, List.zipIdx_cons, mapM_cons_except, ← bindArgs_eq_mapM opcode (k + 1) slots args, bindArgs]
    cases bindArg opcode k slot arg with
    | error fault => rfl
    | ok o => cases bindArgs opcode (k + 1) slots args <;> rfl

theorem bindArgs_eq_ok {opcode : Opcode} {k : Nat} {slots : List Slot} {args : List Arg} {os : List Operand} :
    bindArgs opcode k slots args = .ok os ↔ List.Forall₂ (fun p o => Reads p.1 p.2 o) (slots.zip args) os := by
  rw [bindArgs_eq_mapM, mapM_eq_ok]
  simp only [bindArg_eq_ok]
  -- the positions are only there for the errors
  conv_rhs => rw [← List.zipIdx_map_fst k (slots.zip args), List.forall₂_map_left_iff]

/-- **A record binds** iff it names an operation, has as many arguments as the signature
has slots, and each argument, in the order of the slots, reads as an operand that fits. -/
theorem bind_eq_ok {r : Record} {i : Instruction} : bind r = .ok i ↔
    Opcode.ofText? r.opcode = some i.opcode ∧ i.order = r.order ∧
    r.args.length = i.opcode.signature.length ∧
    List.Forall₂ (fun p o => Reads p.1 p.2 o)
      (i.opcode.signature.zip (Sort.ascending Arg.slot r.args)) i.args := by
  obtain ⟨opcode, order, os⟩ := i
  unfold bind
  cases hop : Opcode.ofText? r.opcode with
  | none => simp
  | some op =>
    by_cases hlen : r.args.length = op.signature.length
    · simp only [hlen, ne_eq, not_true, if_false, Option.some.injEq]
      constructor
      · intro h
        split at h
        · cases h
        · rename_i os' hos
          cases h
          exact ⟨rfl, rfl, rfl, bindArgs_eq_ok.1 hos⟩
      · rintro ⟨rfl, rfl, -, h⟩
        rw [bindArgs_eq_ok.2 h]
    · simp only [hlen, ne_eq, not_false_eq_true, if_true, reduceCtorEq, Option.some.injEq, false_iff]
      rintro ⟨rfl, -, h, -⟩
      exact hlen h

theorem ofRecord_eq_ok {r : Record} {i : Instruction} : ofRecord r = .ok i ↔ bind r = .ok i := by
  unfold ofRecord
  cases bind r <;> simp

theorem fits_of_bind {r : Record} {i : Instruction} (h : bind r = .ok i) : i.Fits := by
  obtain ⟨-, -, hlen, hargs⟩ := bind_eq_ok.1 h
  have hsorted : (Sort.ascending Arg.slot r.args).length = i.opcode.signature.length :=
    (Sort.perm_ascending Arg.slot r.args).length_eq.trans hlen
  have hslots : List.Forall₂ (fun slot o => Slot.fits slot o = true)
      ((i.opcode.signature.zip (Sort.ascending Arg.slot r.args)).map Prod.fst) i.args :=
    List.forall₂_map_left_iff.2 (hargs.imp fun _ _ ho => ho.2)
  rwa [List.map_fst_zip (by omega)] at hslots

theorem named_of_bind {r : Record} {i : Instruction} (h : bind r = .ok i) : ∀ o ∈ i.args, o.Named := by
  obtain ⟨-, -, -, hargs⟩ := bind_eq_ok.1 h
  intro o ho
  obtain ⟨p, -, hp⟩ := exists_left_of_mem hargs ho
  exact Operand.named_of_parse hp.1

end Instruction

namespace Program

theorem bindAll_eq_mapM : ∀ rs : List Record, bindAll rs = rs.mapM Instruction.ofRecord
  | [] => rfl
  | r :: rs => by
    rw [bindAll, mapM_cons_except, bindAll_eq_mapM rs]
    cases Instruction.ofRecord r with
    | error e => rfl
    | ok i => cases rs.mapM Instruction.ofRecord <;> rfl

theorem bindAll_eq_ok {rs : List Record} {is : List Instruction} :
    bindAll rs = .ok is ↔ List.Forall₂ (fun r i => Instruction.bind r = .ok i) rs is := by
  rw [bindAll_eq_mapM, mapM_eq_ok]
  simp only [Instruction.ofRecord_eq_ok]

theorem ofRecords_eq_ok {rs : List Record} {p : Program} : ofRecords rs = .ok p ↔
    ∃ is, List.Forall₂ (fun r i => Instruction.bind r = .ok i) rs is ∧ p = ofInstructions is := by
  unfold ofRecords
  constructor
  · intro h
    split at h
    · cases h
    · rename_i is his
      cases h
      exact ⟨is, bindAll_eq_ok.1 his, rfl⟩
  · rintro ⟨is, his, rfl⟩
    rw [bindAll_eq_ok.2 his]

theorem exists_record {rs : List Record} {p : Program} (h : ofRecords rs = .ok p) {i : Instruction}
    (hi : i ∈ p.instructions) : ∃ r ∈ rs, Instruction.bind r = .ok i := by
  obtain ⟨is, his, rfl⟩ := ofRecords_eq_ok.1 h
  have hmem : i ∈ is := (Sort.perm_ascending Instruction.order is).mem_iff.1 hi
  exact exists_left_of_mem his hmem

theorem fits_of_mem {rs : List Record} {p : Program} (h : ofRecords rs = .ok p) {i : Instruction}
    (hi : i ∈ p.instructions) : i.Fits := by
  obtain ⟨r, -, hr⟩ := exists_record h hi
  exact Instruction.fits_of_bind hr

theorem named_of_mem {rs : List Record} {p : Program} (h : ofRecords rs = .ok p) {i : Instruction}
    (hi : i ∈ p.instructions) : ∀ o ∈ i.args, o.Named := by
  obtain ⟨r, -, hr⟩ := exists_record h hi
  exact Instruction.named_of_bind hr

end Program

end IppCode
