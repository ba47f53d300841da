import IppCode.Proofs.Grammar
import IppCode.Proofs.RoundTrip
/-!
# Assembled — what the assembler accepts can be loaded

The assembler checks tokens, the loader reads what became of them.  A token that stands for a
kind and a text in a slot is read as an operand that fits the slot (`reads_of_argument?`), and
arguments and records are numbered one after another, so neither is moved when they are
sorted.  What is assembled therefore passes the verifier, up to labels that are defined twice,
and binds record by record (`assemble_loads`).
-/
namespace IppCode

theorem Operand.parse_text (k : ArgKind) (t : Text) : parse k.text t = ofKind k t := by
  unfold parse
  rw [ArgKind.ofText?_text]

namespace Source

open Instruction (Reads)

/-! ## Tokens -/

variable {slot : Slot} {token value : Text} {kind : ArgKind}

theorem ofKind_of_reference? (h : reference? token = some (kind, value)) :
    ∃ v, Operand.ofKind kind value = .ok (.var v) := by
  unfold reference? at h
  split at h
  · rename_i hsome
    cases h
    obtain ⟨v, hv⟩ := Option.isSome_iff_exists.1 hsome
    exact ⟨v, by simp only [Operand.ofKind, hv]⟩
  · cases h

theorem ofKind_of_constant? (h : constant? token = some (kind, value)) :
    ∃ c, Operand.ofKind kind value = .ok (.const c) ∧ Slot.symb.fits (.const c) = true := by
  unfold constant? at h
  split at h
  · cases h
  · rename_i before after _
    split at h
    · split at h
      · rename_i hint
        cases h
        obtain ⟨n, hn⟩ := Option.isSome_iff_exists.1 hint
        exact ⟨.int n, by simp only [Operand.ofKind, hn], rfl⟩
      · cases h
    · split at h <;> cases h
      exact ⟨_, rfl, rfl⟩
    · split at h <;> cases h
      exact ⟨_, rfl, rfl⟩
    · split at h <;> cases h
      exact ⟨_, rfl, rfl⟩
    · cases h

/-- **What a token stands for in a slot is read as an operand that fits the slot.** -/
theorem reads_of_argument? (h : argument? slot token = some (kind, value)) (k : Int) :
    ∃ o, Reads slot ⟨k, kind.text, value⟩ o := by
  unfold Reads
  simp only [Operand.parse_text]
  cases slot with
  | var =>
    obtain ⟨v, hv⟩ := ofKind_of_reference? h
    exact ⟨_, hv, rfl⟩
  | symb =>
    rcases Option.or_eq_some_iff.1 h with href | ⟨-, hconst⟩
    · obtain ⟨v, hv⟩ := ofKind_of_reference? href
      exact ⟨_, hv, rfl⟩
    · obtain ⟨c, hc, hfit⟩ := ofKind_of_constant? hconst
      exact ⟨_, hc, hfit⟩
  | label =>
    simp only [argument?] at h
    split at h
    · rename_i hname
      cases h
      exact ⟨.const (.label token), by simp only [Operand.ofKind, hname, if_true], rfl⟩
    · cases h
  | type =>
    simp only [argument?] at h
    split at h
    · rename_i hsome
      cases h
      obtain ⟨n, hn⟩ := Option.isSome_iff_exists.1 hsome
      exact ⟨.const (.type n), by simp only [Operand.ofKind, hn], rfl⟩
    · cases h

/-! ## Lines to records -/

/-- The arguments that tokens stand for are read as operands, each in its slot. -/
theorem exists_operands_of_denotes : ∀ {k : Nat} {slots : List Slot} {tokens : List Text} {args : List Arg},
    List.Forall₂ (fun q arg => Denotes q.1.1 q.1.2 q.2 arg) ((slots.zip tokens).zipIdx k) args →
    ∃ os, List.Forall₂ (fun p o => Reads p.1 p.2 o) (slots.zip args) os
  | _, [], _, _, _ => ⟨[], .nil⟩
  | _, _ :: _, [], _, .nil => ⟨[], .nil⟩
  | _, _ :: _, _ :: _, _, .cons ⟨_, _, hargument, harg⟩ hargs => by
    obtain ⟨o, ho⟩ := reads_of_argument? hargument _
    obtain ⟨os, hos⟩ := exists_operands_of_denotes hargs
    exact ⟨o :: os, .cons (harg ▸ ho) hos⟩

/-- **The record of a line**: its operation is not blank, its arguments are in their slots, and
it binds. -/
structure Loadable (r : Record) : Prop where
  opcode  : Verify.isBlank r.opcode = false
  slotted : Verify.Slotted r
  binds   : ∃ i, Instruction.bind r = .ok i

theorem StandsFor.order_eq {order : Nat} {l : Text} {r : Record} (h : StandsFor order l r) : r.order = order := by
  obtain ⟨_, _, -, hassembles⟩ := h
  cases hassembles
  rfl

theorem loadable_of_assembles {order : Nat} {operation : Text} {tokens : List Text} {r : Record}
    (h : Assembles order operation tokens r) : Loadable r := by
  cases h with
  | @record op args hop hcount hargs =>
    obtain ⟨os, hos⟩ := exists_operands_of_denotes hargs
    have hcounts : Sort.Counts Arg.slot 1 args := .of_zipIdx (fun _ _ ⟨_, _, _, harg⟩ => by rw [harg]) hargs
    have hlength : args.length = op.signature.length := by
      rw [← hargs.length_eq, List.length_zipIdx, List.length_zip, hcount, Nat.min_self]
    have hbind : Instruction.bind ⟨order, op.mnemonic, args⟩ = .ok ⟨op, order, os⟩ := by
      refine Instruction.bind_eq_ok.2 ⟨op.ofText?_mnemonic, rfl, hlength, ?_⟩
      change List.Forall₂ _ (op.signature.zip (Sort.ascending Arg.slot args)) os
      rw [hcounts.ascending_eq_self]
      exact hos
    exact ⟨Verify.isBlank_mnemonic op, Verify.slotted_of_counts hcounts (hlength ▸ Verify.length_signature_le op), _, hbind⟩

/-- **The lines become records that are numbered one after another**, each of which can be loaded. -/
theorem loadable_of_assembleLines {line order : Nat} {started : Bool} {ts : List Text} {rs : List Record}
    (h : assembleLines line started order ts = .ok rs) :
    Sort.Counts Record.order order rs ∧ ∀ r ∈ rs, Loadable r := by
  obtain ⟨ls, hls⟩ := exists_lines_of_assembleLines h
  refine ⟨.of_zipIdx (fun _ _ hr => by rw [hr.order_eq]) hls, fun r hr => ?_⟩
  obtain ⟨_, -, _, _, -, hassembles⟩ := exists_left_of_mem hls hr
  exact loadable_of_assembles hassembles

end Source

/-! ## Records to programs -/

theorem Verify.fault_of_mem_repeatedLabels : ∀ {defined : List Text} {l : List (Record × Nat)} {e : VerifyError},
    e ∈ repeatedLabels defined l → ∃ label, e.fault = .duplicateLabel label
  | _, [], e, h => absurd h List.not_mem_nil
  | defined, (r, k) :: l, e, h => by
    unfold repeatedLabels at h
    split at h
    · exact fault_of_mem_repeatedLabels h
    · rename_i label _
      split at h
      · rcases List.mem_cons.1 h with rfl | h
        · exact ⟨label, rfl⟩
        · exact fault_of_mem_repeatedLabels h
      · exact fault_of_mem_repeatedLabels h

theorem Program.exists_bindings {rs : List Record} (h : ∀ r ∈ rs, ∃ i, Instruction.bind r = .ok i) :
    ∃ is, List.Forall₂ (fun r i => Instruction.bind r = .ok i) rs is :=
  exists_forall₂_iff.2 h

/-- Records that are numbered one after another bind to instructions that are. -/
theorem Program.counts_of_bindings {rs : List Record} {is : List Instruction}
    (h : List.Forall₂ (fun r i => Instruction.bind r = .ok i) rs is) :
    ∀ {k : Nat}, Sort.Counts Record.order k rs → Sort.Counts Instruction.order k is := by
  induction h with
  | nil => exact id
  | cons hi _ ih =>
    rintro k ⟨hk, hcounts⟩
    exact ⟨(Instruction.bind_eq_ok.1 hi).2.1.trans hk, ih hcounts⟩

/-- **What is assembled can be loaded.**  The verifier finds nothing wrong with the records or
their arguments, and so reports nothing but labels that are defined twice; and the records
bind to a program whose instructions are theirs, one for each record and in the same order. -/
theorem Source.assemble_loads {t : Text} {rs : List Record} (h : assemble t = .ok rs) :
    Verify.recordErrors [] 0 rs = [] ∧ Verify.argumentErrors 0 rs = [] ∧
    (∀ e ∈ verify rs, ∃ label, e.fault = .duplicateLabel label) ∧
    ∃ p, Program.ofRecords rs = .ok p ∧
      List.Forall₂ (fun r i => Instruction.bind r = .ok i) rs p.instructions := by
  obtain ⟨hcounts, hload⟩ := loadable_of_assembleLines h
  have hrecords : Verify.recordErrors [] 0 rs = [] :=
    Verify.recordErrors_of_counts 0 Nat.one_pos (fun _ hp => absurd hp List.not_mem_nil) hcounts
      fun r hr => (hload r hr).opcode
  have hargs : Verify.argumentErrors 0 rs = [] :=
    Verify.argumentErrors_eq_nil.2 fun r hr => (hload r hr).slotted
  obtain ⟨is, his⟩ := Program.exists_bindings fun r hr => (hload r hr).binds
  have hsorted : Program.ofInstructions is = ⟨is⟩ := by
    unfold Program.ofInstructions
    rw [(Program.counts_of_bindings his hcounts).ascending_eq_self]
  refine ⟨hrecords, hargs, fun e he => ?_, ⟨is⟩, Program.ofRecords_eq_ok.2 ⟨is, his, hsorted.symm⟩, his⟩
  unfold verify at he
  rw [hrecords, hargs, List.nil_append, List.nil_append] at he
  exact Verify.fault_of_mem_repeatedLabels he

/-- A hexadecimal number, an escape, a constant with a second mark in it, and a label that is
defined twice. -/
theorem Source.assemble_loads_repeated :
    let t : Text := ".ippcode24\n# main\nlabel a # first\n\tWrite\tint@0x1F\nDPRINT string@a@\\035\nLABEL a"
    let rs : List Record := [⟨1, "LABEL", [⟨1, "label", "a"⟩]⟩, ⟨2, "WRITE", [⟨1, "int", "0x1F"⟩]⟩,
      ⟨3, "DPRINT", [⟨1, "string", "a@\\035"⟩]⟩, ⟨4, "LABEL", [⟨1, "label", "a"⟩]⟩]
    assemble t = .ok rs ∧ verify rs = [⟨3, 4, .duplicateLabel "a"⟩] ∧
      (∀ e ∈ verify rs, ∃ label, e.fault = .duplicateLabel label) ∧ ∃ p, Program.ofRecords rs = .ok p := by
  intro t rs
  have h : assemble t = .ok rs := by decide +kernel
  have herrors : verify rs = [⟨3, 4, .duplicateLabel "a"⟩] := by decide +kernel
  obtain ⟨-, -, honly, p, hp, -⟩ := assemble_loads h
  exact ⟨h, herrors, honly, p, hp⟩

end IppCode
