import IppCode.Proofs.Reassembly
import IppCode.Proofs.Verified
/-!
# RoundTrip — disassembling loses nothing but the order numbers

The source text of a bound program is assembled, and binds, to the same instructions
numbered from one (`round_trip`).  What the text is assembled into passes verification if
the records of the program did.
-/
namespace IppCode

namespace Verify

theorem isBlank_mnemonic (op : Opcode) : isBlank op.mnemonic = false := by cases op <;> decide

theorem isBlank_of_mem_records : ∀ {k : Nat} {is : List Instruction}, ∀ r ∈ Instruction.records k is,
    isBlank r.opcode = false
  | _, [], r, hr => absurd hr List.not_mem_nil
  | k, i :: is, r, hr => by
    rcases List.mem_cons.1 hr with rfl | hr
    · exact isBlank_mnemonic i.opcode
    · exact isBlank_of_mem_records r hr

theorem counts_records : ∀ (k : Nat) (is : List Instruction),
    Sort.Counts Record.order k (Instruction.records k is)
  | _, [] => trivial
  | k, _ :: is => ⟨rfl, counts_records (k + 1) is⟩

theorem length_signature_le (op : Opcode) : op.signature.length ≤ 3 := by cases op <;> decide

theorem slotted_record {i : Instruction} (h : i.Fits) (order : Nat) : Slotted (i.record order) := by
  have hlen : (Operand.arguments 1 i.args).length = i.opcode.signature.length := by
    rw [Operand.length_arguments, h.length_eq]
  refine slotted_of_counts (Operand.counts_arguments 1 i.args) ?_
  exact hlen ▸ length_signature_le i.opcode

theorem slotted_of_mem_records : ∀ {k : Nat} {is : List Instruction}, (∀ i ∈ is, i.Fits) →
    ∀ r ∈ Instruction.records k is, Slotted r
  | _, [], _, r, hr => absurd hr List.not_mem_nil
  | k, i :: is, h, r, hr => by
    rcases List.mem_cons.1 hr with rfl | hr
    · exact slotted_record (h i List.mem_cons_self) k
    · exact slotted_of_mem_records (fun x hx => h x (List.mem_cons_of_mem i hx)) r hr

theorem defines?_renumber : ∀ (k : Nat) (is : List Instruction),
    (Instruction.renumber k is).filterMap Instruction.defines? = is.filterMap Instruction.defines?
  | _, [] => rfl
  | k, i :: is => by
    rw [Instruction.renumber, List.filterMap_cons, List.filterMap_cons, defines?_renumber (k + 1) is]
    rfl

end Verify

namespace Program

/-- **A program whose records pass verification is disassembled into records that pass.** -/
theorem verify_records {rs : List Record} {p : Program} (h : ofRecords rs = .ok p) (hrs : verify rs = []) :
    verify (Instruction.records 1 p.instructions) = [] := by
  have hwritable := writable_of_mem h
  obtain ⟨-, hslotted, hlabels⟩ := verify_eq_nil.1 hrs
  obtain ⟨is, his, hp⟩ := ofRecords_eq_ok.1 h
  have hperm : p.instructions.Perm is := by
    rw [hp]
    exact Sort.perm_ascending Instruction.order is
  have hslotted' := Verify.slotted_of_mem_records (k := 1) fun i hi => (hwritable i hi).1
  have hnames : (Instruction.records 1 p.instructions).filterMap Verify.definedLabel? =
      p.instructions.filterMap Instruction.defines? := by
    rw [Verify.filterMap_definedLabel? (Instruction.bind_records 1 hwritable) hslotted', Verify.defines?_renumber]
  have hrecords := Verify.recordErrors_of_counts 0 Nat.one_pos (fun _ hq => absurd hq List.not_mem_nil)
    (Verify.counts_records 1 p.instructions) Verify.isBlank_of_mem_records
  refine verify_eq_nil.2 ⟨hrecords, hslotted', ?_⟩
  rw [hnames, (hperm.filterMap Instruction.defines?).nodup_iff, ← Verify.filterMap_definedLabel? his hslotted]
  exact hlabels

/-- **Every bound program survives disassembly.**  Its source text is assembled into
records, which bind to a program with the same operations and operands at every position,
numbered from one.  If the records that it was bound from pass verification, so do these. -/
theorem round_trip {rs : List Record} {p : Program} (h : ofRecords rs = .ok p) :
    ∃ rs' q, Source.assemble (Source.disassemble p) = .ok rs' ∧ ofRecords rs' = .ok q ∧
      q.instructions.length = p.instructions.length ∧
      (∀ (k : Nat) i, p.instructions[k]? = some i → q.instructions[k]? = some ⟨i.opcode, k + 1, i.args⟩) ∧
      (verify rs = [] → verify rs' = []) := by
  have hwritable := writable_of_mem h
  refine ⟨_, _, Source.assemble_disassemble hwritable, ofRecords_records hwritable,
    Instruction.length_renumber 1 p.instructions, fun k i hi => ?_, verify_records h⟩
  rw [Instruction.getElem?_renumber, hi, Option.map_some, Nat.add_comm]
  rfl

/-- A text with a blank and a `#` in it, under an order number and a slot out of the way. -/
theorem write_round_trip :
    let rs : List Record := [⟨9, "Write", [⟨7, "string", "a #b"⟩]⟩, ⟨-2, "label", [⟨1, "label", "x"⟩]⟩]
    let p : Program := ⟨[⟨.label, -2, [.const (.label "x")]⟩, ⟨.write, 9, [.const (.text "a #b")]⟩]⟩
    ofRecords rs = .ok p ∧ ∃ rs' q, Source.assemble (Source.disassemble p) = .ok rs' ∧ ofRecords rs' = .ok q ∧
      q.instructions[1]? = some ⟨.write, 2, [.const (.text "a #b")]⟩ := by
  intro rs p
  have hp : ofRecords rs = .ok p := by rfl
  obtain ⟨rs', q, hrs', hq, -, hsame, -⟩ := round_trip hp
  exact ⟨hp, rs', q, hrs', hq, hsame 1 _ rfl⟩

end Program

end IppCode
