import IppCode.Proofs.Operands
import IppCode.Proofs.Sorting
/-!
# Reassembly — a disassembled program is assembled again

Each instruction is disassembled into the tokens of one line (`read_instructionText`), and
the line is assembled into a record that has the operands in the slots 1, 2, 3
(`instruction_operandText`) and binds to the instruction again (`bind_record`).  Lines are
numbered from one, and so are the instructions of the program that comes out.
-/
namespace IppCode

namespace Opcode

theorem ofText?_mnemonic (op : Opcode) : ofText? op.mnemonic = some op := by cases op <;> decide

/-- A mnemonic is one word, and begins no header. -/
theorem token_mnemonic (op : Opcode) : Text.Token op.mnemonic ∧ op.mnemonic.head? ≠ some '.' := by
  cases op <;> decide

end Opcode

/-! ## What is written for an instruction -/

/-- **An instruction that can be written**: its operands are what the operation asks for,
and have names that can be written. -/
def Instruction.Writable (i : Instruction) : Prop := i.Fits ∧ ∀ o ∈ i.args, o.Named

/-- The operands as the arguments of a record, in the slots from a number on. -/
def Operand.arguments : Nat → List Operand → List Arg
  | _, []      => []
  | k, o :: os => ⟨k, o.written.1.text, o.written.2⟩ :: arguments (k + 1) os

namespace Instruction

def record (order : Nat) (i : Instruction) : Record :=
  ⟨order, i.opcode.mnemonic, Operand.arguments 1 i.args⟩

def records : Nat → List Instruction → List Record
  | _, []      => []
  | k, i :: is => i.record k :: records (k + 1) is

/-- The instructions with other order numbers, from a number on. -/
def renumber : Nat → List Instruction → List Instruction
  | _, []      => []
  | k, i :: is => ⟨i.opcode, k, i.args⟩ :: renumber (k + 1) is

end Instruction

/-! ## Lines to records -/

namespace Source

theorem instructionText_eq (i : Instruction) :
    instructionText i = Text.spaced i.opcode.mnemonic (i.args.map operandText) := by
  unfold instructionText Text.spaced
  rw [List.flatMap_map]

theorem tokens_of_writable {i : Instruction} (h : i.Writable) :
    ∀ w ∈ i.opcode.mnemonic :: i.args.map operandText, Text.Token w := by
  intro w hw
  rcases List.mem_cons.1 hw with rfl | hw
  · exact i.opcode.token_mnemonic.1
  · obtain ⟨o, ho, rfl⟩ := List.mem_map.1 hw
    exact token_operandText (h.2 o ho)

/-- **The line of an instruction is read as its tokens.** -/
theorem read_instructionText {i : Instruction} (h : i.Writable) :
    Line.read (instructionText i) = .instruction i.opcode.mnemonic (i.args.map operandText) := by
  rw [instructionText_eq, Line.read_spaced (tokens_of_writable h), Line.ofWords,
    if_neg i.opcode.token_mnemonic.2]

theorem arguments_operandText : ∀ {slots : List Slot} {os : List Operand} (k : Nat),
    List.Forall₂ (fun slot o => Slot.fits slot o = true) slots os → (∀ o ∈ os, o.Named) →
    arguments k slots (os.map operandText) = .ok (Operand.arguments k os)
  | _, _, _, .nil, _ => rfl
  | slot :: slots, o :: os, k, .cons hfit hfits, h => by
    have ho := argument?_operandText hfit (h o List.mem_cons_self)
    have hrest := arguments_operandText (k + 1) hfits fun x hx => h x (List.mem_cons_of_mem o hx)
    rw [List.map_cons, arguments, ho]
    simp only [hrest]
    rfl

theorem instruction_operandText {i : Instruction} (h : i.Writable) (order : Nat) :
    instruction order i.opcode.mnemonic (i.args.map operandText) = .ok (i.record order) := by
  have hlen : (i.args.map operandText).length = i.opcode.signature.length := by
    rw [List.length_map, h.1.length_eq]
  unfold instruction
  simp only [Opcode.ofText?_mnemonic, hlen, ne_eq, not_true, if_false, arguments_operandText 1 h.1 h.2]
  rfl

theorem assembleLines_instructionText : ∀ {is : List Instruction} (line : Nat) (started : Bool) (order : Nat),
    (∀ i ∈ is, i.Writable) →
    assembleLines line started order (is.map instructionText ++ [[]]) = .ok (Instruction.records order is)
  | [], _, _, _, _ => rfl
  | i :: is, line, started, order, h => by
    have hi : i.Writable := h i List.mem_cons_self
    have hrest := assembleLines_instructionText (line + 1) true (order + 1)
      fun x hx => h x (List.mem_cons_of_mem i hx)
    rw [List.map_cons, List.cons_append, assembleLines, read_instructionText hi]
    simp only [instruction_operandText hi, hrest]
    rfl

theorem disassemble_eq (p : Program) :
    disassemble p = (header :: p.instructions.map instructionText).flatMap fun l => l ++ ['\n'] := by
  unfold disassemble
  rw [List.flatMap_cons, List.flatMap_map, List.append_assoc, List.singleton_append]

theorem read_header : Line.read header = .header [header] := by decide

/-- **A disassembled program is assembled into its instructions**, numbered from one. -/
theorem assemble_disassemble {p : Program} (h : ∀ i ∈ p.instructions, i.Writable) :
    assemble (disassemble p) = .ok (Instruction.records 1 p.instructions) := by
  have hlines : ∀ l ∈ header :: p.instructions.map instructionText, '\n' ∉ l := by
    intro l hl
    rcases List.mem_cons.1 hl with rfl | hl
    · decide
    · obtain ⟨i, hi, rfl⟩ := List.mem_map.1 hl
      rw [instructionText_eq]
      exact Line.line_feed_not_mem (tokens_of_writable (h i hi))
  unfold assemble
  rw [disassemble_eq, Text.lines_terminated hlines, List.cons_append, assembleLines, read_header]
  exact assembleLines_instructionText 2 true 1 h

end Source

/-! ## Records to instructions -/

theorem Operand.counts_arguments : ∀ (k : Nat) (os : List Operand), Sort.Counts Arg.slot k (arguments k os)
  | _, [] => trivial
  | k, _ :: os => ⟨rfl, counts_arguments (k + 1) os⟩

theorem Operand.length_arguments : ∀ (k : Nat) (os : List Operand), (arguments k os).length = os.length
  | _, [] => rfl
  | k, _ :: os => congrArg (· + 1) (length_arguments (k + 1) os)

namespace Instruction

theorem reads_arguments : ∀ {slots : List Slot} {os : List Operand} (k : Nat),
    List.Forall₂ (fun slot o => Slot.fits slot o = true) slots os → (∀ o ∈ os, o.Named) →
    List.Forall₂ (fun p o => Reads p.1 p.2 o) (slots.zip (Operand.arguments k os)) os
  | _, _, _, .nil, _ => .nil
  | _ :: _, o :: _, k, .cons hfit hfits, h =>
    .cons ⟨Operand.parse_written (h o List.mem_cons_self), hfit⟩
      (reads_arguments (k + 1) hfits fun x hx => h x (List.mem_cons_of_mem o hx))

/-- **The record of an instruction binds to it.** -/
theorem bind_record {i : Instruction} (h : i.Writable) (order : Nat) :
    bind (i.record order) = .ok ⟨i.opcode, order, i.args⟩ := by
  rw [bind_eq_ok]
  refine ⟨i.opcode.ofText?_mnemonic, rfl, ?_, ?_⟩
  · change (Operand.arguments 1 i.args).length = _
    rw [Operand.length_arguments, h.1.length_eq]
  · change List.Forall₂ _ (i.opcode.signature.zip (Sort.ascending Arg.slot (Operand.arguments 1 i.args))) i.args
    rw [(Operand.counts_arguments 1 i.args).ascending_eq_self]
    exact reads_arguments 1 h.1 h.2

theorem bind_records : ∀ {is : List Instruction} (k : Nat), (∀ i ∈ is, i.Writable) →
    List.Forall₂ (fun r i => bind r = .ok i) (records k is) (renumber k is)
  | [], _, _ => .nil
  | i :: _, k, h =>
    .cons (bind_record (h i List.mem_cons_self) k) (bind_records (k + 1) fun x hx => h x (List.mem_cons_of_mem i hx))

theorem counts_renumber : ∀ (k : Nat) (is : List Instruction), Sort.Counts Instruction.order k (renumber k is)
  | _, [] => trivial
  | k, _ :: is => ⟨rfl, counts_renumber (k + 1) is⟩

theorem length_renumber : ∀ (k : Nat) (is : List Instruction), (renumber k is).length = is.length
  | _, [] => rfl
  | k, _ :: is => congrArg (· + 1) (length_renumber (k + 1) is)

theorem getElem?_renumber : ∀ (k : Nat) (is : List Instruction) (n : Nat),
    (renumber k is)[n]? = is[n]?.map fun i => ⟨i.opcode, (k + n : Nat), i.args⟩
  | _, [], _ => rfl
  | k, i :: is, 0 => rfl
  | k, i :: is, n + 1 => by
    rw [renumber, List.getElem?_cons_succ, List.getElem?_cons_succ, getElem?_renumber (k + 1) is n,
      Nat.add_right_comm, Nat.add_assoc]

end Instruction

/-- **The records of a program bind to it again**, with the order numbers from one. -/
theorem Program.ofRecords_records {is : List Instruction} (h : ∀ i ∈ is, i.Writable) :
    ofRecords (Instruction.records 1 is) = .ok ⟨Instruction.renumber 1 is⟩ := by
  refine ofRecords_eq_ok.2 ⟨_, Instruction.bind_records 1 h, ?_⟩
  unfold ofInstructions
  rw [(Instruction.counts_renumber 1 is).ascending_eq_self]

theorem Program.writable_of_mem {rs : List Record} {p : Program} (h : ofRecords rs = .ok p) :
    ∀ i ∈ p.instructions, i.Writable :=
  fun _ hi => ⟨fits_of_mem h hi, named_of_mem h hi⟩

end IppCode
