import IppCode.Proofs.Reassembly
/-!
# Blame — which records bind, and which error those name that do not

An operation is found by its mnemonic in either case (`ofText?_eq_some`), and a record binds iff
it has the arguments of the signature when they are sorted by their slots (`bind_eq_ok_iff`).
Otherwise the error is about the first thing that is wrong with it: the operation, the number of
arguments, then one argument after another, each read before it is fitted (`bind_eq_error_iff`).
A program is bound from records that all bind, or the first one that does not names the error
(`binding_exact`).
-/
namespace IppCode

/-! ## Operations -/

namespace Opcode

variable {t u : Text} {op : Opcode}

theorem ofText?_congr (h : t.map Char.toLower = u.map Char.toLower) : ofText? t = ofText? u := by
  unfold ofText? Text.sameLetters
  rw [h]

/-- **The mnemonic decides which operation a text names**: no two are the same up to case. -/
theorem ofText?_eq_some : ofText? t = some op ↔ Text.sameLetters op.mnemonic t = true := by
  constructor
  · intro h
    have hop := List.find?_some h
    exact hop
  · intro h
    unfold Text.sameLetters at h
    rw [← ofText?_congr (eq_of_beq h), ofText?_mnemonic]

theorem ofText?_eq_none : ofText? t = none ↔ ∀ op : Opcode, Text.sameLetters op.mnemonic t = false := by
  unfold ofText?
  rw [List.find?_eq_none]
  simp only [Bool.not_eq_true]
  exact ⟨fun h op => h op op.mem_all, fun h op _ => h op⟩

end Opcode

/-! ## Arguments -/

namespace Instruction

variable {opcode : Opcode} {k : Nat} {slot : Slot} {arg : Arg} {slots : List Slot} {args : List Arg}
  {fault : BindFault}

/-- **What is wrong with an argument** at a position: its text is none of its kind, or it is read
as an operand that is not what the slot asks for. -/
inductive Misfits (opcode : Opcode) (position : Nat) (slot : Slot) (arg : Arg) : BindFault → Prop
  | literal {why : LiteralError} (hparse : Operand.parse arg.kind arg.value = .error why) :
      Misfits opcode position slot arg (.literal why arg)
  | kind {o : Operand} (hparse : Operand.parse arg.kind arg.value = .ok o) (hfit : slot.fits o = false) :
      Misfits opcode position slot arg (.argumentKind opcode position slot arg.kind)

/-- The argument at a place does not fit the slot at the same place; positions count from `k` on. -/
def MisfitsAt (opcode : Opcode) (k : Nat) (slots : List Slot) (args : List Arg) (j : Nat) (fault : BindFault) : Prop :=
  ∃ slot arg, slots[j]? = some slot ∧ args[j]? = some arg ∧ Misfits opcode (k + j) slot arg fault

theorem bindArg_eq_error : bindArg opcode k slot arg = .error fault ↔ Misfits opcode k slot arg fault := by
  unfold bindArg
  constructor
  · intro h
    split at h
    · rename_i why hparse
      cases h
      exact .literal hparse
    · rename_i o hparse
      split at h
      · cases h
      · rename_i hfit
        cases h
        exact .kind hparse (Bool.eq_false_iff.2 hfit)
  · intro h
    cases h with
    | literal hparse => rw [hparse]
    | kind hparse hfit => simp only [hparse, hfit, Bool.false_eq_true, if_false]

theorem bindArgs_eq_error :
    bindArgs opcode k slots args = .error fault ↔ ∃ j, FirstAt (MisfitsAt opcode k slots args) j fault := by
  rw [bindArgs_eq_mapM, mapM_eq_error]
  refine exists_congr fun j => FirstAt.congr fun j fault => ?_
  simp only [failsAt_zipIdx, MisfitsAt, bindArg_eq_error, List.getElem?_zip_eq_some, Prod.exists, and_assoc]

end Instruction

/-! ## Records -/

namespace Record

open Instruction (Reads MisfitsAt)

variable {r : Record} {i : Instruction} {fault : BindFault} {e : BindError}

/-- **The record binds to the instruction**: it names its operation, has as many arguments as the
signature has slots, and sorted by their slots they are read as the operands, which fit. -/
structure Binds (r : Record) (i : Instruction) : Prop where
  opcode : Text.sameLetters i.opcode.mnemonic r.opcode = true
  order  : i.order = r.order
  count  : r.args.length = i.opcode.signature.length
  args   : ∃ args, Sort.Sorts Arg.slot r.args args ∧
    List.Forall₂ (fun p o => Reads p.1 p.2 o) (i.opcode.signature.zip args) i.args

/-- **What a record that does not bind is blamed for.** -/
inductive Blamed (r : Record) : BindFault → Prop
  | opcode (hop : ∀ op : Opcode, Text.sameLetters op.mnemonic r.opcode = false) : Blamed r (.unknownOpcode r.opcode)
  | count {op : Opcode} (hop : Text.sameLetters op.mnemonic r.opcode = true)
      (hcount : r.args.length ≠ op.signature.length) : Blamed r (.argumentCount op r.args.length)
  | argument {op : Opcode} {args : List Arg} {j : Nat} {fault : BindFault}
      (hop : Text.sameLetters op.mnemonic r.opcode = true) (hcount : r.args.length = op.signature.length)
      (hargs : Sort.Sorts Arg.slot r.args args) (hfirst : FirstAt (MisfitsAt op 1 op.signature args) j fault) :
      Blamed r fault

theorem bind_eq_ok_iff : Instruction.bind r = .ok i ↔ r.Binds i := by
  rw [Instruction.bind_eq_ok, Opcode.ofText?_eq_some]
  constructor
  · rintro ⟨hop, horder, hcount, hargs⟩
    exact ⟨hop, horder, hcount, _, Sort.sorts_iff.2 rfl, hargs⟩
  · rintro ⟨hop, horder, hcount, args, hsort, hargs⟩
    obtain rfl := Sort.sorts_iff.1 hsort
    exact ⟨hop, horder, hcount, hargs⟩

theorem bind_eq_error_iff : Instruction.bind r = .error fault ↔ r.Blamed fault := by
  unfold Instruction.bind
  constructor
  · intro h
    split at h
    · rename_i hop
      cases h
      exact .opcode (Opcode.ofText?_eq_none.1 hop)
    · rename_i op hop
      have hop := Opcode.ofText?_eq_some.1 hop
      split at h
      · rename_i hcount
        cases h
        exact .count hop hcount
      · rename_i hcount
        split at h
        · rename_i hargs
          cases h
          obtain ⟨j, hfirst⟩ := Instruction.bindArgs_eq_error.1 hargs
          exact .argument hop (not_not.1 hcount) (Sort.sorts_iff.2 rfl) hfirst
        · cases h
  · intro h
    cases h with
    | opcode hop => rw [Opcode.ofText?_eq_none.2 hop]
    | count hop hcount =>
      rw [Opcode.ofText?_eq_some.2 hop]
      exact if_pos hcount
    | argument hop hcount hsort hfirst =>
      obtain rfl := Sort.sorts_iff.1 hsort
      have hargs := Instruction.bindArgs_eq_error.2 ⟨_, hfirst⟩
      rw [Opcode.ofText?_eq_some.2 hop]
      simp only [hcount, ne_eq, not_true, if_false, hargs]

theorem ofRecord_eq_ok_iff : Instruction.ofRecord r = .ok i ↔ r.Binds i := by
  rw [Instruction.ofRecord_eq_ok, bind_eq_ok_iff]

theorem ofRecord_eq_error_iff : Instruction.ofRecord r = .error e ↔ e.order = r.order ∧ r.Blamed e.fault := by
  rw [← bind_eq_error_iff]
  unfold Instruction.ofRecord
  obtain ⟨order, fault⟩ := e
  cases Instruction.bind r with
  | error fault' => simp [eq_comm]
  | ok i => simp

end Record

/-! ## Programs -/

namespace Program

theorem ofRecords_eq_error {rs : List Record} {e : BindError} :
    ofRecords rs = .error e ↔ ∃ k, FirstAt (FailsAt Instruction.ofRecord rs) k e := by
  rw [← mapM_eq_error, ← bindAll_eq_mapM]
  unfold ofRecords
  cases bindAll rs <;> simp

/-- **Binding is exact.**  Records bind to a program iff each of them binds on its own, and the
program is then their instructions in ascending order, with equal order numbers in the order of
the records; otherwise the error is that of the first record that does not bind.  A record binds
iff it names an operation up to case, has as many arguments as the signature has slots, and the
arguments, sorted by their slots, are read as operands that fit; otherwise the error has the number
of the record, and blames the first of these things that is not so. -/
theorem binding_exact (rs : List Record) :
    ((∃ p, ofRecords rs = .ok p) ↔ ∀ r ∈ rs, ∃ i, Instruction.ofRecord r = .ok i) ∧
    (∀ p, ofRecords rs = .ok p ↔ ∃ is, List.Forall₂ (fun r i => Instruction.ofRecord r = .ok i) rs is ∧
      Sort.Sorts Instruction.order is p.instructions) ∧
    (∀ e, ofRecords rs = .error e ↔ ∃ k, FirstAt (FailsAt Instruction.ofRecord rs) k e) ∧
    ∀ r, (∀ i, Instruction.ofRecord r = .ok i ↔ r.Binds i) ∧
      ∀ e, Instruction.ofRecord r = .error e ↔ e.order = r.order ∧ r.Blamed e.fault := by
  have hok : ∀ p, ofRecords rs = .ok p ↔ ∃ is, List.Forall₂ (fun r i => Instruction.ofRecord r = .ok i) rs is ∧
      Sort.Sorts Instruction.order is p.instructions := by
    rintro ⟨instructions⟩
    simp only [ofRecords_eq_ok, Instruction.ofRecord_eq_ok, Sort.sorts_iff, ofInstructions, Program.mk.injEq]
  refine ⟨?_, hok, fun e => ofRecords_eq_error,
    fun r => ⟨fun i => Record.ofRecord_eq_ok_iff, fun e => Record.ofRecord_eq_error_iff⟩⟩
  rw [← exists_forall₂_iff]
  constructor
  · rintro ⟨p, hp⟩
    obtain ⟨is, his, -⟩ := (hok p).1 hp
    exact ⟨is, his⟩
  · rintro ⟨is, his⟩
    exact ⟨ofInstructions is, (hok _).2 ⟨is, his, Sort.sorts_iff.2 rfl⟩⟩

/-- Numbers and slots that are negative, used twice or out of order; and a record at fault in its
first argument, which is in the slot of the second one, before a record that names no operation. -/
theorem binding_exact_of_shuffled :
    let fine : List Record := [⟨7, "write", [⟨0, "int", "0x1F"⟩]⟩,
      ⟨-3, "Move", [⟨9, "int", "-1"⟩, ⟨-5, "var", "GF@x"⟩]⟩, ⟨7, "BREAK", []⟩]
    let p : Program := ⟨[⟨.move, -3, [.var ⟨.gf, "x"⟩, .const (.int (-1))]⟩, ⟨.write, 7, [.const (.int 31)]⟩, ⟨.brk, 7, []⟩]⟩
    let r : Record := ⟨5, "MOVE", [⟨2, "var", "GF@"⟩, ⟨2, "label", "a"⟩]⟩
    let faulty : List Record := [⟨9, "break", []⟩, r, ⟨4, "NOPE", []⟩]
    let e : BindError := ⟨5, .literal .invalidVariable ⟨2, "var", "GF@"⟩⟩
    ofRecords fine = .ok p ∧ (∀ r ∈ fine, ∃ i, Instruction.ofRecord r = .ok i) ∧
      (∃ is, List.Forall₂ (fun r i => Instruction.ofRecord r = .ok i) fine is ∧
        Sort.Sorts Instruction.order is p.instructions) ∧
      ofRecords faulty = .error e ∧ (∃ k, FirstAt (FailsAt Instruction.ofRecord faulty) k e) ∧ r.Blamed e.fault := by
  intro fine p r faulty e
  have hfine : ofRecords fine = .ok p := by decide +kernel
  have hfaulty : ofRecords faulty = .error e := by decide +kernel
  have hr : Instruction.ofRecord r = .error e := by decide +kernel
  obtain ⟨hall, hprogram, -⟩ := binding_exact fine
  obtain ⟨-, -, hfirst, hrecord⟩ := binding_exact faulty
  exact ⟨hfine, hall.1 ⟨p, hfine⟩, (hprogram p).1 hfine, hfaulty, (hfirst e).1 hfaulty, (((hrecord r).2 e).1 hr).2⟩

end Program

end IppCode
