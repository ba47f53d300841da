import IppCode.Proofs.Blame
import IppCode.Proofs.Tokens
import IppCode.Source.Assemble
/-!
# Grammar — which texts are assembled, and into which records

A line counts if something is left of it without its comment (`Line.read_eq_blank`).  The first
line that counts may be a header, and all others have to be instructions, which are read one after
another with numbers from one (`assemble_eq`).  So a text is assembled iff its lines are of
these forms, and otherwise the first line that is not names the error, by its number in the whole
text (`assemble_exact`).
-/
namespace IppCode

namespace Source

/-! ## Tokens to arguments -/

/-- **The token stands for the argument** of a slot, under the number that the slot has. -/
def Denotes (slot : Slot) (token : Text) (number : Nat) (arg : Arg) : Prop :=
  ∃ kind value, argument? slot token = some (kind, value) ∧ arg = ⟨number, kind.text, value⟩

/-- The token at a place stands for nothing in the slot at the same place. -/
def MistakenAt (slots : List Slot) (tokens : List Text) (j : Nat) (fault : SourceFault) : Prop :=
  ∃ slot token, slots[j]? = some slot ∧ tokens[j]? = some token ∧ argument? slot token = none ∧
    fault = .argument token slot

/-- Reads a token in a slot that has a number. -/
def argument (number : Nat) (slot : Slot) (token : Text) : Except SourceFault Arg :=
  match argument? slot token with
  | none               => .error (.argument token slot)
  | some (kind, value) => .ok ⟨number, kind.text, value⟩

variable {slot : Slot} {token : Text} {arg : Arg} {k : Nat} {slots : List Slot} {tokens : List Text} {args : List Arg}
  {fault : SourceFault}

theorem argument_eq_ok : argument k slot token = .ok arg ↔ Denotes slot token k arg := by
  unfold argument Denotes
  cases argument? slot token with
  | none => simp
  | some p => simp [eq_comm, Prod.ext_iff]

theorem argument_eq_error : argument k slot token = .error fault ↔
    argument? slot token = none ∧ fault = .argument token slot := by
  unfold argument
  cases argument? slot token with
  | none => simp [eq_comm]
  | some p => simp

theorem arguments_eq_mapM : ∀ (k : Nat) (slots : List Slot) (tokens : List Text),
    arguments k slots tokens = ((slots.zip tokens).zipIdx k).mapM fun q => argument q.2 q.1.1 q.1.2
  | _, [], _ => rfl
  | _, _ :: _, [] => rfl
  | k, slot :: slots, token :: tokens => by
    rw [List.zip_cons_cons, List.zipIdx_cons, mapM_cons_except, ← arguments_eq_mapM (k + 1) slots tokens, arguments]
    unfold argument
    cases argument? slot token with
    | none => rfl
    | some p => cases arguments (k + 1) slots tokens <;> rfl

theorem arguments_eq_ok_iff : arguments k slots tokens = .ok args ↔
    List.Forall₂ (fun q arg => Denotes q.1.1 q.1.2 q.2 arg) ((slots.zip tokens).zipIdx k) args := by
  rw [arguments_eq_mapM, mapM_eq_ok]
  simp only [argument_eq_ok]

theorem arguments_eq_error :
    arguments k slots tokens = .error fault ↔ ∃ j, FirstAt (MistakenAt slots tokens) j fault := by
  rw [arguments_eq_mapM, mapM_eq_error]
  refine exists_congr fun j => FirstAt.congr fun j fault => ?_
  simp only [failsAt_zipIdx, MistakenAt, argument_eq_error, List.getElem?_zip_eq_some, Prod.exists, and_assoc]

/-! ## Words to records -/

/-- **An operation and its tokens stand for a record**: the operation is known, it has as many tokens
as slots, and each token stands for the argument in its slot, from the first one on. -/
inductive Assembles (order : Nat) (operation : Text) (tokens : List Text) : Record → Prop
  | record {op : Opcode} {args : List Arg} (hop : Text.sameLetters op.mnemonic operation = true)
      (hcount : tokens.length = op.signature.length)
      (hargs : List.Forall₂ (fun q arg => Denotes q.1.1 q.1.2 q.2 arg) ((op.signature.zip tokens).zipIdx 1) args) :
      Assembles order operation tokens ⟨order, op.mnemonic, args⟩

/-- **What is wrong with an operation and its tokens** that stand for no record. -/
inductive Refused (operation : Text) (tokens : List Text) : SourceFault → Prop
  | opcode (hop : ∀ op : Opcode, Text.sameLetters op.mnemonic operation = false) :
      Refused operation tokens (.unknownOpcode operation)
  | count {op : Opcode} (hop : Text.sameLetters op.mnemonic operation = true)
      (hcount : tokens.length ≠ op.signature.length) : Refused operation tokens (.argumentCount op tokens.length)
  | argument {op : Opcode} {j : Nat} {fault : SourceFault} (hop : Text.sameLetters op.mnemonic operation = true)
      (hcount : tokens.length = op.signature.length) (hfirst : FirstAt (MistakenAt op.signature tokens) j fault) :
      Refused operation tokens fault

variable {order : Nat} {operation : Text} {r : Record}

theorem instruction_eq_ok_iff : instruction order operation tokens = .ok r ↔ Assembles order operation tokens r := by
  unfold instruction
  constructor
  · intro h
    split at h
    · cases h
    · rename_i op hop
      split at h
      · cases h
      · rename_i hcount
        split at h
        · cases h
        · rename_i args hargs
          cases h
          exact .record (Opcode.ofText?_eq_some.1 hop) (not_not.1 hcount) (arguments_eq_ok_iff.1 hargs)
  · rintro ⟨hop, hcount, hargs⟩
    rw [Opcode.ofText?_eq_some.2 hop]
    simp only [hcount, ne_eq, not_true, if_false, arguments_eq_ok_iff.2 hargs]

theorem instruction_eq_error_iff : instruction order operation tokens = .error fault ↔ Refused operation tokens fault := by
  unfold instruction
  constructor
  · intro h
    split at h
    · rename_i hop
      cases h
      exact .opcode (Opcode.ofText?_eq_none.1 hop)
    · rename_i op hop
      have hop := Opcode.ofText?_eq_some.1 hop
      split at h
      · rename_i hcount
        cases h
        exact .count hop hcount
      · rename_i hcount
        split at h
        · rename_i hargs
          cases h
          obtain ⟨j, hfirst⟩ := arguments_eq_error.1 hargs
          exact .argument hop (not_not.1 hcount) hfirst
        · cases h
  · intro h
    cases h with
    | opcode hop => rw [Opcode.ofText?_eq_none.2 hop]
    | count hop hcount =>
      rw [Opcode.ofText?_eq_some.2 hop]
      exact if_pos hcount
    | argument hop hcount hfirst =>
      have hargs := arguments_eq_error (k := 1) |>.2 ⟨_, hfirst⟩
      rw [Opcode.ofText?_eq_some.2 hop]
      simp only [hcount, ne_eq, not_true, if_false, hargs]

/-! ## Lines -/

namespace Line

/-- Something is left of the line when its comment is taken away. -/
def hasContent (l : Text) : Bool := (uncommented l).any fun c => !Text.isBlank c

def isInstruction (l : Text) : Bool :=
  match read l with
  | .instruction _ _ => true
  | _                => false

/-- The line is a header, and a valid one. -/
def isValidHeader (l : Text) : Bool :=
  match read l with
  | .header words => isHeader words
  | _             => false

variable {l : Text} {words : List Text}

theorem ofWords_eq_blank {words : List Text} : ofWords words = .blank ↔ words = [] := by
  cases words with
  | nil => simp [ofWords]
  | cons w ws =>
    rw [ofWords]
    split <;> simp

theorem words_of_read_header (h : read l = .header words) : words = Text.words (uncommented l) := by
  unfold read at h
  cases hwords : Text.words (uncommented l) with
  | nil =>
    rw [hwords] at h
    cases h
  | cons w ws =>
    rw [hwords, ofWords] at h
    split at h <;> cases h
    rfl

/-- **A line is blank** iff nothing is left of it without its comment but blanks. -/
theorem read_eq_blank : read l = .blank ↔ hasContent l = false := by
  unfold read hasContent
  rw [ofWords_eq_blank, Text.words_eq_nil_iff, List.any_eq_false]
  simp [Text.Blank]

end Line

/-- **The line stands for a record** with an order number. -/
def StandsFor (order : Nat) (l : Text) (r : Record) : Prop :=
  ∃ operation tokens, Line.read l = .instruction operation tokens ∧ Assembles order operation tokens r

/-- **What is wrong with a line** that counts, after a number of such lines: it is a header, and not
the first of them or not a valid one, or it is an instruction that cannot be read. -/
inductive Offends (l : Text) (before : Nat) : SourceFault → Prop
  | header {words : List Text} (hread : Line.read l = .header words) (hplace : 0 < before ∨ isHeader words = false) :
      Offends l before (.header words)
  | instruction {operation : Text} {tokens : List Text} {fault : SourceFault}
      (hread : Line.read l = .instruction operation tokens) (hrefused : Refused operation tokens fault) :
      Offends l before fault

/-- Reads a line with a number as the instruction with an order number.  What is no instruction
counts as a header that is not valid. -/
def recordOfLine (order : Nat) (l : Text) (n : Nat) : Except SourceError Record :=
  match Line.read l with
  | .instruction operation tokens =>
    match instruction order operation tokens with
    | .error fault => .error ⟨n, fault⟩
    | .ok r        => .ok r
  | _ => .error ⟨n, .header (Text.words (Line.uncommented l))⟩

variable {l : Text} {n before : Nat} {e : SourceError} {ts : List Text}

theorem recordOfLine_eq_ok : recordOfLine order l n = .ok r ↔ StandsFor order l r := by
  unfold recordOfLine StandsFor
  cases hread : Line.read l with
  | blank => simp
  | header words => simp
  | instruction operation tokens =>
    simp only [← instruction_eq_ok_iff, Line.instruction.injEq]
    constructor
    · intro h
      split at h
      · cases h
      · rename_i r' hr
        cases h
        exact ⟨operation, tokens, ⟨rfl, rfl⟩, hr⟩
    · rintro ⟨_, _, ⟨rfl, rfl⟩, hr⟩
      rw [hr]

theorem recordOfLine_eq_error (hcontent : Line.hasContent l = true) (hplace : 0 < before ∨ Line.isValidHeader l = false) :
    recordOfLine order l n = .error e ↔ e.line = n ∧ Offends l before e.fault := by
  obtain ⟨line, fault⟩ := e
  unfold recordOfLine
  cases hread : Line.read l with
  | blank =>
    rw [Line.read_eq_blank, hcontent] at hread
    cases hread
  | header words =>
    have hvalid : 0 < before ∨ isHeader words = false := by simpa only [Line.isValidHeader, hread] using hplace
    rw [← Line.words_of_read_header hread]
    constructor
    · rintro ⟨⟩
      exact ⟨rfl, .header hread hvalid⟩
    · rintro ⟨rfl, h⟩
      cases h with
      | header hread' =>
        cases hread.symm.trans hread'
        rfl
      | instruction hread' => cases hread.symm.trans hread'
  | instruction operation tokens =>
    constructor
    · intro h
      simp only at h
      split at h
      · rename_i fault' hfault
        cases h
        exact ⟨rfl, .instruction hread (instruction_eq_error_iff.1 hfault)⟩
      · cases h
    · rintro ⟨rfl, h⟩
      cases h with
      | header hread' => cases hread.symm.trans hread'
      | instruction hread' hrefused =>
        cases hread.symm.trans hread'
        simp only [instruction_eq_error_iff.2 hrefused]

/-- Reads numbered lines as instructions with order numbers from one on. -/
def recordsOfLines (order : Nat) (ls : List (Text × Nat)) : Except SourceError (List Record) :=
  (ls.zipIdx order).mapM fun q => recordOfLine q.2 q.1.1 q.1.2

variable {ls : List (Text × Nat)} {rs : List Record}

theorem recordsOfLines_cons : recordsOfLines order ((l, n) :: ls) = match recordOfLine order l n with
    | .error e => .error e
    | .ok r    =>
      match recordsOfLines (order + 1) ls with
      | .error e => .error e
      | .ok rs   => .ok (r :: rs) := by
  unfold recordsOfLines
  rw [List.zipIdx_cons, mapM_cons_except]
  cases recordOfLine order l n with
  | error e => rfl
  | ok r => cases (ls.zipIdx (order + 1)).mapM (fun q => recordOfLine q.2 q.1.1 q.1.2) <;> rfl

theorem recordsOfLines_eq_ok :
    recordsOfLines order ls = .ok rs ↔ List.Forall₂ (fun q r => StandsFor q.2 q.1.1 r) (ls.zipIdx order) rs := by
  unfold recordsOfLines
  rw [mapM_eq_ok]
  simp only [recordOfLine_eq_ok]

/-! ## Texts -/

/-- **The lines that count**, each with its number in the whole text, which begins with a number. -/
def contentFrom (n : Nat) (ls : List Text) : List (Text × Nat) := (ls.zipIdx n).filter fun q => Line.hasContent q.1

/-- Without a valid header in front. -/
def headless : List (Text × Nat) → List (Text × Nat)
  | []      => []
  | q :: qs => if Line.isValidHeader q.1 then qs else q :: qs

theorem contentFrom_cons_of_blank (h : Line.read l = .blank) : contentFrom n (l :: ts) = contentFrom (n + 1) ts := by
  rw [Line.read_eq_blank] at h
  simp [contentFrom, h]

theorem contentFrom_cons (h : Line.read l ≠ .blank) : contentFrom n (l :: ts) = (l, n) :: contentFrom (n + 1) ts := by
  rw [ne_eq, Line.read_eq_blank, Bool.not_eq_false] at h
  simp [contentFrom, h]

/-- **After the first line that counts** all of them are read as instructions. -/
theorem assembleLines_started : ∀ (n order : Nat) (ts : List Text),
    assembleLines n true order ts = recordsOfLines order (contentFrom n ts)
  | _, _, [] => rfl
  | n, order, l :: ts => by
    cases hread : Line.read l with
    | blank =>
      rw [contentFrom_cons_of_blank hread, ← assembleLines_started (n + 1) order ts, assembleLines, hread]
    | header words =>
      rw [contentFrom_cons (by simp [hread]), recordsOfLines_cons, assembleLines, hread, recordOfLine, hread,
        ← Line.words_of_read_header hread]
      rfl
    | instruction operation tokens =>
      rw [contentFrom_cons (by simp [hread]), recordsOfLines_cons, ← assembleLines_started (n + 1) (order + 1) ts,
        assembleLines, hread, recordOfLine, hread]
      simp only
      cases instruction order operation tokens with
      | error fault => rfl
      | ok r => cases assembleLines (n + 1) true (order + 1) ts <;> rfl

/-- A line that is no valid header is read in the same way wherever it stands. -/
theorem assembleLines_of_not_header (order : Nat) (hread : Line.read l ≠ .blank) (hvalid : Line.isValidHeader l = false) :
    assembleLines n false order (l :: ts) = assembleLines n true order (l :: ts) := by
  rw [assembleLines, assembleLines]
  unfold Line.isValidHeader at hvalid
  cases h : Line.read l with
  | blank => exact absurd h hread
  | header words =>
    rw [h] at hvalid
    simp only at hvalid
    simp [hvalid]
  | instruction operation tokens => rfl

/-- **From the first line on** those that count are read as instructions, but for a valid header. -/
theorem assembleLines_eq : ∀ (n order : Nat) (ts : List Text),
    assembleLines n false order ts = recordsOfLines order (headless (contentFrom n ts))
  | _, _, [] => rfl
  | n, order, l :: ts => by
    by_cases hread : Line.read l = .blank
    · rw [contentFrom_cons_of_blank hread, ← assembleLines_eq (n + 1) order ts, assembleLines, hread]
    · rw [contentFrom_cons hread, headless]
      cases hvalid : Line.isValidHeader l with
      | false =>
        rw [assembleLines_of_not_header order hread hvalid, assembleLines_started, contentFrom_cons hread]
        rfl
      | true =>
        unfold Line.isValidHeader at hvalid
        split at hvalid
        · rename_i words hwords
          simp only [assembleLines, hwords, hvalid, if_true, ← assembleLines_started]
          rfl
        · cases hvalid

/-- Wherever the reading begins, some of the lines become the records. -/
theorem exists_lines_of_assembleLines {started : Bool} (h : assembleLines n started order ts = .ok rs) :
    ∃ ls : List (Text × Nat), List.Forall₂ (fun q r => StandsFor q.2 q.1.1 r) (ls.zipIdx order) rs := by
  cases started with
  | false => exact ⟨_, recordsOfLines_eq_ok.1 (assembleLines_eq n order ts ▸ h)⟩
  | true => exact ⟨_, recordsOfLines_eq_ok.1 (assembleLines_started n order ts ▸ h)⟩

/-! ## Lines at fault -/

/-- **A line that counts offends**, at its place among those; the error has its number. -/
def OffendsAt (ls : List (Text × Nat)) (k : Nat) (e : SourceError) : Prop :=
  ∃ l, ls[k]? = some (l, e.line) ∧ Offends l k e.fault

theorem not_offends_of_valid (h : Line.isValidHeader l = true) : ¬ Offends l 0 fault := by
  unfold Line.isValidHeader at h
  intro hoffends
  cases hoffends with
  | header hread hplace =>
    rw [hread] at h
    exact hplace.elim (Nat.not_lt_zero 0) fun hinvalid => Bool.noConfusion (hinvalid.symm.trans h)
  | instruction hread =>
    rw [hread] at h
    cases h

theorem failsAt_recordOfLine {j m : Nat} (hls : ∀ q, ls[j]? = some q →
      Line.hasContent q.1 = true ∧ (0 < before ∨ Line.isValidHeader q.1 = false)) :
    FailsAt (fun q => recordOfLine q.2 q.1.1 q.1.2) (ls.zipIdx m) j e ↔
      ∃ l, ls[j]? = some (l, e.line) ∧ Offends l before e.fault := by
  rw [failsAt_zipIdx]
  constructor
  · rintro ⟨⟨l, n⟩, hl, h⟩
    obtain ⟨hcontent, hplace⟩ := hls _ hl
    obtain ⟨rfl, hoffends⟩ := (recordOfLine_eq_error hcontent hplace).1 h
    exact ⟨l, hl, hoffends⟩
  · rintro ⟨l, hl, hoffends⟩
    obtain ⟨hcontent, hplace⟩ := hls _ hl
    exact ⟨_, hl, (recordOfLine_eq_error hcontent hplace).2 ⟨rfl, hoffends⟩⟩

/-- **The first line that offends** is the first one that cannot be read; a valid header does not
offend and is not read. -/
theorem recordsOfLines_headless_eq_error (hcontent : ∀ q ∈ ls, Line.hasContent q.1 = true) :
    recordsOfLines order (headless ls) = .error e ↔ ∃ k, FirstAt (OffendsAt ls) k e := by
  unfold recordsOfLines
  cases ls with
  | nil =>
    refine iff_of_false nofun ?_
    rintro ⟨k, ⟨l, hl, -⟩, -⟩
    cases hl
  | cons q qs =>
    rw [headless]
    cases hvalid : Line.isValidHeader q.1 with
    | true =>
      have hnone : ∀ e, ¬ OffendsAt (q :: qs) 0 e := by
        rintro e ⟨l, hl, hoffends⟩
        cases hl
        exact not_offends_of_valid hvalid hoffends
      rw [if_pos rfl, mapM_eq_error, FirstAt.exists_succ_iff hnone]
      refine exists_congr fun k => FirstAt.congr fun k e => failsAt_recordOfLine fun q' hq' => ?_
      exact ⟨hcontent q' (List.mem_cons_of_mem q (List.mem_of_getElem? hq')), .inl (Nat.succ_pos k)⟩
    | false =>
      rw [if_neg (by decide), mapM_eq_error]
      refine exists_congr fun k => FirstAt.congr fun k e => failsAt_recordOfLine fun q' hq' => ?_
      refine ⟨hcontent q' (List.mem_of_getElem? hq'), ?_⟩
      cases k with
      | zero =>
        cases hq'
        exact .inr hvalid
      | succ k => exact .inl (Nat.succ_pos k)

/-- **The lines that count**, each with its number in the text. -/
def content (t : Text) : List (Text × Nat) := contentFrom 1 (Text.lines t)

theorem mem_content {t : Text} : (l, n) ∈ content t ↔ 1 ≤ n ∧ (Text.lines t)[n - 1]? = some l ∧ Line.hasContent l = true := by
  unfold content contentFrom
  rw [List.mem_filter, List.mem_zipIdx_iff_le_and_getElem?_sub, and_assoc]

theorem assemble_eq (t : Text) : assemble t = recordsOfLines 1 (headless (content t)) :=
  assembleLines_eq 1 1 (Text.lines t)

theorem hasContent_of_mem_content {t : Text} {q : Text × Nat} (h : q ∈ content t) : Line.hasContent q.1 = true :=
  (mem_content.1 h).2.2

theorem assemble_eq_error {t : Text} : assemble t = .error e ↔ ∃ k, FirstAt (OffendsAt (content t)) k e := by
  rw [assemble_eq]
  exact recordsOfLines_headless_eq_error fun _ => hasContent_of_mem_content

/-- A line that counts does not offend iff it is a valid header in front of all others, or stands
for a record. -/
theorem not_offends_iff (hcontent : Line.hasContent l = true) :
    (∀ fault, ¬ Offends l before fault) ↔
      before = 0 ∧ Line.isValidHeader l = true ∨ ∃ order r, StandsFor order l r := by
  by_cases hheader : before = 0 ∧ Line.isValidHeader l = true
  · obtain ⟨rfl, hvalid⟩ := hheader
    exact iff_of_true (fun fault => not_offends_of_valid hvalid) (.inl ⟨rfl, hvalid⟩)
  · have hplace : 0 < before ∨ Line.isValidHeader l = false := by
      cases hvalid : Line.isValidHeader l with
      | false => exact .inr rfl
      | true => exact .inl (Nat.pos_of_ne_zero fun hzero => hheader ⟨hzero, hvalid⟩)
    rw [or_iff_right hheader]
    constructor
    · intro hfine
      cases hrecord : recordOfLine 1 l 1 with
      | error e => exact absurd ((recordOfLine_eq_error hcontent hplace).1 hrecord).2 (hfine e.fault)
      | ok r => exact ⟨1, r, recordOfLine_eq_ok.1 hrecord⟩
    · rintro ⟨order, r, hstands⟩ fault hoffends
      have hok : recordOfLine order l 1 = .ok r := recordOfLine_eq_ok.2 hstands
      have herror : recordOfLine order l 1 = .error ⟨1, fault⟩ := (recordOfLine_eq_error hcontent hplace).2 ⟨rfl, hoffends⟩
      cases hok.symm.trans herror

theorem exists_assemble_iff {t : Text} : (∃ rs, assemble t = .ok rs) ↔ ∀ k l n, (content t)[k]? = some (l, n) →
    k = 0 ∧ Line.isValidHeader l = true ∨ ∃ order r, StandsFor order l r := by
  constructor
  · rintro ⟨rs, hrs⟩ k l n hl
    refine (not_offends_iff (hasContent_of_mem_content (List.mem_of_getElem? hl))).1 fun fault hoffends => ?_
    have hwrong : OffendsAt (content t) k ⟨n, fault⟩ := ⟨l, hl, hoffends⟩
    obtain ⟨j, e, hfirst⟩ := FirstAt.exists_of_wrong hwrong
    cases hrs.symm.trans (assemble_eq_error.2 ⟨j, hfirst⟩)
  · intro h
    cases hassemble : assemble t with
    | ok rs => exact ⟨rs, rfl⟩
    | error e =>
      obtain ⟨k, ⟨l, hl, hoffends⟩, -⟩ := assemble_eq_error.1 hassemble
      exact absurd hoffends ((not_offends_iff (hasContent_of_mem_content (List.mem_of_getElem? hl))).2 (h k l _ hl) e.fault)

/-! ## Instruction lines -/

/-- The lines with instructions, one after another. -/
def instructionLines (t : Text) : List Text := (Text.lines t).filter Line.isInstruction

theorem Line.hasContent_of_isInstruction (h : isInstruction l = true) : hasContent l = true := by
  cases hcontent : hasContent l with
  | true => rfl
  | false =>
    rw [isInstruction, read_eq_blank.2 hcontent] at h
    cases h

theorem Line.not_isInstruction_of_isValidHeader (h : isValidHeader l = true) : isInstruction l = false := by
  unfold isValidHeader at h
  unfold isInstruction
  split at h
  · rename_i words hread
    rw [hread]
  · cases h

theorem Line.isInstruction_of_standsFor (h : StandsFor order l r) : isInstruction l = true := by
  obtain ⟨operation, tokens, hread, -⟩ := h
  rw [isInstruction, hread]

theorem filter_content (t : Text) :
    ((content t).filter fun q => Line.isInstruction q.1).map Prod.fst = instructionLines t := by
  have hboth : ∀ q : Text × Nat, (Line.isInstruction q.1 && Line.hasContent q.1) = Line.isInstruction q.1 := by
    intro q
    cases h : Line.isInstruction q.1 with
    | false => rfl
    | true => exact Line.hasContent_of_isInstruction h
  unfold content contentFrom instructionLines
  conv_rhs => rw [← List.zipIdx_map_fst 1 (Text.lines t)]
  rw [List.filter_filter, List.filter_map]
  simp only [hboth]
  rfl

theorem filter_headless (ls : List (Text × Nat)) :
    (headless ls).filter (fun q => Line.isInstruction q.1) = ls.filter fun q => Line.isInstruction q.1 := by
  cases ls with
  | nil => rfl
  | cons q qs =>
    rw [headless]
    split
    · rename_i hvalid
      rw [List.filter_cons_of_neg (by simp [Line.not_isInstruction_of_isValidHeader hvalid])]
    · rfl

/-- **The records are those of the lines with instructions**, one for each. -/
theorem records_of_assemble {t : Text} (h : assemble t = .ok rs) :
    List.Forall₂ (fun q r => StandsFor q.2 q.1 r) ((instructionLines t).zipIdx 1) rs := by
  rw [assemble_eq, recordsOfLines_eq_ok] at h
  have hall : ∀ q ∈ headless (content t), Line.isInstruction q.1 = true := by
    intro q hq
    rw [← List.zipIdx_map_fst 1 (headless (content t)), List.mem_map] at hq
    obtain ⟨p, hp, rfl⟩ := hq
    obtain ⟨r, hr⟩ := exists_forall₂_iff.1 ⟨rs, h⟩ p hp
    exact Line.isInstruction_of_standsFor hr
  have hlines : (headless (content t)).map Prod.fst = instructionLines t := by
    rw [← filter_content, ← filter_headless, List.filter_eq_self.2 hall]
  rw [← hlines, List.zipIdx_map, List.forall₂_map_left_iff]
  exact h

/-- **Exactly the texts of the grammar are assembled.**  All lines that count have to stand for
records, but the first of them may be a valid header.  The records are those of the lines with
instructions, with order numbers from one; and if there are none, the first line that offends says
why, by its number in the whole text. -/
theorem assemble_exact (t : Text) :
    ((∃ rs, assemble t = .ok rs) ↔ ∀ k l n, (content t)[k]? = some (l, n) →
      k = 0 ∧ Line.isValidHeader l = true ∨ ∃ order r, StandsFor order l r) ∧
    (∀ rs, assemble t = .ok rs → List.Forall₂ (fun q r => StandsFor q.2 q.1 r) ((instructionLines t).zipIdx 1) rs) ∧
    (∀ e, assemble t = .error e ↔ ∃ k, FirstAt (OffendsAt (content t)) k e) ∧
    ∀ l n, (l, n) ∈ content t ↔ 1 ≤ n ∧ (Text.lines t)[n - 1]? = some l ∧ Line.hasContent l = true :=
  ⟨exists_assemble_iff, fun _ => records_of_assemble, fun _ => assemble_eq_error, fun _ _ => mem_content⟩

/-- A text with a comment in front of its header, blank lines and carriage returns; and one whose
header comes too late, before a line that names no operation. -/
theorem assemble_exact_of_late_header :
    let fine : Text := "# start\r\n\r\n\t.ippCODE24 # header\r\nwrite int@1#one\r\n \t\r\nMove GF@x nil@nil"
    let rs : List Record := [⟨1, "WRITE", [⟨1, "int", "1"⟩]⟩, ⟨2, "MOVE", [⟨1, "var", "GF@x"⟩, ⟨2, "nil", "nil"⟩]⟩]
    let late : Text := "\n# start\nBREAK\n\n.IPPcode24\nNOPE"
    let e : SourceError := ⟨5, .header [".IPPcode24"]⟩
    assemble fine = .ok rs ∧
      List.Forall₂ (fun q r => StandsFor q.2 q.1 r) ((instructionLines fine).zipIdx 1) rs ∧
      assemble late = .error e ∧ ∃ k, FirstAt (OffendsAt (content late)) k e := by
  intro fine rs late e
  have hfine : assemble fine = .ok rs := by decide +kernel
  have hlate : assemble late = .error e := by decide +kernel
  obtain ⟨-, hrecords, -⟩ := assemble_exact fine
  obtain ⟨-, -, hfirst, -⟩ := assemble_exact late
  exact ⟨hfine, hrecords rs hfine, hlate, (hfirst e).1 hlate⟩

end Source

end IppCode
