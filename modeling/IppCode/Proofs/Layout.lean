import Mathlib.Logic.Relation
import IppCode.Proofs.Grammar
/-!
# Layout — what of a text does not matter

What the assembler reads of a line are its words, the first of them up to case (`gist`), and what it
reads of a text are the gists of the lines that have one (`assemble_agrees`).  Blank lines, comments,
the blanks around words and the case of the first word leave these as they are (`gist_of_lineEdit`,
`gists_of_edit`), so that no sequence of such edits makes a difference; neither does a header that
a text has in addition (`layout_ignored`).
-/
namespace IppCode

namespace Source

open Text (Blank Token)

/-! ## What is read of a line -/

/-- The words with the first one in lower case. -/
def lowered : List Text → List Text
  | []      => []
  | w :: ws => w.map Char.toLower :: ws

/-- **What is read of a line**: its words, the first one up to case. -/
def Line.gist (l : Text) : List Text := lowered (Text.words (Line.uncommented l))

/-- **What is read of lines**: the gists of those that have one. -/
def gists (ls : List Text) : List (List Text) := (ls.map Line.gist).filter fun g => !g.isEmpty

namespace Line

variable {a b l c : Text}

/-- What is behind a mark does not matter. -/
theorem uncommented_append_mark (h : '#' ∈ a) : uncommented (a ++ b) = uncommented a := by
  obtain ⟨code, comment, rfl, hcode⟩ := List.eq_append_cons_of_mem h
  rw [List.append_assoc, uncommented_append hcode, uncommented_append hcode]
  rfl

theorem gist_eq_nil : gist l = [] ↔ Blank (uncommented l) := by
  unfold gist
  rw [← Text.words_eq_nil_iff]
  cases Text.words (uncommented l) with
  | nil => exact iff_of_true rfl rfl
  | cons w ws => exact iff_of_false (List.cons_ne_nil _ _) (List.cons_ne_nil _ _)

/-- A line with a gist has content. -/
theorem hasContent_iff : hasContent l = true ↔ gist l ≠ [] := by
  rw [ne_eq, gist_eq_nil, ← Text.words_eq_nil_iff, ← ofWords_eq_blank]
  change _ ↔ ¬ read l = .blank
  rw [read_eq_blank, Bool.not_eq_false]

end Line

/-! ## Edits -/

/-- **An edit inside of a line**: a comment at its end, other blanks around words, other letters in the
first word. -/
inductive LineEdit : Text → Text → Prop
  | comment {l c : Text} : LineEdit l (l ++ '#' :: c)
  /-- Between two words there have to be blanks, before the first and after the last there may be. -/
  | respace {a b gap gap' : Text} (hcode : '#' ∉ a) (hgap : Blank gap) (hgap' : Blank gap')
      (hplace : gap ≠ [] ∧ gap' ≠ [] ∨ Blank a ∨ Blank (Line.uncommented b)) :
      LineEdit (a ++ gap ++ b) (a ++ gap' ++ b)
  | recase {gap w w' b : Text} (hgap : Blank gap) (hw : Token w) (hcase : Text.sameLetters w w' = true)
      (hend : ∀ c ∈ b.head?, ¬ Text.Plain c) : LineEdit (gap ++ w ++ b) (gap ++ w' ++ b)

/-- **An edit of lines**: a blank line or one with only a comment comes in, a line is edited, or a line
feed after a line becomes a carriage return and a line feed. -/
inductive Edit : List Text → List Text → Prop
  | blank {before after : List Text} {l : Text} (hl : Blank (Line.uncommented l)) :
      Edit (before ++ after) (before ++ l :: after)
  | line {before after : List Text} {l l' : Text} (h : LineEdit l l') :
      Edit (before ++ l :: after) (before ++ l' :: after)
  | lineFeed {before after : List Text} {l next : Text} :
      Edit (before ++ l :: next :: after) (before ++ (l ++ ['\r']) :: next :: after)

/-- **The texts differ in their layout only**: edits, done and undone, lead from one to the other. -/
def SameLayout : Text → Text → Prop := Relation.EqvGen fun t u => Edit (Text.lines t) (Text.lines u)

namespace Line

variable {a b l l' c w gap : Text}

theorem not_mark_of_blank (h : Blank gap) : '#' ∉ gap := fun hc => by
  have hblank := h '#' hc
  cases hblank

theorem gist_append_mark : gist (l ++ '#' :: c) = gist l := by
  unfold gist
  by_cases h : '#' ∈ l
  · rw [uncommented_append_mark h]
  · have hnone : uncommented ('#' :: c) = [] := rfl
    rw [uncommented_append h, uncommented_eq h, hnone, List.append_nil]

theorem gist_append_return : gist (l ++ ['\r']) = gist l := by
  unfold gist
  by_cases h : '#' ∈ l
  · rw [uncommented_append_mark h]
  · have hreturn : Blank (uncommented ['\r']) := by decide
    rw [uncommented_append h, uncommented_eq h, Text.words_append_of_blank hreturn]

theorem gist_respace (hcode : '#' ∉ a) (hgap : Blank gap) :
    gist (a ++ gap ++ b) = lowered (Text.words (a ++ gap ++ uncommented b)) := by
  unfold gist
  rw [List.append_assoc, uncommented_append hcode, uncommented_append (not_mark_of_blank hgap), List.append_assoc]

/-- The word ends where the code does, or before a blank. -/
theorem gist_token_append (hgap : Blank gap) (hw : Token w) (hend : ∀ c ∈ b.head?, ¬ Text.Plain c) :
    gist (gap ++ w ++ b) = w.map Char.toLower :: Text.words (uncommented b) := by
  unfold gist
  rw [words_around_token (not_mark_of_blank hgap) (fun c hc => hgap c (List.mem_of_getLast? hc)) hw hend,
    Text.words_eq_nil_iff.2 hgap]
  rfl

/-- **No edit of a line changes what is read of it.** -/
theorem gist_of_lineEdit (h : LineEdit l l') : gist l = gist l' := by
  cases h with
  | comment => exact gist_append_mark.symm
  | @respace a b gap gap' hcode hgap hgap' hplace =>
    rw [gist_respace hcode hgap, gist_respace hcode hgap']
    rcases hplace with ⟨hne, hne'⟩ | ha | hb
    · rw [Text.words_across hgap hne, Text.words_across hgap' hne']
    · rw [List.append_assoc, List.append_assoc, Text.words_blank_append ha, Text.words_blank_append ha,
        Text.words_blank_append hgap, Text.words_blank_append hgap']
    · rw [Text.words_append_of_blank hb, Text.words_append_of_blank hb, Text.words_append_of_blank hgap,
        Text.words_append_of_blank hgap']
  | recase hgap hw hcase hend =>
    have hsame := eq_of_beq hcase
    rw [gist_token_append hgap hw hend, gist_token_append hgap (Text.token_of_sameLetters hw hsame) hend, hsame]

end Line

variable {ls ls' : List Text} {l l' t t' : Text}

theorem gists_append (ls ls' : List Text) : gists (ls ++ ls') = gists ls ++ gists ls' := by
  unfold gists
  rw [List.map_append, List.filter_append]

theorem gists_cons_of_blank (hl : Line.gist l = []) : gists (l :: ls) = gists ls := by
  simp [gists, hl]

theorem gists_cons_congr (hl : Line.gist l = Line.gist l') (hls : gists ls = gists ls') :
    gists (l :: ls) = gists (l' :: ls') := by
  unfold gists at hls ⊢
  rw [List.map_cons, List.map_cons, hl, List.filter_cons, List.filter_cons, hls]

theorem exists_line_of_mem_gists {g : List Text} (h : g ∈ gists ls) : ∃ l ∈ ls, Line.gist l = g :=
  List.mem_map.1 (List.mem_filter.1 h).1

theorem gists_intercalate (h : ∀ l ∈ ls, '\n' ∉ l) : gists (Text.lines (['\n'].intercalate ls)) = gists ls := by
  by_cases hne : ls = []
  · rw [hne]
    rfl
  · rw [Text.lines_intercalate hne h]

/-- **No edit changes what is read of the lines.** -/
theorem gists_of_edit (h : Edit ls ls') : gists ls = gists ls' := by
  cases h with
  | blank hl => rw [gists_append, gists_append, gists_cons_of_blank (Line.gist_eq_nil.2 hl)]
  | line h => rw [gists_append, gists_append, gists_cons_congr (Line.gist_of_lineEdit h) rfl]
  | lineFeed => rw [gists_append, gists_append, gists_cons_congr Line.gist_append_return rfl]

theorem gists_of_sameLayout (h : SameLayout t t') : gists (Text.lines t) = gists (Text.lines t') := by
  induction h with
  | rel t t' h => exact gists_of_edit h
  | refl t => rfl
  | symm t t' h ih => exact ih.symm
  | trans t u t' h h' ih ih' => exact ih.trans ih'

/-! ## Assembly -/

/-- **Faults of the same kind**, which may name an operation or a header in other letters. -/
inductive SameFault : SourceFault → SourceFault → Prop
  | header {ws ws' : List Text} (h : lowered ws = lowered ws') : SameFault (.header ws) (.header ws')
  | unknownOpcode {w w' : Text} (h : Text.sameLetters w w' = true) : SameFault (.unknownOpcode w) (.unknownOpcode w')
  | argumentCount {op : Opcode} {found : Nat} : SameFault (.argumentCount op found) (.argumentCount op found)
  | argument {token : Text} {slot : Slot} : SameFault (.argument token slot) (.argument token slot)

/-- **The same result**, or errors that are of the same kind; they may be in lines with other numbers. -/
inductive Agrees {α : Type} : Except SourceError α → Except SourceError α → Prop
  | ok {a : α} : Agrees (.ok a) (.ok a)
  | error {e e' : SourceError} (h : SameFault e.fault e'.fault) : Agrees (.error e) (.error e')

theorem SameFault.refl (fault : SourceFault) : SameFault fault fault := by
  cases fault with
  | header words => exact .header rfl
  | unknownOpcode token => exact .unknownOpcode (beq_self_eq_true _)
  | argumentCount op found => exact .argumentCount
  | argument token slot => exact .argument

theorem Agrees.ok_iff {α : Type} {x y : Except SourceError α} {a : α} (h : Agrees x y) : x = .ok a ↔ y = .ok a := by
  cases h with
  | ok => exact Iff.rfl
  | error => exact iff_of_false nofun nofun

/-- **The case of an operation** shows only where it is unknown. -/
theorem instruction_agrees {order n n' : Nat} {w w' : Text} {ws : List Text}
    (h : w.map Char.toLower = w'.map Char.toLower) :
    Agrees ((instruction order w ws).mapError (SourceError.mk n))
      ((instruction order w' ws).mapError (SourceError.mk n')) := by
  unfold instruction
  rw [Opcode.ofText?_congr h]
  cases Opcode.ofText? w' with
  | none => exact .error (.unknownOpcode (beq_iff_eq.2 h))
  | some op =>
    simp only
    split
    · exact .error .argumentCount
    · split
      · exact .error (.refl _)
      · exact .ok

theorem head?_eq_dot_iff {w : Text} : (w.map Char.toLower).head? = some '.' ↔ w.head? = some '.' := by
  cases w with
  | nil => exact Iff.rfl
  | cons c w =>
    have hdot : '.'.isAlpha = false := by decide
    simp only [List.map_cons, List.head?_cons, Option.some.injEq, Text.toLower_eq_iff hdot]

/-- **A valid header is known by its gist.** -/
theorem Line.isValidHeader_iff : Line.isValidHeader l = true ↔ Line.gist l = [Source.header.map Char.toLower] := by
  unfold isValidHeader read gist
  cases Text.words (uncommented l) with
  | nil => exact iff_of_false nofun nofun
  | cons w ws =>
    rw [ofWords, lowered]
    by_cases hdot : w.head? = some '.'
    · rw [if_pos hdot]
      cases ws with
      | nil => simp [isHeader, Text.sameLetters]
      | cons v ws => simp [isHeader]
    · rw [if_neg hdot]
      refine iff_of_false Bool.false_ne_true fun h => hdot ?_
      rw [← head?_eq_dot_iff, (List.cons.inj h).1]
      rfl

variable {n n' order : Nat} {qs qs' : List (Text × Nat)}

theorem recordOfLine_eq_mapError : recordOfLine order l n = match Line.ofWords (Text.words (Line.uncommented l)) with
    | .instruction operation tokens => (instruction order operation tokens).mapError (SourceError.mk n)
    | _                             => .error ⟨n, .header (Text.words (Line.uncommented l))⟩ := by
  unfold recordOfLine Line.read
  cases Line.ofWords (Text.words (Line.uncommented l)) with
  | blank => rfl
  | header words => rfl
  | instruction operation tokens =>
    simp only
    cases instruction order operation tokens <;> rfl

/-- **A line is read as its gist says.** -/
theorem recordOfLine_agrees (h : Line.gist l = Line.gist l') :
    Agrees (recordOfLine order l n) (recordOfLine order l' n') := by
  unfold Line.gist at h
  rw [recordOfLine_eq_mapError, recordOfLine_eq_mapError]
  generalize Text.words (Line.uncommented l) = ws at h ⊢
  generalize Text.words (Line.uncommented l') = ws' at h ⊢
  cases ws with
  | nil =>
    cases ws' with
    | nil => exact .error (.header rfl)
    | cons w' ws' => cases h
  | cons w ws =>
    cases ws' with
    | nil => cases h
    | cons w' ws' =>
      obtain ⟨hw, rfl⟩ := List.cons.inj h
      have hdot : w.head? = some '.' ↔ w'.head? = some '.' := by
        rw [← head?_eq_dot_iff, hw, head?_eq_dot_iff]
      rw [Line.ofWords, Line.ofWords]
      by_cases hhead : w.head? = some '.'
      · rw [if_pos hhead, if_pos (hdot.1 hhead)]
        exact .error (.header h)
      · rw [if_neg hhead, if_neg fun h => hhead (hdot.2 h)]
        exact instruction_agrees hw

/-- **So are lines**, one after another. -/
theorem recordsOfLines_agrees : ∀ {order : Nat} {qs qs' : List (Text × Nat)},
    (qs.map fun q => Line.gist q.1) = (qs'.map fun q => Line.gist q.1) →
    Agrees (recordsOfLines order qs) (recordsOfLines order qs')
  | _, [], [], _ => .ok
  | order, (l, n) :: qs, (l', n') :: qs', h => by
    obtain ⟨hl, hqs⟩ := List.cons.inj h
    have hhead : Agrees (recordOfLine order l n) (recordOfLine order l' n') := recordOfLine_agrees hl
    have htail : Agrees (recordsOfLines (order + 1) qs) (recordsOfLines (order + 1) qs') := recordsOfLines_agrees hqs
    rw [recordsOfLines_cons, recordsOfLines_cons]
    generalize recordOfLine order l n = x at hhead ⊢
    generalize recordOfLine order l' n' = y at hhead ⊢
    generalize recordsOfLines (order + 1) qs = xs at htail ⊢
    generalize recordsOfLines (order + 1) qs' = ys at htail ⊢
    cases hhead with
    | error hfault => exact .error hfault
    | ok =>
      cases htail with
      | error hfault => exact .error hfault
      | ok => exact .ok

theorem map_contentFrom : ∀ (n : Nat) (ls : List Text), ((contentFrom n ls).map fun q => Line.gist q.1) = gists ls
  | _, [] => rfl
  | n, l :: ls => by
    by_cases hl : Line.gist l = []
    · have hread : Line.read l = .blank := by
        rw [Line.read_eq_blank, ← Bool.not_eq_true, Line.hasContent_iff, not_not]
        exact hl
      rw [contentFrom_cons_of_blank hread, gists_cons_of_blank hl, map_contentFrom]
    · have hread : Line.read l ≠ .blank := by
        rw [ne_eq, Line.read_eq_blank, Bool.not_eq_false, Line.hasContent_iff]
        exact hl
      rw [contentFrom_cons hread, List.map_cons, map_contentFrom]
      simp [gists, hl]

theorem map_headless (h : (qs.map fun q => Line.gist q.1) = (qs'.map fun q => Line.gist q.1)) :
    ((headless qs).map fun q => Line.gist q.1) = ((headless qs').map fun q => Line.gist q.1) := by
  cases qs with
  | nil =>
    cases qs' with
    | nil => rfl
    | cons q' qs' => cases h
  | cons q qs =>
    cases qs' with
    | nil => cases h
    | cons q' qs' =>
      obtain ⟨hq, hqs⟩ := List.cons.inj h
      have hvalid : Line.isValidHeader q.1 = true ↔ Line.isValidHeader q'.1 = true := by
        rw [Line.isValidHeader_iff, Line.isValidHeader_iff]
        exact Eq.congr_left hq
      rw [headless, headless]
      by_cases hheader : Line.isValidHeader q.1 = true
      · rw [if_pos hheader, if_pos (hvalid.1 hheader), hqs]
      · rw [if_neg hheader, if_neg fun h => hheader (hvalid.2 h), h]

/-- **The assembler reads the gists of the lines.** -/
theorem assemble_agrees (h : gists (Text.lines t) = gists (Text.lines t')) : Agrees (assemble t) (assemble t') := by
  have hcontent : ((content t).map fun q => Line.gist q.1) = ((content t').map fun q => Line.gist q.1) := by
    rw [content, content, map_contentFrom, map_contentFrom, h]
  rw [assemble_eq, assemble_eq]
  exact recordsOfLines_agrees (map_headless hcontent)

/-! ## Headers -/

theorem gists_cons_header (hl : Line.isValidHeader l = true) :
    gists (l :: ls) = [header.map Char.toLower] :: gists ls := by
  unfold gists
  rw [List.map_cons, Line.isValidHeader_iff.1 hl]
  rfl

/-- In a text that is assembled only the first line that counts may be a header. -/
theorem place_of_header {rs : List Record} (h : assemble t = .ok rs) {k : Nat}
    (hk : (gists (Text.lines t))[k]? = some [header.map Char.toLower]) : k = 0 := by
  rw [← map_contentFrom 1, List.getElem?_map, Option.map_eq_some_iff] at hk
  obtain ⟨⟨l, n⟩, hl, hgist⟩ := hk
  rcases exists_assemble_iff.1 ⟨rs, h⟩ k l n hl with ⟨hzero, -⟩ | ⟨order, r, hstands⟩
  · exact hzero
  · have hinstruction := Line.isInstruction_of_standsFor hstands
    rw [Line.not_isInstruction_of_isValidHeader (Line.isValidHeader_iff.2 hgist)] at hinstruction
    cases hinstruction

/-- **A header in front of lines** that have none makes no difference. -/
theorem agrees_of_header (h : gists (Text.lines t) = [header.map Char.toLower] :: gists (Text.lines t'))
    (hnone : (gists (Text.lines t'))[0]? ≠ some [header.map Char.toLower]) : Agrees (assemble t) (assemble t') := by
  rw [← map_contentFrom 1 (Text.lines t), List.map_eq_cons_iff] at h
  obtain ⟨q, qs, hcontent, hq, hqs⟩ := h
  have hfirst : headless (content t') = content t' := by
    rw [← map_contentFrom 1 (Text.lines t')] at hnone
    change ((content t').map fun q => Line.gist q.1)[0]? ≠ _ at hnone
    cases hcontent' : content t' with
    | nil => rfl
    | cons q' qs' =>
      rw [hcontent'] at hnone
      exact if_neg fun hvalid => hnone (congrArg some (Line.isValidHeader_iff.1 hvalid))
  rw [assemble_eq, assemble_eq, hfirst, content, hcontent, headless, if_pos (Line.isValidHeader_iff.2 hq)]
  exact recordsOfLines_agrees (hqs.trans (map_contentFrom 1 _).symm)

/-- **Assembly ignores layout.**  Texts that differ in blank lines, comments, the blanks around words,
the case of the first words of lines, and carriage returns in front of line feeds, are assembled into
the same records, or both are not, for faults of the same kind.  And a text that is assembled may be given
a header in front if it has none, and its header may be taken out. -/
theorem layout_ignored :
    (∀ t t', SameLayout t t' → Agrees (assemble t) (assemble t')) ∧
    (∀ t l rs, assemble t = .ok rs → (∀ k ∈ Text.lines t, Line.isValidHeader k = false) →
      Line.isValidHeader l = true → '\n' ∉ l → assemble (l ++ '\n' :: t) = .ok rs) ∧
    ∀ t before l after rs, assemble t = .ok rs → Text.lines t = before ++ l :: after → Line.isValidHeader l = true →
      assemble (['\n'].intercalate (before ++ after)) = .ok rs := by
  refine ⟨fun t t' h => assemble_agrees (gists_of_sameLayout h), fun t l rs h hnone hl hfeed => ?_,
    fun t before l after rs h hlines hl => ?_⟩
  · have hgists : gists (Text.lines (l ++ '\n' :: t)) = [header.map Char.toLower] :: gists (Text.lines t) := by
      rw [Text.lines_append hfeed, gists_cons_header hl]
    refine (agrees_of_header hgists fun hfirst => ?_).ok_iff.2 h
    obtain ⟨k, hk, hgist⟩ := exists_line_of_mem_gists (List.mem_of_getElem? hfirst)
    exact Bool.noConfusion ((hnone k hk).symm.trans (Line.isValidHeader_iff.2 hgist))
  · have hgists : gists (Text.lines t) = gists before ++ [header.map Char.toLower] :: gists after := by
      rw [hlines, gists_append, gists_cons_header hl]
    have hbefore : gists before = [] := by
      refine List.length_eq_zero_iff.1 (place_of_header h ?_)
      rw [hgists, List.getElem?_append_right (Nat.le_refl _), Nat.sub_self]
      rfl
    have hfeed : ∀ k ∈ before ++ after, '\n' ∉ k := by
      intro k hk
      have hmem : k ∈ Text.lines t := by
        rw [hlines, List.mem_append]
        exact (List.mem_append.1 hk).imp_right (List.mem_cons_of_mem l)
      exact Text.lineFeed_not_mem_of_mem_lines hmem
    have hafter : gists (Text.lines (['\n'].intercalate (before ++ after))) = gists after := by
      rw [gists_intercalate hfeed, gists_append, hbefore, List.nil_append]
    rw [hbefore, List.nil_append, ← hafter] at hgists
    refine (agrees_of_header hgists fun hfirst => ?_).ok_iff.1 h
    have hone : (gists (Text.lines t))[1]? = some [header.map Char.toLower] := by
      rw [hgists, List.getElem?_cons_succ, hfirst]
    exact Nat.one_ne_zero (place_of_header h hone)

/-- An operation in other letters, a comment line and a carriage return; and a header put in front and
taken out again. -/
theorem layout_ignored_of_edits :
    let t : Text := "Write int@1\nBREAK"
    let u : Text := "write int@1\r\n\t# one\nBREAK"
    let rs : List Record := [⟨1, "WRITE", [⟨1, "int", "1"⟩]⟩, ⟨2, "BREAK", []⟩]
    let l : Text := " .ippCODE24 # header"
    let after : List Text := ["Write int@1", "BREAK"]
    SameLayout t u ∧ assemble t = .ok rs ∧ Agrees (assemble t) (assemble u) ∧ assemble (l ++ '\n' :: t) = .ok rs ∧
      assemble (['\n'].intercalate ([] ++ after)) = .ok rs := by
  intro t u rs l after
  have ht : Text.lines t = [([] : Text) ++ "Write" ++ " int@1", "BREAK"] := by decide +kernel
  have hrecased : Text.lines "write int@1\nBREAK" = [([] : Text) ++ "write" ++ " int@1", "BREAK"] := by decide +kernel
  have hreturned : Text.lines "write int@1\r\nBREAK" = [([] : Text) ++ "write" ++ " int@1" ++ ['\r'], "BREAK"] := by
    decide +kernel
  have hu : Text.lines u = [([] : Text) ++ "write" ++ " int@1" ++ ['\r'], "\t# one", "BREAK"] := by decide +kernel
  have hend : ∀ c ∈ (" int@1" : Text).head?, ¬ Text.Plain c := by
    have hspace : (" int@1" : Text).head? = some ' ' := by decide +kernel
    rw [hspace]
    rintro c ⟨⟩
    decide
  have hrecase : LineEdit (([] : Text) ++ "Write" ++ " int@1") (([] : Text) ++ "write" ++ " int@1") :=
    .recase (by decide) (by decide +kernel) (by decide +kernel) hend
  have hcase : Edit (Text.lines t) (Text.lines "write int@1\nBREAK") := by
    rw [ht, hrecased]
    exact @Edit.line [] ["BREAK"] _ _ hrecase
  have hreturn : Edit (Text.lines "write int@1\nBREAK") (Text.lines "write int@1\r\nBREAK") := by
    rw [hrecased, hreturned]
    exact @Edit.lineFeed [] [] _ "BREAK"
  have hblank : Edit (Text.lines "write int@1\r\nBREAK") (Text.lines u) := by
    rw [hreturned, hu]
    exact @Edit.blank [_] ["BREAK"] "\t# one" (by decide +kernel)
  have hsame : SameLayout t u := .trans _ _ _ (.rel _ _ hcase) (.trans _ _ _ (.rel _ _ hreturn) (.rel _ _ hblank))
  have hassemble : assemble t = .ok rs := by decide +kernel
  have hl : Line.isValidHeader l = true := by decide +kernel
  have hlines : Text.lines (l ++ '\n' :: t) = [] ++ l :: after := by decide +kernel
  have hheader := layout_ignored.2.1 t l rs hassemble (by decide +kernel) hl (by decide +kernel)
  exact ⟨hsame, hassemble, layout_ignored.1 t u hsame, hheader,
    layout_ignored.2.2 (l ++ '\n' :: t) [] l after rs hheader hlines hl⟩

end Source

end IppCode
