import IppCode.Proofs.Assembled
import IppCode.Proofs.Commands
import IppCode.Proofs.Serialized
/-!
# Precompiled — programs assembled ahead of time

A text has no more instructions than bytes, so the numbers that the assembler gives fit a 64-bit
word (`fitsWords_of_assemble`) and the records are read back from the file that they are
written to (`read_assembled`).  Loading looks at the records only, so that file is loaded as
the text is, also when it is refused, and every command makes the same of both
(`assemble_ahead`).
-/
namespace IppCode

/-! ## How many records a text has -/

/-- The pieces of a text are made of its characters. -/
theorem Text.length_flatten_pieces_le (sep : Char → Bool) : ∀ t : Text, (pieces sep t).flatten.length ≤ t.length
  | [] => Nat.le_refl 0
  | c :: r => by
    have hr := length_flatten_pieces_le sep r
    unfold pieces
    split
    · exact Nat.le_succ_of_le hr
    · split
      · exact Nat.succ_le_succ (Nat.zero_le _)
      · rename_i p ps hp
        rw [hp] at hr
        exact Nat.succ_le_succ hr

/-- A character takes at least one byte. -/
theorem Utf8.length_le_length_encode : ∀ t : Text, t.length ≤ (encode t).length
  | [] => Nat.zero_le _
  | c :: t => by
    have hlength (t : Text) : (encode t).length = (List.utf8Encode t).size := by simp [encode]
    have ht := length_le_length_encode t
    have hc : 0 < [c].utf8Encode.size := by
      rw [List.utf8Encode_singleton, List.size_toByteArray, String.length_utf8EncodeChar]
      exact c.utf8Size_pos
    rw [hlength] at ht
    rw [hlength, List.utf8Encode_cons, ByteArray.size_append, List.length_cons]
    omega

namespace Source

variable {rs : List Record}

/-- Lines that are not empty are no more than their characters. -/
theorem length_filter_le_length_flatten {p : Text → Bool} (hp : p [] = false) :
    ∀ ls : List Text, (ls.filter p).length ≤ ls.flatten.length
  | [] => Nat.le_refl 0
  | l :: ls => by
    have hls := length_filter_le_length_flatten hp ls
    rw [List.flatten_cons, List.length_append, List.filter_cons]
    split
    · rename_i hl
      have hpos : 0 < l.length := by
        cases l with
        | nil => cases hp.symm.trans hl
        | cons c l => exact Nat.succ_pos _
      rw [List.length_cons]
      omega
    · omega

/-- Every record takes a line, and one that is not empty. -/
theorem length_le_of_assemble {t : Text} (h : assemble t = .ok rs) : rs.length ≤ t.length := by
  have hrecords : rs.length = (instructionLines t).length := by
    rw [← (records_of_assemble h).length_eq, List.length_zipIdx]
  rw [hrecords]
  exact Nat.le_trans (length_filter_le_length_flatten rfl _) (Text.length_flatten_pieces_le _ t)

/-- **What is assembled can be written as JSON**: orders count the records, and slots are at most
three. -/
theorem fitsWords_of_assemble {t : Text} (h : assemble t = .ok rs) (hsize : Numeral.FitsWord t.length) :
    ∀ r ∈ rs, r.FitsWords := by
  obtain ⟨hcounts, hloadable⟩ := loadable_of_assembleLines h
  have hlength := length_le_of_assemble h
  unfold Numeral.FitsWord at hsize
  intro r hr
  refine ⟨?_, fun a ha => ?_⟩
  · have horder : r.order ∈ (List.range' 1 rs.length).map Int.ofNat := by
      rw [← hcounts.map_key]
      exact List.mem_map_of_mem hr
    have hrange := Verify.mem_range.1 horder
    unfold Numeral.FitsWord
    omega
  · obtain ⟨k, hk, hperm⟩ := Verify.slotted_iff.1 (hloadable r hr).slotted
    have hrange := Verify.mem_range.1 (hperm.mem_iff.1 (List.mem_map_of_mem ha))
    unfold Numeral.FitsWord
    omega

end Source

/-- The line of JSON that is written for a text is read to the records of the text. -/
theorem Format.read_assembled {t : Text} {rs : List Record} (h : Source.assemble t = .ok rs)
    (hsize : Numeral.FitsWord t.length) : Format.json.read (Json.writeRecords rs ++ ['\n']) = .ok rs := by
  simp only [read, Json.readRecords_line (Source.fitsWords_of_assemble h hsize)]

/-- **The line is loaded as the text is**, whether there is a program in it or not. -/
theorem Program.load_assembled {t : Text} {rs : List Record} (h : Source.assemble t = .ok rs)
    (hsize : Numeral.FitsWord t.length) : load .json (Json.writeRecords rs ++ ['\n']) = load .text t := by
  have htext : Format.text.read t = .ok rs := by
    simp only [Format.read, h]
  exact load_congr (Format.read_assembled h hsize) htext

namespace Cli

/-- The files after a command: the one that it has written has what was written. -/
def Environment.after (env : Environment) (r : Report) : Environment :=
  match r.written with
  | none           => env
  | some (path, t) => { env with file := fun p => if p = path then .contents (Utf8.encode t) else env.file p }

variable {env : Environment} {source target path t : Text} {f : Format} {r : Report} {rs : List Record}

theorem after_of_not_written (h : r.written = none) : env.after r = env := by
  simp only [Environment.after, h]

theorem file_after (h : r.written = some (target, t)) : (env.after r).file path =
    if path = target then .contents (Utf8.encode t) else env.file path := by
  simp only [Environment.after, h]

theorem assemble_of_error {out : Option Text} {e : SourceError} (hread : env.readText source = .ok t)
    (h : Source.assemble t = .error e) : assemble env ⟨source, f, out⟩ = .error (.failure e.kind e.message) := by
  simp only [assemble, hread, h, bind, Except.bind]
  rfl

theorem assemble_of_ok (hread : env.readText source = .ok t) (h : Source.assemble t = .ok rs)
    (hwritable : env.blocked? target = none) : ∃ r, assemble env ⟨source, f, some target⟩ = .ok r ∧ r.code = 0 ∧
      r.written = some (target, Json.writeRecords rs ++ ['\n']) := by
  simp only [assemble, hread, h, hwritable, bind, Except.bind]
  exact ⟨_, rfl, rfl, rfl⟩

/-- **Two files have one program in them**, the first as text and the second as JSON: commands with
otherwise the same options are reported alike, except that `check` names the file. -/
structure SameProgram (env : Environment) (source target : Text) : Prop where
  run : ∀ (steps : Nat) (o : RunOptions) (args args' : List Text),
    runOptions ⟨none, none, none, none⟩ args = .ok { o with source := some source, format := some .text } →
    runOptions ⟨none, none, none, none⟩ args' = .ok { o with source := some target, format := some .json } →
    report steps env ("run" :: args') = report steps env ("run" :: args)
  disassemble : ∀ steps args args',
    fileOptions false args = .ok ⟨source, .text, none⟩ → fileOptions false args' = .ok ⟨target, .json, none⟩ →
    report steps env ("disassemble" :: args') = report steps env ("disassemble" :: args)
  check : ∀ steps args args',
    fileOptions false args = .ok ⟨source, .text, none⟩ → fileOptions false args' = .ok ⟨target, .json, none⟩ →
    ∃ r r', report steps env ("check" :: args) = some r ∧ report steps env ("check" :: args') = some r' ∧
      r'.code = r.code ∧ r'.stderr = r.stderr ∧
      (r'.stdout = r.stdout ∨ ∃ p, r.stdout = checkedLine source p ∧ r'.stdout = checkedLine target p)

/-- What is loaded from the one file has to be loaded from the other, or refused in the same words. -/
theorem sameProgram_of_loadFile (h : loadFile env .json target = loadFile env .text source) :
    SameProgram env source target where
  run steps o args args' hargs hargs' := by
    have hsetup : runSetup env { o with source := some target, format := some .json } =
        runSetup env { o with source := some source, format := some .text } := by
      rw [runSetup_of_source rfl, runSetup_of_source rfl]
      simp only [Option.getD_some, h]
      rfl
    rw [report_of_ofArgs steps env (ofArgs_run hargs), report_of_ofArgs steps env (ofArgs_run hargs')]
    simp only [Command.report, Cli.run, hsetup]
  disassemble steps args args' hargs hargs' := by
    rw [report_of_ofArgs steps env (ofArgs_disassemble hargs), report_of_ofArgs steps env (ofArgs_disassemble hargs')]
    simp only [Command.report]
    cases hfile : loadFile env .text source with
    | ok p => rw [disassemble_of_ok hfile, disassemble_of_ok (h.trans hfile)]
    | error r => rw [disassemble_of_error hfile, disassemble_of_error (h.trans hfile)]
  check steps args args' hargs hargs' := by
    rw [report_of_ofArgs steps env (ofArgs_check hargs), report_of_ofArgs steps env (ofArgs_check hargs')]
    simp only [Command.report]
    cases hfile : loadFile env .text source with
    | ok p =>
      rw [check_of_ok hfile, check_of_ok (h.trans hfile)]
      exact ⟨_, _, rfl, rfl, rfl, rfl, .inr ⟨p, rfl, rfl⟩⟩
    | error r =>
      rw [check_of_error hfile, check_of_error (h.trans hfile)]
      exact ⟨r, r, rfl, rfl, rfl, rfl, .inl rfl⟩

/-- **Assembling ahead of time changes nothing.**  Let a file have a text in it, in fewer bytes than
a 64-bit word can count, and let another one be writable.  If the text is not assembled, the
command that should write it to the other file exits with the code of the error and leaves all
files as they are.  Otherwise it succeeds and leaves all but the other file as they are, and
from then on, for as long as these two stay as they are, there is the same program in both: with
whatever input and options, and also if the program is refused. -/
theorem assemble_ahead {bytes : Utf8.Bytes} {args : List Text} (env : Environment) (steps : Nat)
    (hfile : env.file source = .contents bytes) (htext : Utf8.decode? bytes = some t)
    (hsize : Numeral.FitsWord bytes.length) (hwritable : env.blocked? target = none) (hother : target ≠ source)
    (hargs : fileOptions true args = .ok ⟨source, f, some target⟩) :
    (∀ e, Source.assemble t = .error e → ∃ r, report steps env ("assemble" :: args) = some r ∧
      r.code = e.kind.exitCode ∧ env.after r = env) ∧
    ∀ rs, Source.assemble t = .ok rs → ∃ r, report steps env ("assemble" :: args) = some r ∧ r.code = 0 ∧
      (∀ path, path ≠ target → (env.after r).file path = env.file path) ∧
      ∀ later : Environment, later.file source = (env.after r).file source →
        later.file target = (env.after r).file target → SameProgram later source target := by
  have hread := readText_of_contents hfile htext
  rw [report_of_ofArgs steps env (ofArgs_assemble hargs)]
  simp only [Command.report]
  refine ⟨fun e he => ?_, fun rs hrs => ?_⟩
  · rw [assemble_of_error hread he]
    exact ⟨_, rfl, rfl, after_of_not_written rfl⟩
  · obtain ⟨r, hr, hcode, hwritten⟩ := assemble_of_ok (f := f) hread hrs hwritable
    rw [hr]
    refine ⟨r, rfl, hcode, fun path hpath => ?_, fun later hsource htarget => ?_⟩
    · rw [file_after hwritten, if_neg hpath]
    · rw [file_after hwritten, if_neg hother.symm, hfile] at hsource
      rw [file_after hwritten, if_pos rfl] at htarget
      have hlength : t.length ≤ bytes.length := by
        rw [← Utf8.encode_of_decode htext]
        exact Utf8.length_le_length_encode t
      have hfits : Numeral.FitsWord t.length := by
        unfold Numeral.FitsWord at hsize ⊢
        omega
      refine sameProgram_of_loadFile ?_
      simp only [loadFile, readText_of_contents hsource htext,
        readText_of_contents htarget (Utf8.decode_encode _), load, Program.load_assembled hrs hfits, bind, Except.bind]

/-- A text that is not assembled, and one whose labels clash. -/
theorem assemble_ahead_clash :
    let env (t : Text) : Environment := ⟨fun _ => .contents (Utf8.encode t), [], fun _ => none, ⟨id, id⟩⟩
    let short : Text := "ADD"
    let clash : Text := "LABEL a\nLABEL a"
    let args : List Text := ["p", "-o", "q"]
    let runText : List Text := ["run", "--source=p", "--input=q", "--format=text"]
    let runJson : List Text := ["run", "--source=q", "--input=q", "--format=json"]
    (∃ r, report 0 (env short) ("assemble" :: args) = some r ∧ r.code = 31 ∧ (env short).after r = env short) ∧
    ∃ r, report 0 (env clash) ("assemble" :: args) = some r ∧ r.code = 0 ∧ ∀ steps,
      report steps ((env clash).after r) runJson = report steps ((env clash).after r) runText := by
  intro env short clash args runText runJson
  have hargs : fileOptions true args = .ok ⟨"p", formatOf "p", some "q"⟩ := fileOptions_target (by decide) "q"
  have hshort : Source.assemble short = .error ⟨1, .argumentCount .add 0⟩ := by decide +kernel
  have hclash : Source.assemble clash =
      .ok [⟨1, "LABEL", [⟨1, "label", "a"⟩]⟩, ⟨2, "LABEL", [⟨1, "label", "a"⟩]⟩] := by decide +kernel
  obtain ⟨hfails, -⟩ := assemble_ahead (env short) 0 rfl (Utf8.decode_encode short) (by decide +kernel) rfl
    (by decide) hargs
  obtain ⟨-, hassembles⟩ := assemble_ahead (env clash) 0 rfl (Utf8.decode_encode clash) (by decide +kernel) rfl
    (by decide) hargs
  obtain ⟨r, hr, hcode, -, hsame⟩ := hassembles _ hclash
  have hprogram := hsame ((env clash).after r) rfl rfl
  refine ⟨hfails _ hshort, r, hr, hcode, fun steps => ?_⟩
  exact hprogram.run steps ⟨none, some "q", none, none⟩ runText.tail runJson.tail
    (runOptions_source "p" "q" (some .text)) (runOptions_source "q" "q" (some .json))

end Cli

end IppCode
