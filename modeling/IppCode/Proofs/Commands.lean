import IppCode.Cli.Report
import IppCode.Proofs.Actions
import IppCode.Proofs.Agreement
/-!
# Commands — what the commands make of one program

All commands on a program read the file, load it and, if that fails, report it in the same way
(`loadFile`); a run opens its input then and gets under way (`Starts`), since the labels of a
program that is loaded are fine (`exists_machine_of_load`), and is reported as its machine comes
out (`run_of_starts`).  So a program that can be checked can be disassembled and run, and one
that cannot is refused by all three in the same words (`commands_agree`).
-/
namespace IppCode

theorem Text.after?_append (start t : Text) : after? start (start ++ t) = some t := by
  have h : start.isPrefixOf (start ++ t) = true := List.isPrefixOf_iff_prefix.2 (List.prefix_append start t)
  unfold after?
  rw [if_pos h, List.drop_left]

theorem Text.after?_eq_none {c : Char} {start t : Text} (h : t.head? ≠ some c) : after? (c :: start) t = none := by
  unfold after?
  rw [if_neg]
  cases t with
  | nil => exact Bool.false_ne_true
  | cons d t =>
    intro hprefix
    obtain ⟨r, hr⟩ := List.isPrefixOf_iff_prefix.1 hprefix
    cases hr
    exact h rfl

/-! ## Loading -/

namespace Program

variable {f : Format} {t : Text} {p : Program}

theorem load_eq_ok : load f t = .ok p ↔ ∃ rs, f.read t = .ok rs ∧ verify rs = [] ∧ ofRecords rs = .ok p := by
  unfold load
  cases f.read t with
  | error e => simp
  | ok rs =>
    cases hverify : verify rs with
    | cons first rest => simp [hverify]
    | nil => cases hbind : ofRecords rs <;> simp [hverify, hbind]

theorem load_eq_error {e : LoadError} : load f t = .error e ↔
    (∃ why, f.read t = .error why ∧ e = .read why) ∨ ∃ rs, f.read t = .ok rs ∧
      ((∃ first rest, verify rs = first :: rest ∧ e = .verify first rest) ∨
        verify rs = [] ∧ ∃ why, ofRecords rs = .error why ∧ e = .bind why) := by
  unfold load
  cases f.read t with
  | error why => simp [eq_comm]
  | ok rs =>
    cases hverify : verify rs with
    | cons first rest => simp [hverify, eq_comm]
    | nil => cases hbind : ofRecords rs <;> simp [hverify, hbind, eq_comm]

/-- Loading looks only at the records that have been read. -/
theorem load_congr {f' : Format} {t' : Text} {rs : List Record} (h : f.read t = .ok rs) (h' : f'.read t' = .ok rs) :
    load f t = load f' t' := by
  simp only [load, h, h']

theorem exists_labels_of_load (h : load f t = .ok p) : ∃ labels, Labels.ofProgram p = .ok labels := by
  obtain ⟨rs, -, hverify, hbind⟩ := load_eq_ok.1 h
  obtain ⟨-, hslots, hnodup⟩ := verify_eq_nil.1 hverify
  have hagrees : Verify.Agrees (Sort.ascending (fun q => q.1.order) rs.zipIdx) 0 (Verify.labelErrors rs)
      (Labels.ofProgram p) := Verify.agrees_of_bound (bound_of_records hbind hslots) (by simp)
  exact hagrees.eq_nil_iff.1 (Verify.labelErrors_eq_nil.2 hnodup)

/-- **What has been loaded can be run.** -/
theorem exists_machine_of_load (h : load f t = .ok p) (limit : Option Nat) (sink : Sink) :
    ∃ m, Machine.load p limit sink = .ok m := by
  obtain ⟨labels, hlabels⟩ := exists_labels_of_load h
  exact ⟨_, Machine.load_eq_ok.2 ⟨labels, hlabels, rfl⟩⟩

end Program

namespace Cli

/-! ## Arguments -/

/-- The name of a format on the command line. -/
def formatName : Format → Text
  | .text => "text"
  | .json => "json"
  | .xml  => "xml"

theorem formatNamed?_formatName (f : Format) : formatNamed? (formatName f) = some f := by
  cases f <;> decide

/-- The argument that names a format, or none. -/
def formatArgs : Option Format → List Text
  | none   => []
  | some f => ["--format=" ++ formatName f]

/-- **The arguments of a run of one program**: the names of its file and of its input, and possibly
a format. -/
theorem runOptions_source (path input : Text) (f : Option Format) : runOptions ⟨none, none, none, none⟩
    (("--source=" ++ path) :: ("--input=" ++ input) :: formatArgs f) = .ok ⟨some path, some input, f, none⟩ := by
  have hsource (o : RunOptions) : runOption o ("--source=" ++ path) = .ok { o with source := some path } := by
    simp only [runOption, Text.after?_append]
  have hinput (o : RunOptions) : runOption o ("--input=" ++ input) = .ok { o with input := some input } := by
    have hnot : Text.after? "--source=" ("--input=" ++ input) = none := rfl
    simp only [runOption, hnot, Text.after?_append]
  cases f with
  | none =>
    simp only [formatArgs, runOptions, hsource, hinput, Option.isNone_some, Bool.and_self, Bool.false_eq_true, if_false]
  | some f =>
    have hformat (o : RunOptions) : runOption o ("--format=" ++ formatName f) = .ok { o with format := some f } := by
      cases f <;> rfl
    simp only [formatArgs, runOptions, hsource, hinput, hformat, Option.isNone_some, Bool.and_self, Bool.false_eq_true,
      if_false]

section FileDraft

variable {hasTarget : Bool} {d : FileDraft} {args : List Text}

theorem fileDraft_format (f : Format) : fileDraft hasTarget d (("--format=" ++ formatName f) :: args) =
    fileDraft hasTarget { d with format := some f } args := by
  rw [fileDraft.eq_def]
  simp only [Text.after?_append, formatNamed?_formatName]

/-- A name that is no option is the file's, if there was none before. -/
theorem fileDraft_path {path : Text} (hname : path.head? ≠ some '-') (hnone : d.path = none) :
    fileDraft hasTarget d (path :: args) = fileDraft hasTarget { d with path := some path } args := by
  have hafter : Text.after? "--format=" path = none := Text.after?_eq_none hname
  have htarget : path ≠ "-o" := by
    rintro rfl
    exact hname (by decide)
  rw [fileDraft.eq_def]
  simp only [hafter, htarget, hname, hnone, decide_false, Bool.false_and, Bool.false_eq_true, if_false,
    Option.isNone_none, if_true]

theorem fileDraft_target (target : Text) :
    fileDraft true d ("-o" :: target :: args) = fileDraft true { d with target := some target } args := by
  rw [fileDraft.eq_def]
  rfl

/-- **The arguments of a command on one file**: its name, and possibly a format, before or after. -/
theorem fileOptions_eq_ok (hasTarget : Bool) {path : Text} {f : Option Format} (hname : path.head? ≠ some '-')
    (hargs : args = path :: formatArgs f ∨ args = formatArgs f ++ [path]) :
    fileOptions hasTarget args = .ok ⟨path, f.getD (formatOf path), none⟩ := by
  have hdraft : fileDraft hasTarget ⟨none, none, none⟩ args = .ok ⟨some path, f, none⟩ := by
    cases f with
    | none =>
      obtain rfl : args = [path] := hargs.elim id id
      rw [fileDraft_path hname rfl]
      rfl
    | some f =>
      rcases hargs with rfl | rfl
      · rw [fileDraft_path hname rfl, formatArgs, fileDraft_format]
        rfl
      · rw [formatArgs, List.singleton_append, fileDraft_format, fileDraft_path hname rfl]
        rfl
  simp only [fileOptions, hdraft]

/-- The arguments of a command that writes to another file. -/
theorem fileOptions_target {path : Text} (hname : path.head? ≠ some '-') (target : Text) :
    fileOptions true [path, "-o", target] = .ok ⟨path, formatOf path, some target⟩ := by
  have hdraft : fileDraft true ⟨none, none, none⟩ [path, "-o", target] = .ok ⟨some path, none, some target⟩ := by
    rw [fileDraft_path hname rfl, fileDraft_target]
    rfl
  simp only [fileOptions, hdraft]
  rfl

end FileDraft

section Report

variable {args : List Text}

theorem report_of_ofArgs (steps : Nat) (env : Environment) {c : Command} (h : Command.ofArgs args = .ok c) :
    report steps env args = c.report steps env := by
  simp only [report, h]

theorem ofArgs_run {o : RunOptions} (h : runOptions ⟨none, none, none, none⟩ args = .ok o) :
    Command.ofArgs ("run" :: args) = .ok (.run o) := by
  rw [Command.ofArgs, if_pos rfl, h]
  rfl

theorem ofArgs_check {o : FileOptions} (h : fileOptions false args = .ok o) :
    Command.ofArgs ("check" :: args) = .ok (.check o) := by
  rw [Command.ofArgs, if_neg (by decide), if_pos rfl, h]
  rfl

theorem ofArgs_assemble {o : FileOptions} (h : fileOptions true args = .ok o) :
    Command.ofArgs ("assemble" :: args) = .ok (.assemble o) := by
  rw [Command.ofArgs, if_neg (by decide), if_neg (by decide), if_pos rfl, h]
  rfl

theorem ofArgs_disassemble {o : FileOptions} (h : fileOptions false args = .ok o) :
    Command.ofArgs ("disassemble" :: args) = .ok (.disassemble o) := by
  rw [Command.ofArgs, if_neg (by decide), if_neg (by decide), if_neg (by decide), if_pos rfl, h]
  rfl

end Report

/-! ## Reports of a program that is not loaded -/

/-- The program in a file, or the report that there is none. -/
def loadFile (env : Environment) (f : Format) (path : Text) : Except Report Program := do
  load env.wording f (← env.readText path)

section Load

variable {env : Environment} {w : Wording} {f : Format} {path t : Text} {p : Program} {r : Report}

theorem load_eq_ok : load w f t = .ok p ↔ Program.load f t = .ok p := by
  unfold load
  cases Program.load f t <;> simp

theorem readText_of_contents {bytes : Utf8.Bytes} (hfile : env.file path = .contents bytes)
    (htext : Utf8.decode? bytes = some t) : env.readText path = .ok t := by
  simp only [Environment.readText, hfile, textOf, htext]

/-- **Nothing has been done**: nothing is on standard output or in a file, and the exit code is
that of an error. -/
structure Report.Refuses (r : Report) (kind : ErrorKind) : Prop where
  code    : r.code = kind.exitCode
  stdout  : r.stdout = []
  written : r.written = none

theorem Report.Refuses.code_ne_zero {kind : ErrorKind} (h : r.Refuses kind) : r.code ≠ 0 := by
  have hcode := kind.nine_lt_exitCode
  rw [h.code]
  omega

theorem refuses_of_readText (h : env.readText path = .error r) : r.Refuses .inputFile := by
  unfold Environment.readText at h
  cases hfile : env.file path with
  | unreadable opens why =>
    simp only [hfile] at h
    cases h
    exact ⟨rfl, rfl, rfl⟩
  | contents bytes =>
    simp only [hfile] at h
    split at h
    · cases h
    · cases h
      exact ⟨rfl, rfl, rfl⟩

theorem load_eq_error : load w f t = .error r ↔ ∃ e, Program.load f t = .error e ∧
    r = ⟨e.kind.exitCode, [], (e.messages w).flatMap Report.errorLine, none⟩ := by
  unfold load
  cases Program.load f t <;> simp [eq_comm]

theorem loadFile_eq_ok : loadFile env f path = .ok p ↔ ∃ t, env.readText path = .ok t ∧ Program.load f t = .ok p := by
  unfold loadFile
  rw [except_bind_eq_ok]
  simp only [load_eq_ok]

theorem refuses_of_loadFile (h : loadFile env f path = .error r) : ∃ kind, r.Refuses kind := by
  unfold loadFile at h
  cases hread : env.readText path with
  | error r' =>
    rw [hread] at h
    cases h
    exact ⟨_, refuses_of_readText hread⟩
  | ok t =>
    rw [hread] at h
    obtain ⟨e, -, rfl⟩ := load_eq_error.1 h
    exact ⟨e.kind, rfl, rfl, rfl⟩

end Load

/-! ## What the commands make of a program that is loaded -/

section Commands

variable {env : Environment} {f : Format} {path : Text} {target : Option Text} {p : Program} {r : Report}
  {o : RunOptions} {input : Input} {m : Machine} {steps : Nat}

/-- What is said of a program that has been checked. -/
def checkedLine (path : Text) (p : Program) : Text :=
  Report.line ("OK: " ++ path ++ " (" ++ Numeral.ofNat p.instructions.length ++ " instructions)")

theorem check_of_ok (h : loadFile env f path = .ok p) :
    check env ⟨path, f, target⟩ = .ok ⟨0, checkedLine path p, [], none⟩ := by
  obtain ⟨t, hread, hload⟩ := loadFile_eq_ok.1 h
  obtain ⟨labels, hlabels⟩ := Program.exists_labels_of_load hload
  simp only [check, hread, load_eq_ok.2 hload, hlabels, bind, Except.bind]
  rfl

/-- A command that begins with loading a file fails if that does. -/
theorem bind_of_loadFile_error {k : Program → Except Report Report} (h : loadFile env f path = .error r) :
    (do k (← load env.wording f (← env.readText path))) = Except.error r := by
  rw [← bind_assoc]
  change loadFile env f path >>= _ = _
  rw [h]
  rfl

theorem check_of_error (h : loadFile env f path = .error r) : check env ⟨path, f, target⟩ = .error r :=
  bind_of_loadFile_error h

theorem disassemble_of_ok (h : loadFile env f path = .ok p) :
    disassemble env ⟨path, f, target⟩ = .ok ⟨0, Source.disassemble p, [], none⟩ := by
  obtain ⟨t, hread, hload⟩ := loadFile_eq_ok.1 h
  simp only [disassemble, hread, load_eq_ok.2 hload, bind, Except.bind]
  rfl

theorem disassemble_of_error (h : loadFile env f path = .error r) :
    disassemble env ⟨path, f, target⟩ = .error r :=
  bind_of_loadFile_error h

theorem runSetup_eq_ok : runSetup env o = .ok (p, input) ↔
    ∃ t f, runSource env o = .ok (t, f) ∧ Program.load f t = .ok p ∧ runInput env o = .ok input := by
  unfold runSetup
  rw [except_bind_eq_ok]
  constructor
  · rintro ⟨⟨t, f⟩, hsource, hrest⟩
    obtain ⟨p', hload, hrest⟩ := except_bind_eq_ok.1 hrest
    obtain ⟨input', hinput, hpair⟩ := except_bind_eq_ok.1 hrest
    cases hpair
    exact ⟨t, f, hsource, load_eq_ok.1 hload, hinput⟩
  · rintro ⟨t, f, hsource, hload, hinput⟩
    exact ⟨(t, f), hsource, except_bind_eq_ok.2 ⟨p, load_eq_ok.2 hload, except_bind_eq_ok.2 ⟨input, hinput, rfl⟩⟩⟩

theorem runSetup_of_load_error {t : Text} (hsource : runSource env o = .ok (t, f))
    (h : load env.wording f t = .error r) : runSetup env o = .error r := by
  simp only [runSetup, hsource, h, bind, Except.bind]

theorem runSetup_of_input_error {t : Text} (hsource : runSource env o = .ok (t, f)) (hload : Program.load f t = .ok p)
    (h : runInput env o = .error r) : runSetup env o = .error r := by
  simp only [runSetup, hsource, load_eq_ok.2 hload, h, bind, Except.bind]

/-- A run of a program in a file begins with loading it. -/
theorem runSetup_of_source (hsource : o.source = some path) : runSetup env o = do
    let p ← loadFile env (o.format.getD (formatOf path)) path
    let input ← runInput env o
    return (p, input) := by
  simp only [runSetup, runSource, hsource, loadFile]
  cases env.readText path <;> rfl

/-- **A run gets under way**: its source has been read and the program in it loaded, its input is
open, and this is the machine for the program. -/
def Starts (env : Environment) (o : RunOptions) (m : Machine) (input : Input) : Prop :=
  ∃ t f p, runSource env o = .ok (t, f) ∧ Program.load f t = .ok p ∧ runInput env o = .ok input ∧
    Machine.load p o.limit .unbounded = .ok m

/-- A program that can be loaded is started as soon as its input is open. -/
theorem exists_starts {t : Text} (hsource : runSource env o = .ok (t, f)) (hload : Program.load f t = .ok p)
    (hinput : runInput env o = .ok input) : ∃ m, Starts env o m input := by
  obtain ⟨m, hm⟩ := Program.exists_machine_of_load hload o.limit .unbounded
  exact ⟨m, t, f, p, hsource, hload, hinput, hm⟩

theorem run_of_setup_error (h : runSetup env o = .error r) : run steps env o = some r := by
  simp only [run, h]

/-- How a run is reported once it is done. -/
def reportOf (s : State) : Status → Option Report
  | .running    => none
  | .ended how  => some (runReport s.log (.ok how))
  | .failed why => some (runReport s.log (.error why))

/-- **A run that gets under way is reported as its machine comes out.** -/
theorem run_of_starts (h : Starts env o m input) (steps : Nat) :
    run steps env o = reportOf (m.run steps (.start input)).1 (m.run steps (.start input)).2 := by
  obtain ⟨t, f, p, hsource, hload, hinput, hm⟩ := h
  unfold run
  rw [runSetup_eq_ok.2 ⟨t, f, hsource, hload, hinput⟩]
  simp only [hm]
  rcases m.run steps (.start input) with ⟨s, st⟩
  cases st <;> rfl

/-- **What `check`, `disassemble` and `run` make of one file is the same.**  Whatever the file
holds, and if there is none, and with whatever format or without one: it can be checked iff it
can be disassembled iff a run of it with an input that opens gets under way, which then is
reported as the machine comes out that has been started.  If it cannot, all three give the same
report, with nothing on standard output.  The label map of a program that has been loaded can
always be built. -/
theorem commands_agree {args runArgs : List Text} {g : Option Format} (env : Environment)
    (hname : path.head? ≠ some '-') (hargs : args = path :: formatArgs g ∨ args = formatArgs g ++ [path])
    (hrun : runOptions ⟨none, none, none, none⟩ runArgs = .ok o) (hsource : o.source = some path)
    (hformat : o.format = g) (hinput : runInput env o = .ok input) :
    (∃ checked shown, (∀ steps, report steps env ("check" :: args) = some checked) ∧
      (∀ steps, report steps env ("disassemble" :: args) = some shown) ∧
      (checked.code = 0 ↔ shown.code = 0) ∧
      (checked.code = 0 ↔ ∃ m, Starts env o m input ∧ ∀ steps, report steps env ("run" :: runArgs) =
        reportOf (m.run steps (.start input)).1 (m.run steps (.start input)).2) ∧
      (checked.code ≠ 0 →
        shown = checked ∧ (∀ steps, report steps env ("run" :: runArgs) = some checked) ∧ checked.stdout = [])) ∧
    ∀ f t p, Program.load f t = .ok p → ∃ labels, Labels.ofProgram p = .ok labels := by
  refine ⟨?_, fun f t p hload => Program.exists_labels_of_load hload⟩
  subst hformat
  have hoptions := fileOptions_eq_ok false hname hargs
  have hcheck (steps : Nat) := report_of_ofArgs steps env (ofArgs_check hoptions)
  have hdisassemble (steps : Nat) := report_of_ofArgs steps env (ofArgs_disassemble hoptions)
  have hreport (steps : Nat) : report steps env ("run" :: runArgs) = run steps env o :=
    report_of_ofArgs steps env (ofArgs_run hrun)
  simp only [Command.report] at hcheck hdisassemble
  cases hfile : loadFile env (o.format.getD (formatOf path)) path with
  | ok p =>
    rw [check_of_ok hfile] at hcheck
    rw [disassemble_of_ok hfile] at hdisassemble
    obtain ⟨t, hread, hload⟩ := loadFile_eq_ok.1 hfile
    have hsetup : runSource env o = .ok (t, o.format.getD (formatOf path)) := by
      simp only [runSource, hsource, hread, Except.map]
    obtain ⟨m, hstarts⟩ := exists_starts hsetup hload hinput
    refine ⟨_, _, hcheck, hdisassemble, Iff.rfl, ?_, fun hne => absurd rfl hne⟩
    exact ⟨fun _ => ⟨m, hstarts, fun steps => (hreport steps).trans (run_of_starts hstarts steps)⟩, fun _ => rfl⟩
  | error r =>
    rw [check_of_error hfile] at hcheck
    rw [disassemble_of_error hfile] at hdisassemble
    have hsetup : runSetup env o = .error r := by
      rw [runSetup_of_source hsource, hfile]
      rfl
    obtain ⟨kind, hrefuses⟩ := refuses_of_loadFile hfile
    refine ⟨r, r, hcheck, hdisassemble, Iff.rfl, ?_,
      fun _ => ⟨rfl, fun steps => (hreport steps).trans (run_of_setup_error hsetup), hrefuses.stdout⟩⟩
    constructor
    · intro hzero
      exact absurd hzero hrefuses.code_ne_zero
    · rintro ⟨m, ⟨t, f, p, hread, hload, hopen, -⟩, -⟩
      rw [runSetup_eq_ok.2 ⟨t, f, hread, hload, hopen⟩] at hsetup
      cases hsetup

/-- Two files whose names ask for a format of their own: a label that is defined twice is refused
by all commands; the other program runs to its end. -/
theorem commands_agree_on_labels :
    let clash : Text := "LABEL a\nLABEL a"
    let twice : Text := "LABEL a\nWRITE int@7"
    let env : Environment :=
      ⟨fun path => .contents (Utf8.encode (if path = "p.xml" then clash else twice)), [], fun _ => none, ⟨id, id⟩⟩
    let args : Text → List Text := fun path => ["--format=text", path]
    let runArgs : Text → List Text := fun path => ["--source=" ++ path, "--input=" ++ path, "--format=text"]
    (∃ r : Report, r.code = 52 ∧ report 0 env ("check" :: args "p.xml") = some r ∧
      report 0 env ("disassemble" :: args "p.xml") = some r ∧ report 0 env ("run" :: runArgs "p.xml") = some r ∧
      r.stdout = []) ∧
    ∃ r : Report, r.code = 0 ∧ report 0 env ("check" :: args "q.xml") = some r ∧
      ∃ m input, Starts env ⟨some "q.xml", some "q.xml", some .text, none⟩ m input ∧
        ∀ steps, report steps env ("run" :: runArgs "q.xml") =
          reportOf (m.run steps (.start input)).1 (m.run steps (.start input)).2 := by
  intro clash twice env args runArgs
  have hargs (path : Text) : args path = path :: formatArgs (some .text) ∨
      args path = formatArgs (some .text) ++ [path] := .inr rfl
  constructor
  · obtain ⟨⟨checked, shown, hcheck, hdisassemble, -, -, hfails⟩, -⟩ :=
      commands_agree env (by decide) (hargs "p.xml") (runOptions_source "p.xml" "p.xml" (some .text)) rfl
        rfl rfl
    have hclash : (report 0 env ("check" :: args "p.xml")).map Report.code = some 52 := by decide +kernel
    rw [hcheck] at hclash
    have hcode : checked.code = 52 := Option.some.inj hclash
    obtain ⟨rfl, hreport, hstdout⟩ := hfails (by rw [hcode]; decide)
    exact ⟨_, hcode, hcheck 0, hdisassemble 0, hreport 0, hstdout⟩
  · obtain ⟨⟨checked, shown, hcheck, -, -, hruns, -⟩, -⟩ :=
      commands_agree env (by decide) (hargs "q.xml") (runOptions_source "q.xml" "q.xml" (some .text)) rfl
        rfl rfl
    have hfine : (report 0 env ("check" :: args "q.xml")).map Report.code = some 0 := by decide +kernel
    rw [hcheck] at hfine
    have hcode : checked.code = 0 := Option.some.inj hfine
    obtain ⟨m, hstarts, hreport⟩ := hruns.1 hcode
    exact ⟨checked, hcode, hcheck 0, m, _, hstarts, hreport⟩

end Commands

end Cli

end IppCode
