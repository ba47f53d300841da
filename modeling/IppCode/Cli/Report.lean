import IppCode.Cli.Command
import IppCode.Machine.Step
import IppCode.Source.Disassemble
/-!
# Report — what a command does

A command reads files and standard input, and comes to a report: an exit code, the text
for standard output and standard error, and possibly a file to write.  The report of a
run is what the library makes of the program; what it wrote before an error is kept.
-/
namespace IppCode.Cli

inductive FileState
  | contents (bytes : Utf8.Bytes)
  /-- It cannot be read.  What opens all the same, as a directory does, is empty input. -/
  | unreadable (opens : Bool) (why : Text)

/-- What a command finds around it. -/
structure Environment where
  file     : Text → FileState
  stdin    : Utf8.Bytes
  blocked? : Text → Option Text
  wording  : Wording

structure Report where
  code    : Nat
  stdout  : Text
  stderr  : Text
  written : Option (Text × Text)

namespace Report

def line (t : Text) : Text := t ++ ['\n']

def errorLine (message : Text) : Text := line ("error: " ++ message)

def failure (kind : ErrorKind) (message : Text) : Report :=
  ⟨kind.exitCode, [], errorLine message, none⟩

end Report

def invalidUtf8 : Text := "stream did not contain valid UTF-8"

def textOf (bytes : Utf8.Bytes) : Except Text Text :=
  match Utf8.decode? bytes with
  | some t => .ok t
  | none   => .error invalidUtf8

namespace Environment

def readText (env : Environment) (path : Text) : Except Report Text :=
  let read := match env.file path with
    | .contents bytes   => textOf bytes
    | .unreadable _ why => .error why
  match read with
  | .ok t      => .ok t
  | .error why => .error (.failure .inputFile ("cannot read '" ++ path ++ "': " ++ why))

def readStdin (env : Environment) : Except Report Text :=
  match textOf env.stdin with
  | .ok t      => .ok t
  | .error why => .error (.failure .inputFile ("cannot read stdin: " ++ why))

def openInput (env : Environment) (path : Text) : Except Report Input :=
  match env.file path with
  | .contents bytes       => .ok (.lines bytes)
  | .unreadable true _    => .ok (.lines [])
  | .unreadable false why =>
    .error (.failure .inputFile ("cannot open '" ++ path ++ "': " ++ why))

end Environment

/-- Loads a program, with a line of standard error for every error. -/
def load (w : Wording) (f : Format) (t : Text) : Except Report Program :=
  match Program.load f t with
  | .ok p    => .ok p
  | .error e => .error ⟨e.kind.exitCode, [], (e.messages w).flatMap Report.errorLine, none⟩

/-! ## The commands -/

/-- How a run is reported: the program's output and diagnostics, and how it ended. -/
def runReport (log : Log) : Except RuntimeError Outcome → Report
  | .ok outcome => ⟨outcome.exitCode, log.output, log.diagnostics, none⟩
  | .error e    =>
    ⟨e.kind.exitCode, log.output, log.diagnostics ++ Report.errorLine e.message, none⟩

def runSource (env : Environment) (o : RunOptions) : Except Report (Text × Format) :=
  match o.source with
  | some path => (env.readText path).map fun t => (t, o.format.getD (formatOf path))
  | none      => env.readStdin.map fun t => (t, o.format.getD .text)

def runInput (env : Environment) (o : RunOptions) : Except Report Input :=
  match o.input with
  | some path => env.openInput path
  | none      => .ok (.lines env.stdin)

def runSetup (env : Environment) (o : RunOptions) : Except Report (Program × Input) := do
  let (t, f) ← runSource env o
  let p ← load env.wording f t
  let input ← runInput env o
  return (p, input)

/-- Runs a program for at most the given number of steps; none if it does not end by then. -/
def run (steps : Nat) (env : Environment) (o : RunOptions) : Option Report :=
  match runSetup env o with
  | .error report   => some report
  | .ok (p, input) =>
    match Machine.load p o.limit .unbounded with
    | .error e => some (runReport [] (.error e))
    | .ok m    =>
      match m.run steps (.start input) with
      | (s, .ended outcome) => some (runReport s.log (.ok outcome))
      | (s, .failed e)      => some (runReport s.log (.error e))
      | (_, .running)       => none

def check (env : Environment) (o : FileOptions) : Except Report Report := do
  let p ← load env.wording o.format (← env.readText o.path)
  match Labels.ofProgram p with
  | .error e => throw (.failure e.kind e.message)
  | .ok _    =>
    let count := Numeral.ofNat p.instructions.length
    return ⟨0, Report.line ("OK: " ++ o.path ++ " (" ++ count ++ " instructions)"), [], none⟩

/-- Assembles a source text, whatever the name of its file, into JSON. -/
def assemble (env : Environment) (o : FileOptions) : Except Report Report := do
  let t ← env.readText o.path
  match Source.assemble t with
  | .error e    => throw (.failure e.kind e.message)
  | .ok records =>
    let json := Report.line (Json.writeRecords records)
    match o.target with
    | none        => return ⟨0, json, [], none⟩
    | some target =>
      match env.blocked? target with
      | some why => throw (.failure .outputFile ("cannot write '" ++ target ++ "': " ++ why))
      | none     =>
        let count := Numeral.ofNat records.length
        return ⟨0, [], Report.line ("assembled " ++ count ++ " instructions -> " ++ target),
          some (target, json)⟩

def disassemble (env : Environment) (o : FileOptions) : Except Report Report := do
  let p ← load env.wording o.format (← env.readText o.path)
  return ⟨0, Source.disassemble p, [], none⟩

def usage : Text :=
  "Usage: ippvm <command> [args]\n\nCommands:\n" ++
  "  run [--source=FILE] [--input=FILE] [--format=text|json|xml] [--max-steps=N]\n" ++
  "                                   Load and execute a program; the omitted\n" ++
  "                                   one of source/input is read from stdin\n" ++
  "  check <FILE> [--format=F]        Load and validate a program\n" ++
  "  assemble <FILE> [-o OUT]         Convert source text to JSON records\n" ++
  "  disassemble <FILE> [--format=F]  Print a program as canonical source text\n"

def usageReport : UsageError → Report
  | .noCommand                 => ⟨ErrorKind.parameter.exitCode, [], usage, none⟩
  | .unknownCommand name       =>
    ⟨ErrorKind.parameter.exitCode, [],
      Report.errorLine ("unknown command '" ++ name ++ "'") ++ Report.line [] ++ usage, none⟩
  | .badArgument message shown =>
    ⟨ErrorKind.parameter.exitCode, [],
      Report.errorLine message ++ Report.line ("Usage: " ++ shown), none⟩

def either : Except Report Report → Report
  | .ok r    => r
  | .error r => r

/-- The report of a command; none if a program does not end within the steps. -/
def Command.report (steps : Nat) (env : Environment) : Command → Option Report
  | .help          => some ⟨0, [], usage, none⟩
  | .run o         => Cli.run steps env o
  | .check o       => some (either (Cli.check env o))
  | .assemble o    => some (either (Cli.assemble env o))
  | .disassemble o => some (either (Cli.disassemble env o))

def report (steps : Nat) (env : Environment) (args : List Text) : Option Report :=
  match Command.ofArgs args with
  | .ok command => command.report steps env
  | .error e    => some (usageReport e)

end IppCode.Cli
