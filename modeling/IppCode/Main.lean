import IppCode.Cli.Report
/-!
# Main — the command line program

Reads the files that a command names, asks for its report, and carries that out.
-/
namespace IppCode.Cli

/-- The number of the error that a directory was found, with either sign. -/
def namesDirectory (code : UInt32) : Bool := code = 21 || code + 21 = 0

def reason : IO.Error → Text
  | .noFileOrDirectory _ _ _    => "No such file or directory (os error 2)"
  | .permissionDenied _ _ _     => "Permission denied (os error 13)"
  | .inappropriateType _ code _ =>
    if namesDirectory code then "Is a directory (os error 21)" else "Not a directory (os error 20)"
  | e                           => toString e

/-- What reading a file came to.  A directory opens, but has nothing to read. -/
def fileState (path : Text) : IO FileState := do
  try
    return .contents (← IO.FS.readBinFile (String.ofList path)).toList
  catch e =>
    let opens := match e with
      | .inappropriateType _ code _ => namesDirectory code
      | _                           => false
    return .unreadable opens (reason e)

/-- The names of the files that a command reads. -/
def filesRead : Command → List Text
  | .help          => []
  | .run o         => o.source.toList ++ o.input.toList
  | .check o       => [o.path]
  | .assemble o    => [o.path]
  | .disassemble o => [o.path]

def takesStdin : Command → Bool
  | .run o => o.source.isNone || o.input.isNone
  | _      => false

/-- JSON and XML are read without a library here, and no more than this is said of a text. -/
def wording : Wording :=
  ⟨fun _ => "not the records of a program", fun _ => "not a well-formed document"⟩

def environment (c : Command) : IO Environment := do
  let files ← (filesRead c).mapM fun path => return (path, ← fileState path)
  let stdin ← if takesStdin c then (← IO.getStdin).readBinToEnd else pure .empty
  let missing := FileState.unreadable false "No such file or directory (os error 2)"
  return ⟨fun path => (files.lookup path).getD missing, stdin.toList, fun _ => none, wording⟩

def carryOut (r : Report) : IO Report := do
  match r.written with
  | none              => return r
  | some (name, text) =>
    try
      IO.FS.writeFile (String.ofList name) (String.ofList text)
      return r
    catch e =>
      return .failure .outputFile ("cannot write '" ++ name ++ "': " ++ reason e)

def deliver (r : Report) : IO UInt32 := do
  let r ← carryOut r
  (← IO.getStdout).putStr (String.ofList r.stdout)
  (← IO.getStderr).putStr (String.ofList r.stderr)
  return r.code.toUInt32

/-- Programs that run for more steps than this do not end. -/
def patience : Nat := 0x4000000000000000

def perform (args : List String) : IO UInt32 := do
  match Command.ofArgs (args.map String.toList) with
  | .error e => deliver (usageReport e)
  | .ok c    =>
    match c.report patience (← environment c) with
    | some r => deliver r
    | none   => return ErrorKind.internal.exitCode.toUInt32

end IppCode.Cli

def main (args : List String) : IO UInt32 := IppCode.Cli.perform args
