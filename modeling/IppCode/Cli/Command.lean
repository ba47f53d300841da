import IppCode.Format
/-!
# Command — what the command line asks for

The first argument names a command, and each command has arguments of its own.  They
are read from left to right; the first one that does not fit is the error.
-/
namespace IppCode.Cli

structure RunOptions where
  source : Option Text
  input  : Option Text
  format : Option Format
  limit  : Option Nat

structure FileOptions where
  path   : Text
  format : Format
  target : Option Text

inductive Command
  | help
  | run (options : RunOptions)
  | check (options : FileOptions)
  | assemble (options : FileOptions)
  | disassemble (options : FileOptions)

inductive UsageError
  | noCommand
  | unknownCommand (name : Text)
  /-- An argument of a command is wrong; `usage` shows how the command is used. -/
  | badArgument (message usage : Text)

/-! ## Formats -/

def formatNamed? (name : Text) : Option Format :=
  if name = "text" then some .text
  else if name = "json" then some .json
  else if name = "xml" then some .xml
  else none

/-- The last part of a path; none if the path leads upwards or nowhere. -/
def fileName? (path : Text) : Option Text :=
  let parts := (Text.pieces (· = '/') path).filter fun part => part ≠ [] && part ≠ ['.']
  parts.getLast?.filter fun part => part ≠ ['.', '.']

/-- What follows the last dot of the file's name, unless that is its first character. -/
def extension? (path : Text) : Option Text :=
  (fileName? path).bind fun name =>
    let ending := (name.reverse.takeWhile (· ≠ '.')).reverse
    if ending.length + 1 < name.length then some ending else none

/-- Files that end in `.json` or `.xml`, in any case, are JSON or XML. -/
def formatOf (path : Text) : Format :=
  match extension? path with
  | none        => .text
  | some ending =>
    if Text.sameLetters ending "json" then .json
    else if Text.sameLetters ending "xml" then .xml
    else .text

/-! ## Running -/

def runUsage : Text :=
  "ippvm run [--source=FILE] [--input=FILE] [--format=text|json|xml] [--max-steps=N]"

def runOption (o : RunOptions) (arg : Text) : Except Text RunOptions :=
  match Text.after? "--source=" arg, Text.after? "--input=" arg, Text.after? "--format=" arg,
    Text.after? "--max-steps=" arg with
  | some path, _, _, _ => .ok { o with source := some path }
  | _, some path, _, _ => .ok { o with input := some path }
  | _, _, some name, _ =>
    match formatNamed? name with
    | some f => .ok { o with format := some f }
    | none   => .error ("unknown format '" ++ name ++ "'")
  | _, _, _, some n =>
    match Numeral.unsignedWord? n with
    | some limit => .ok { o with limit := some limit }
    | none       => .error ("invalid step limit '" ++ n ++ "'")
  | _, _, _, _ => .error ("unknown option '" ++ arg ++ "'")

def runOptions (o : RunOptions) : List Text → Except Text RunOptions
  | []          =>
    if o.source.isNone && o.input.isNone then
      .error "at least one of --source and --input is required"
    else .ok o
  | arg :: args =>
    match runOption o arg with
    | .ok o'         => runOptions o' args
    | .error message => .error message

/-! ## Commands on one file -/

structure FileDraft where
  path   : Option Text
  format : Option Format
  target : Option Text

/-- Reads the arguments of a command on one file; only some commands have a target. -/
def fileDraft (hasTarget : Bool) (d : FileDraft) : List Text → Except Text FileDraft
  | []          => .ok d
  | arg :: args =>
    match Text.after? "--format=" arg with
    | some name =>
      match formatNamed? name with
      | some f => fileDraft hasTarget { d with format := some f } args
      | none   => .error ("unknown format '" ++ name ++ "'")
    | none      =>
      if arg = "-o" && hasTarget then
        match args with
        | target :: args' => fileDraft hasTarget { d with target := some target } args'
        | []              => .error "-o requires a file name"
      else if arg.head? = some '-' then .error ("unknown option '" ++ arg ++ "'")
      else if d.path.isNone then fileDraft hasTarget { d with path := some arg } args
      else .error ("unexpected argument '" ++ arg ++ "'")

def fileOptions (hasTarget : Bool) (args : List Text) : Except Text FileOptions :=
  match fileDraft hasTarget ⟨none, none, none⟩ args with
  | .error message => .error message
  | .ok d          =>
    match d.path with
    | some path => .ok ⟨path, d.format.getD (formatOf path), d.target⟩
    | none      => .error "an input file is required"

/-- Attaches the usage of the command to an error in its arguments. -/
def withUsage {α : Type} (usage : Text) (command : α → Command) :
    Except Text α → Except UsageError Command
  | .ok a          => .ok (command a)
  | .error message => .error (.badArgument message usage)

namespace Command

def ofArgs : List Text → Except UsageError Command
  | []           => .error .noCommand
  | name :: args =>
    if name = "run" then withUsage runUsage run (runOptions ⟨none, none, none, none⟩ args)
    else if name = "check" then
      withUsage "ippvm check <FILE> [--format=text|json|xml]" check (fileOptions false args)
    else if name = "assemble" then
      withUsage "ippvm assemble <FILE> [-o OUT]" assemble (fileOptions true args)
    else if name = "disassemble" then
      withUsage "ippvm disassemble <FILE> [--format=text|json|xml]" disassemble
        (fileOptions false args)
    else if name = "--help" || name = "-h" || name = "help" then .ok help
    else .error (.unknownCommand name)

end Command

end IppCode.Cli
