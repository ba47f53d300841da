import IppCode.Json.Records
import IppCode.Program
import IppCode.Source.Assemble
import IppCode.Verify
import IppCode.Xml.Records
/-!
# Format — the three forms of a program, and loading one

A program is source text, JSON records or an XML document.  Each form is read into
records, which are verified together and then bound; the first of the three steps that
fails names the errors.
-/
namespace IppCode

inductive Format
  | text
  | json
  | xml
deriving DecidableEq

/-- The words in which the readers of JSON and of XML say what is wrong with a text.  They are
the libraries' own, and depend on nothing but the text. -/
structure Wording where
  json : Text → Text
  xml  : Text → Text

inductive ReadError
  | source (e : SourceError)
  /-- The text does not have the records of a program in JSON. -/
  | json (t : Text)
  /-- The text is not a well-formed document. -/
  | xml (t : Text)
  | document (e : Xml.StructureFault)
deriving DecidableEq

namespace ReadError

def message (w : Wording) : ReadError → Text
  | source e   => e.message
  | json t     => "invalid program JSON: " ++ w.json t
  | xml t      => "invalid program XML: " ++ w.xml t
  | document e => e.message

def kind : ReadError → ErrorKind
  | source e   => e.kind
  | json _     => .sourceFormat
  | xml _      => .sourceFormat
  | document e => e.kind

end ReadError

namespace Format

def read (f : Format) (t : Text) : Except ReadError (List Record) :=
  match f with
  | text =>
    match Source.assemble t with
    | .ok records => .ok records
    | .error e    => .error (.source e)
  | json =>
    match Json.readRecords t with
    | some records => .ok records
    | none         => .error (.json t)
  | xml =>
    match Xml.parse t with
    | none      => .error (.xml t)
    | some root =>
      match Xml.records root with
      | .ok records => .ok records
      | .error e    => .error (.document e)

end Format

inductive LoadError
  | read (e : ReadError)
  | verify (first : VerifyError) (rest : List VerifyError)
  | bind (e : BindError)
deriving DecidableEq

namespace LoadError

def messages (w : Wording) : LoadError → List Text
  | read e            => [e.message w]
  | verify first rest => (first :: rest).map VerifyError.message
  | bind e            => [e.message]

def kind : LoadError → ErrorKind
  | read e         => e.kind
  | verify first _ => first.kind
  | bind e         => e.kind

end LoadError

namespace Program

def load (f : Format) (t : Text) : Except LoadError Program :=
  match f.read t with
  | .error e   => .error (.read e)
  | .ok records =>
    match verify records with
    | first :: rest => .error (.verify first rest)
    | []            =>
      match ofRecords records with
      | .error e => .error (.bind e)
      | .ok p    => .ok p

end Program

end IppCode
