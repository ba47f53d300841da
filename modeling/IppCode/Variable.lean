import IppCode.Name
/-!
# Variable — references to variables

A reference names a frame and a variable in it: `GF@x` is the global `x`, `LF@x`
the one of the innermost local frame, `TF@x` the one of the temporary frame.
-/
namespace IppCode

/-- The frames that a reference can name. -/
inductive Scope
  | gf
  | lf
  | tf
deriving DecidableEq

namespace Scope

def all : List Scope := [gf, lf, tf]

def text : Scope → Text
  | gf => "GF"
  | lf => "LF"
  | tf => "TF"

def ofText? (t : Text) : Option Scope := all.find? fun s => s.text == t

end Scope

structure Variable where
  scope : Scope
  name  : Text
deriving DecidableEq

namespace Variable

def text (v : Variable) : Text := v.scope.text ++ '@' :: v.name

/-- A frame, the first `@`, and a name. -/
def ofText? (t : Text) : Option Variable :=
  match Text.cutAt '@' t with
  | none               => none
  | some (scope, name) =>
    match Scope.ofText? scope with
    | none   => none
    | some s => if Name.isName name then some ⟨s, name⟩ else none

end Variable

end IppCode
