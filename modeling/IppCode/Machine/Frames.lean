import IppCode.Machine.Frame
import IppCode.Machine.Stack
/-!
# Frames — the variables that a program can refer to

There is one global frame, at most one temporary frame, and a stack of local frames of
which the innermost is visible.  A reference is resolved in the frame that it names.
Pushing moves the temporary frame onto the local ones, popping moves it back.

The frames are changed in place: a change that fails keeps what it has done by then.
-/
namespace IppCode

structure Frames where
  global    : Frame
  temporary : Option Frame
  locals    : Stack Frame
deriving DecidableEq

namespace Frames

def empty : Frames := ⟨.empty, none, []⟩

/-- The frame that a scope names. -/
def frame (fs : Frames) : Scope → Except FrameError Frame
  | .gf => .ok fs.global
  | .lf =>
    match fs.locals with
    | f :: _ => .ok f
    | []     => .error .noLocalFrame
  | .tf =>
    match fs.temporary with
    | some f => .ok f
    | none   => .error .noTemporaryFrame

/-- Puts another frame in the place of the one that a scope names. -/
def replace (fs : Frames) (f : Frame) : Scope → Frames
  | .gf => { fs with global := f }
  | .lf => { fs with locals := f :: fs.locals.tail }
  | .tf => { fs with temporary := some f }

/-- The value of a variable, if it has one. -/
def lookup (fs : Frames) (v : Variable) : Except FrameError (Option Value) :=
  match fs.frame v.scope with
  | .error e => .error e
  | .ok f    =>
    match f.cell? v.name with
    | some value => .ok value
    | none       => .error (.undefined v.text)

/-- An empty temporary frame in the place of any that there was. -/
def create (fs : Frames) : Frames := { fs with temporary := some .empty }

abbrev Change (α : Type) := EStateM FrameError Frames α

namespace Change

def frame (scope : Scope) : Change Frame := fun fs =>
  match fs.frame scope with
  | .ok f      => .ok f fs
  | .error why => .error why fs

def takeTemporary : Change Frame := fun fs =>
  match fs.temporary with
  | some f => .ok f { fs with temporary := none }
  | none   => .error .noTemporaryFrame { fs with temporary := none }

def takeLocal : Change Frame := fun fs =>
  match fs.locals.pop with
  | some (f, r) => .ok f { fs with locals := r }
  | none        => .error .noLocalFrame fs

def declare (v : Variable) : Change Unit := do
  let f ← frame v.scope
  match f.declare? v.name with
  | some g => modify (·.replace g v.scope)
  | none   => throw (.redefinition v.text)

def assign (v : Variable) (value : Value) : Change Unit := do
  let f ← frame v.scope
  match f.set? v.name value with
  | some g => modify (·.replace g v.scope)
  | none   => throw (.undefined v.text)

/-- The temporary frame becomes the innermost local one. -/
def push : Change Unit := do
  let f ← takeTemporary
  modify fun fs => { fs with locals := fs.locals.push f }

/-- The innermost local frame becomes the temporary one. -/
def pop : Change Unit := do
  let f ← takeLocal
  modify fun fs => { fs with temporary := some f }

end Change

/-- The frames after a change, unless that fails. -/
def after (fs : Frames) (c : Change Unit) : Except FrameError Frames :=
  match c fs with
  | .ok _ fs'    => .ok fs'
  | .error why _ => .error why

def declare (fs : Frames) (v : Variable) : Except FrameError Frames := fs.after (.declare v)

def assign (fs : Frames) (v : Variable) (value : Value) : Except FrameError Frames :=
  fs.after (.assign v value)

def push (fs : Frames) : Except FrameError Frames := fs.after .push

def pop (fs : Frames) : Except FrameError Frames := fs.after .pop

end Frames

end IppCode
