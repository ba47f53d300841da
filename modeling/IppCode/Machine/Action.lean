import IppCode.Machine.State
/-!
# Action — what instructions do to the state

An action changes the state in place, and may raise a fault.  What it has changed before
the fault stays changed: nothing here takes a change back.
-/
namespace IppCode

/-- A computation that looks at the state and changes it. -/
abbrev Action (α : Type) := EStateM Fault State α

namespace Action

variable {α : Type}

def look (f : State → Except Fault α) : Action α := fun s =>
  match f s with
  | .ok a        => .ok a s
  | .error fault => .error fault s

def change (c : Frames.Change α) : Action α := fun s =>
  match c s.frames with
  | .ok a frames      => .ok a { s with frames := frames }
  | .error why frames => .error (.frame why) { s with frames := frames }

def pushData (value : Value) : Action Unit := modify fun s => { s with data := s.data.push value }

def popData : Action Value := fun s =>
  match s.data.pop with
  | some (value, data) => .ok value { s with data := data }
  | none               => .error .emptyDataStack s

def pushCall : Action Unit := modify fun s => { s with calls := s.calls.push (s.ip + 1) }

def popCall : Action Nat := fun s =>
  match s.calls.pop with
  | some (target, calls) => .ok target { s with calls := calls }
  | none                 => .error .emptyCallStack s

/-- Reads a value of the type; if there is none, it is nil. -/
def takeValue (n : TypeName) : Action Value := fun s =>
  .ok ((s.input.read n).1.getD .nil) { s with input := (s.input.read n).2 }

def send (sink : Sink) (w : Write) : Action Unit := fun s =>
  match sink.write w s.log with
  | .ok _ log      => .ok () { s with log := log }
  | .error why log => .error (.output why) { s with log := log }

end Action

end IppCode
