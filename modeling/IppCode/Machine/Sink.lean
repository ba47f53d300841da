import IppCode.Value
/-!
# Sink — where output goes

A program writes values, whose texts are its output, and lines about the state of the machine.
A sink decides, from the writes that it has taken before, whether it takes another one; of a
write that it refuses it may have taken a part.  A sink may drop diagnostics instead of taking
them.
-/
namespace IppCode

inductive Write
  | output (value : Value)
  | diagnostic (t : Text)
deriving DecidableEq

/-- The writes that have been taken, the latest first. -/
abbrev Log := List Write

namespace Log

def outputPart : Write → Text
  | .output value => value.shown
  | .diagnostic _ => []

def diagnosticPart : Write → Text
  | .output _     => []
  | .diagnostic t => t ++ ['\n']

def output (log : Log) : Text := log.reverse.flatMap outputPart

/-- The diagnostics, each on its own line. -/
def diagnostics (log : Log) : Text := log.reverse.flatMap diagnosticPart

end Log

/-- Why a write is refused, and what has been taken of it all the same, the latest first. -/
structure Refusal where
  why   : Text
  taken : Log

structure Sink where
  keepsDiagnostics : Bool
  /-- Whether a write is refused after those of the log. -/
  refusal?         : Log → Write → Option Refusal

namespace Sink

def unbounded : Sink := ⟨true, fun _ _ => none⟩

/-- Takes everything, but drops diagnostics. -/
def quiet : Sink := ⟨false, fun _ _ => none⟩

/-- Takes so many writes, and refuses every other one with the same words. -/
def bounded (room : Nat) (why : Text) : Sink :=
  ⟨true, fun log _ => if log.length < room then none else some ⟨why, []⟩⟩

/-- Adds a write to the log, or the part of it that a refusal leaves there. -/
def take (s : Sink) (w : Write) : EStateM Text Log Unit := fun log =>
  match s.refusal? log w with
  | none   => .ok () (w :: log)
  | some r => .error r.why (r.taken ++ log)

def write (s : Sink) (w : Write) : EStateM Text Log Unit :=
  match w with
  | .output _     => s.take w
  | .diagnostic _ => if s.keepsDiagnostics then s.take w else pure ()

end Sink

end IppCode
