import IppCode.ErrorKind
import IppCode.Value
import IppCode.Variable
/-!
# Frame — declared variables and their values

A frame maps names to values.  A variable is declared once, without a value, and is
assigned any number of times; only a declared variable can be read or assigned.
-/
namespace IppCode

inductive FrameError
  | noLocalFrame
  | noTemporaryFrame
  | redefinition (written : Text)
  | undefined (written : Text)
deriving DecidableEq

namespace FrameError

def message : FrameError → Text
  | noLocalFrame         => "local frame does not exist"
  | noTemporaryFrame     => "temporary frame does not exist"
  | redefinition written => "variable " ++ written ++ " is already defined"
  | undefined written    => "variable " ++ written ++ " is not defined"

def kind : FrameError → ErrorKind
  | noLocalFrame | noTemporaryFrame => .frameAccess
  | redefinition _                  => .semantic
  | undefined _                     => .variableAccess

end FrameError

/-- The variables in the order of their declarations, each with its value if it has one. -/
structure Frame where
  cells : List (Text × Option Value)
deriving DecidableEq

namespace Frame

def empty : Frame := ⟨[]⟩

def size (f : Frame) : Nat := f.cells.length

def cell? (f : Frame) (name : Text) : Option (Option Value) := f.cells.lookup name

def declare? (f : Frame) (name : Text) : Option Frame :=
  match f.cell? name with
  | some _ => none
  | none   => some ⟨f.cells ++ [(name, none)]⟩

/-- Replaces the value of the first variable with the name. -/
def assign (name : Text) (value : Value) : List (Text × Option Value) → List (Text × Option Value)
  | []          => []
  | (n, v) :: r => if name = n then (n, some value) :: r else (n, v) :: assign name value r

def set? (f : Frame) (name : Text) (value : Value) : Option Frame :=
  match f.cell? name with
  | some _ => some ⟨assign name value f.cells⟩
  | none   => none

/-! ## What the operations do to a look-up -/

theorem cell?_empty (name : Text) : empty.cell? name = none := rfl

theorem lookup_snoc (name n : Text) (v : Option Value) :
    ∀ cells : List (Text × Option Value),
      (cells ++ [(n, v)]).lookup name =
        (cells.lookup name).or (if name = n then some v else none)
  | []          => by
    by_cases h : name = n
    · simp [h]
    · have hb : (name == n) = false := by simpa using h
      simp [List.lookup_cons, h, hb]
  | (m, w) :: r => by
    by_cases h : name = m
    · simp [h]
    · have hb : (name == m) = false := by simpa using h
      simp [List.lookup_cons, hb, lookup_snoc name n v r]

theorem cell?_declare {f g : Frame} {name : Text} (h : f.declare? name = some g) (x : Text) :
    g.cell? x = if x = name then some none else f.cell? x := by
  unfold declare? at h
  split at h
  · cases h
  · rename_i hn
    cases h
    rw [cell?, lookup_snoc]
    by_cases hx : x = name
    · subst hx
      simp only [cell?] at hn
      simp [hn]
    · simp only [hx, if_false, cell?]
      cases f.cells.lookup x <;> rfl

theorem lookup_assign (name : Text) (value : Value) (x : Text) :
    ∀ cells : List (Text × Option Value),
      (assign name value cells).lookup x =
        if x = name then (cells.lookup x).map fun _ => some value else cells.lookup x
  | []          => by simp [assign]
  | (n, v) :: r => by
    unfold assign
    by_cases hn : name = n
    · subst hn
      by_cases hx : x = name
      · simp [hx]
      · have hb : (x == name) = false := by simpa using hx
        simp [List.lookup_cons, hx, hb]
    · rw [if_neg hn]
      by_cases hx : x = n
      · subst hx
        simp [Ne.symm hn]
      · have hb : (x == n) = false := by simpa using hx
        simp only [List.lookup_cons, hb]
        exact lookup_assign name value x r

theorem cell?_set {f g : Frame} {name : Text} {value : Value} (h : f.set? name value = some g)
    (x : Text) : g.cell? x = if x = name then some (some value) else f.cell? x := by
  unfold set? at h
  split at h
  · rename_i c hc
    cases h
    simp only [cell?] at hc ⊢
    rw [lookup_assign]
    by_cases hx : x = name
    · subst hx; simp [hc]
    · simp [hx]
  · cases h

end Frame

end IppCode
