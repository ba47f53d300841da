import IppCode.Text
/-!
# Record — instructions as every format delivers them

The three program formats are read into the same records.  A record is not checked:
its operation is a name, its arguments are texts under numbered slots, and both the
order numbers and the slots may be any integers.
-/
namespace IppCode

structure Arg where
  slot  : Int
  kind  : Text
  value : Text
deriving DecidableEq

structure Record where
  order  : Int
  opcode : Text
  args   : List Arg
deriving DecidableEq

end IppCode
