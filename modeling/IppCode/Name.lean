import IppCode.Text
import IppCode.Unicode.Numeric
/-!
# Name — how variables and labels are called

A name begins with an alphabetic character or one of the signs `_-$&%*!?`, and
goes on with these and with numeric characters.
-/
namespace IppCode.Name

def signs : Text := "_-$&%*!?"

def begins (c : Char) : Bool := Unicode.isAlphabetic c || signs.contains c

def continues (c : Char) : Bool := Unicode.isAlphanumeric c || signs.contains c

def isName : Text → Bool
  | []     => false
  | c :: r => begins c && r.all continues

end IppCode.Name
