import Sim6809.Text.Hex

/-!
Unsigned numbers in a given radix below a given bound. A leading plus sign is allowed, the
digits are taken from the left, and the first character that is no digit or carries the value
past the bound decides the failure.
-/
namespace Sim6809

inductive NumberError
  | empty
  | invalidDigit
  | tooLarge
  deriving DecidableEq, Repr

def NumberError.message : NumberError → String
  | .empty => "cannot parse integer from empty string"
  | .invalidDigit => "invalid digit found in string"
  | .tooLarge => "number too large to fit in target type"

namespace Number

def digit? (radix : Nat) (c : Char) : Option Nat := (Hex.value? c).filter (· < radix)

/-- One more digit on the right of a number that has to stay below the bound. -/
def addDigit (radix bound n : Nat) (c : Char) : Except NumberError Nat :=
  match digit? radix c with
  | none => .error .invalidDigit
  | some d => if n * radix + d < bound then .ok (n * radix + d) else .error .tooLarge

/-- The digits after an optional plus sign; a sign by itself is not dropped. -/
def dropPlus : List Char → List Char
  | '+' :: c :: rest => c :: rest
  | text => text

def read (radix bound : Nat) (text : List Char) : Except NumberError Nat :=
  if text.isEmpty then .error .empty
  else (dropPlus text).foldlM (addDigit radix bound) 0

def hexWord (text : List Char) : Except NumberError UInt16 :=
  (read 16 65536 text).map UInt16.ofNat

end Number
end Sim6809
