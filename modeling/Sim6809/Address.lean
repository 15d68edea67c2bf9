import Sim6809.Text.Number
import Sim6809.Text.Quoted

/-!
Addresses as a user writes them: hexadecimal, with an optional mark in front.
-/
namespace Sim6809.Address

def dropMark : List Char → List Char
  | '$' :: rest => rest
  | '0' :: 'x' :: rest => rest
  | '0' :: 'X' :: rest => rest
  | text => text

/-- Reads an address; the message of a failure quotes the text. -/
def parse (text : String) : Except String UInt16 :=
  match Number.hexWord (dropMark text.toList) with
  | .ok address => .ok address
  | .error e => .error (Text.quote text ++ ": " ++ e.message)

end Sim6809.Address
