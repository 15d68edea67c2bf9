import Sim6809.Text.Hex

/-!
JSON output, one item a line with an indentation of two blanks. The documents that the library
writes are no deeper than an array of scalars or an object with scalar members.
-/
namespace Sim6809

inductive JsonScalar
  | text (value : String)
  | number (value : Nat)
  deriving DecidableEq, Repr

inductive JsonDocument
  | scalar (value : JsonScalar)
  | array (items : List JsonScalar)
  | object (members : List (String × JsonScalar))
  deriving DecidableEq, Repr

namespace JsonScalar

def escape (c : Char) : String :=
  match c with
  | '"' => "\\\""
  | '\\' => "\\\\"
  | '\x08' => "\\b"
  | '\x0c' => "\\f"
  | '\n' => "\\n"
  | '\r' => "\\r"
  | '\t' => "\\t"
  | c => if c.toNat < 0x20 then "\\u" ++ Hex.padZeros 4 (Hex.lower c.toNat) else c.toString

def quote (text : String) : String := "\"" ++ String.join (text.toList.map escape) ++ "\""

def render : JsonScalar → String
  | text value => quote value
  | number value => toString value

end JsonScalar

namespace JsonDocument

/-- Items between brackets, each on its own line; the brackets alone if there are none. -/
def bracketed (first last : String) (items : List String) : String :=
  if items.isEmpty then first ++ last
  else first ++ "\n" ++ ",\n".intercalate (items.map ("  " ++ ·)) ++ "\n" ++ last

def render : JsonDocument → String
  | scalar value => value.render
  | array items => bracketed "[" "]" (items.map JsonScalar.render)
  | object members =>
    bracketed "\x7b" "\x7d" (members.map fun (name, value) =>
      JsonScalar.quote name ++ ": " ++ value.render)

end JsonDocument
end Sim6809
