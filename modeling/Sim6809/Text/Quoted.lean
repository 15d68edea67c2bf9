import Sim6809.Text.Graphic
import Sim6809.Text.Hex

/-!
Quoted text for messages. A character that could be mistaken in a message is written as an
escape, so the reader sees exactly which characters the text holds.
-/
namespace Sim6809.Text

def escape (c : Char) : String :=
  match c with
  | '\t' => "\\t"
  | '\r' => "\\r"
  | '\n' => "\\n"
  | '\x00' => "\\0"
  | '\\' => "\\\\"
  | '"' => "\\\""
  | c => if isGraphic c then c.toString else "\\u\x7b" ++ Hex.lower c.toNat ++ "\x7d"

def quote (text : String) : String := "\"" ++ String.join (text.toList.map escape) ++ "\""

end Sim6809.Text
