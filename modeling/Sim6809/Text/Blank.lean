/-!
White space by the Unicode property of that name, and the fields and lines of a text.
-/
namespace Sim6809.Text

def isBlank (c : Char) : Bool :=
  let n := c.toNat
  (9 ≤ n && n ≤ 13) || n == 0x20 || n == 0x85 || n == 0xA0 || n == 0x1680 ||
    (0x2000 ≤ n && n ≤ 0x200A) || n == 0x2028 || n == 0x2029 || n == 0x202F || n == 0x205F ||
    n == 0x3000

/-- The pieces between the characters that satisfy a test; one more piece than such characters. -/
def splitBy (p : Char → Bool) : List Char → List (List Char)
  | [] => [[]]
  | c :: rest =>
    if p c then [] :: splitBy p rest
    else
      match splitBy p rest with
      | [] => [[c]]
      | piece :: pieces => (c :: piece) :: pieces

def fields (text : List Char) : List (List Char) :=
  (splitBy isBlank text).filter (!·.isEmpty)

def trimEnd (text : List Char) : List Char := (text.reverse.dropWhile isBlank).reverse

end Sim6809.Text
