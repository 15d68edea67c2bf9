import Sim6809.Word

/-!
Hexadecimal text. Bytes and words are written with upper-case digits and a fixed width, so the
text of a value determines the value.
-/
namespace Sim6809.Hex

def digit (n : Nat) : Char := if n < 10 then Char.ofNat (48 + n) else Char.ofNat (55 + n)

def byteChars (b : UInt8) : List Char := [digit (b.toNat / 16), digit (b.toNat % 16)]

def byte (b : UInt8) : String := String.ofList (byteChars b)

def word (w : UInt16) : String := String.ofList (byteChars (Word.hi w) ++ byteChars (Word.lo w))

def bytes (bs : List UInt8) : String := String.ofList (bs.flatMap byteChars)

def upper (n : Nat) : String := (String.ofList (Nat.toDigits 16 n)).map Char.toUpper

def lower (n : Nat) : String := String.ofList (Nat.toDigits 16 n)

def padZeros (width : Nat) (digits : String) : String :=
  String.ofList (List.replicate (width - digits.length) '0') ++ digits

def value? (c : Char) : Option Nat :=
  if '0' ≤ c ∧ c ≤ '9' then some (c.toNat - 48)
  else if 'A' ≤ c ∧ c ≤ 'F' then some (c.toNat - 55)
  else if 'a' ≤ c ∧ c ≤ 'f' then some (c.toNat - 87)
  else none

theorem length_byteChars (b : UInt8) : (byteChars b).length = 2 := rfl

end Sim6809.Hex
