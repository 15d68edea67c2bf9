import Sim6809.Memory
import Sim6809.Text.Hex

/-!
Memory dumps: sixteen bytes a line, in hexadecimal and as characters. A dump never passes the top
of memory, and the character column opens at the same place on every line.
-/
namespace Sim6809.Memory

/-- The sum of an address and a count, which stops at the largest number of a 64-bit word. -/
def saturatingAdd (address count : Nat) : Nat := min (address + count) 0xFFFFFFFFFFFFFFFF

/-- Where a dump ends, at the top of memory at the latest. -/
def dumpEnd (address : UInt16) (count : Nat) : Nat :=
  min (saturatingAdd address.toNat count) size

/-- A byte in the character column: itself if it is a visible character or a blank of seven-bit
code, else a dot. -/
def dumpChar (b : UInt8) : Char := if 0x20 ≤ b ∧ b ≤ 0x7E then Char.ofUInt8 b else '.'

def dumpLine (address : UInt16) (bytes : List UInt8) : String :=
  Hex.word address ++ ":" ++
    String.join (bytes.map fun b => " " ++ Hex.byte b) ++
    String.ofList (List.replicate (3 * (16 - bytes.length)) ' ') ++
    "  |" ++ String.ofList (bytes.map dumpChar) ++ "|\n"

/-- The lines from a place in memory up to another: sixteen bytes a line until the end is reached,
so that the last line may be shorter. -/
def dumpLines (m : Memory) (start stop : Nat) : List String :=
  if start < stop then
    let next := min (start + 16) stop
    let address := UInt16.ofNat start
    dumpLine address (m.readBytes address (next - start)) :: m.dumpLines next stop
  else []
termination_by stop - start

def dump (m : Memory) (address : UInt16) (count : Nat) : String :=
  String.join (m.dumpLines address.toNat (dumpEnd address count))

end Sim6809.Memory
