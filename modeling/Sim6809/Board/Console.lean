import Sim6809.Bus

/-!
The console. Every byte that the processor writes to its address is sent as a character, in the
order of the writes, and stays there to be taken.
-/
namespace Sim6809.Console

def address : UInt16 := 0xFF00

def install (bus : Bus) : Bus := bus.addWriteHandler address .console

def output (bus : Bus) : String := String.ofList (bus.console.toList.map Char.ofUInt8)

def clear (bus : Bus) : Bus := { bus with console := #[] }

def take (bus : Bus) : String × Bus := (output bus, clear bus)

end Sim6809.Console
