import Sim6809.Board.Run
import Sim6809.Text.Rounded

/-!
Reports of finished runs: what the user sees of a run, and its speed.
-/
namespace Sim6809

structure RunSummary where
  reason : String
  instructions : Nat
  pc : String
  registers : String
  console : String
  deriving DecidableEq, Repr

def RunSummary.of (outcome : RunOutcome) (b : Board) : RunSummary where
  reason := outcome.reason.describe
  instructions := outcome.steps
  pc := Hex.word b.pc
  registers := b.monitor.core.regs.listing
  console := Console.output b.bus

structure RunTime where
  instructions : Nat
  nanoseconds : Nat
  deriving DecidableEq, Repr

namespace RunTime

/-- The time in seconds: whole seconds and the fraction are converted one by one. -/
def seconds (t : RunTime) : Float :=
  (t.nanoseconds / 1000000000).toFloat + (t.nanoseconds % 1000000000).toFloat / 1e9

def speed (t : RunTime) : Float :=
  if 0 < t.seconds then t.instructions.toFloat / t.seconds else 0

def speedBits (t : RunTime) : String := Hex.padZeros 16 (Hex.upper t.speed.toBits.toNat)

def wholeSpeed (t : RunTime) : Nat := Rounded.nearest t.speed.toBits

end RunTime
end Sim6809
