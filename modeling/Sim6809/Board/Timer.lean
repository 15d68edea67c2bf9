import Sim6809.Bus

/-!
The interval timer. Its two registers are memory cells: bit 0 of the control register lets time
pass and routes the timer to IRQ, bit 0 of the status register tells that it has fired until the
processor acknowledges it.
-/
namespace Sim6809

/-- The period in cycles, the cycles since the last period ended, and how often the timer fired. The
last stands for a counter of 64 bits, as the counts of the processor do. -/
structure Timer where
  period : UInt64
  elapsed : UInt64
  fired : Nat
  deriving DecidableEq, Repr

namespace Timer

def statusAddress : UInt16 := 0xFF02

def controlAddress : UInt16 := 0xFF03

def defaultPeriod : UInt64 := 1000

/-- A timer that has not run; a period of zero is taken for one cycle. -/
def new (period : UInt64) : Timer := ⟨max period 1, 0, 0⟩

def install (bus : Bus) : Bus :=
  (bus.addWriteHandler statusAddress .timerStatus).addWriteHandler controlAddress .timerControl

def reset (t : Timer) : Timer := { t with elapsed := 0, fired := 0 }

def isEnabled (bus : Bus) : Bool := bus.peek controlAddress &&& 1 != 0

def fire (t : Timer) (bus : Bus) : Timer × Bus :=
  let bus := bus.poke statusAddress (bus.peek statusAddress ||| 1)
  ({ t with fired := t.fired + 1 },
    if isEnabled bus then bus.requestLine (.assert .irq) else bus)

/-- Lets cycles pass; true if the timer fired. A disabled timer starts anew, and an enabled one
fires at most once however many periods have passed. The sum of the cycles has 64 bits. -/
def advance (t : Timer) (bus : Bus) (cycles : UInt64) : Bool × Timer × Bus :=
  if !isEnabled bus then (false, { t with elapsed := 0 }, bus)
  else if t.elapsed + cycles < t.period then (false, { t with elapsed := t.elapsed + cycles }, bus)
  else
    let t := { t with elapsed := (t.elapsed + cycles) % t.period }
    (true, t.fire bus)

end Timer
end Sim6809
