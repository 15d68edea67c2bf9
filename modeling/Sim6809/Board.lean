import Sim6809.Board.Console
import Sim6809.Board.Timer
import Sim6809.Monitor

/-!
The board: a monitored processor with a console and an interval timer on its bus. The cycles of
each step drive the timer while it is ticking.
-/
namespace Sim6809

structure Board where
  monitor : Monitor
  timer : Timer
  ticking : Bool

namespace Board

def new (period : UInt64) : Board where
  monitor :=
    let m := Monitor.blank
    m.setBus (Timer.install (Console.install m.bus))
  timer := .new period
  ticking := true

def bus (b : Board) : Bus := b.monitor.bus

def cpu (b : Board) : Cpu := b.monitor.cpu

def pc (b : Board) : UInt16 := b.monitor.pc

def setMonitor (b : Board) (monitor : Monitor) : Board := { b with monitor }

def setBus (b : Board) (bus : Bus) : Board := b.setMonitor (b.monitor.setBus bus)

def resetDevices (b : Board) : Board := { b.setBus (Console.clear b.bus) with timer := b.timer.reset }

/-- Loads an image and resets everything; a rejected image changes nothing. -/
def load (b : Board) (image : Array UInt8) : Except LoadError Unit × Board :=
  match b.monitor.load image with
  | (.error e, m) => (.error e, b.setMonitor m)
  | (.ok (), m) => (.ok (), (b.setMonitor m).resetDevices)

def loadFile (b : Board) (files : Files) (path : String) : Except LoadError Unit × Board :=
  match b.monitor.loadFile files path with
  | (.error e, m) => (.error e, b.setMonitor m)
  | (.ok (), m) =>
    let b := (b.setMonitor m).resetDevices
    let text := "loaded " ++ path ++ " (" ++ toString m.symbols.size ++ " symbols)"
    (.ok (), b.setMonitor (b.monitor.addRecord .info text))

def reset (b : Board) : Board := (b.setMonitor b.monitor.reset).resetDevices

def fireTimer (b : Board) : Board :=
  let (timer, bus) := b.timer.fire b.bus
  { b.setBus bus with timer }

def advanceTimer (b : Board) (cycles : Nat) : Board :=
  let (_, timer, bus) := b.timer.advance b.bus (.ofNat cycles)
  { b.setBus bus with timer }

/-- One step; the timer sees the cycles that it took. -/
def step (b : Board) : Except Fault (Option Operation) × Board :=
  match b.monitor.step with
  | (.error fault, m) => (.error fault, b.setMonitor m)
  | (.ok op, m) =>
    let after := b.setMonitor m
    (.ok op, if b.ticking then after.advanceTimer (m.cpu.cycles - b.cpu.cycles) else after)

end Board
end Sim6809
