import Sim6809.Files
import Sim6809.Listing.Decode
import Sim6809.Listing.Syntax
import Sim6809.Processor.Step

/-!
The monitor: a processor with its memory, the symbols of the program in it, a cached window of its
listing and the trace of what it executes. Listing and tracing never change the machine.
-/
namespace Sim6809

inductive LoadError
  | unreadable (reason : ReadError)
  | emptyImage
  | imageTooLarge (size : Nat)
  deriving DecidableEq, Repr

def LoadError.message : LoadError → String
  | unreadable reason => "I/O error: " ++ reason.message
  | emptyImage => "image is empty"
  | imageTooLarge size =>
    "image is " ++ toString size ++ " bytes, larger than the 64K address space"

structure Monitor where
  core : Core
  symbols : SymbolTable
  window : List Operation
  /-- Whether trace lines go to a receiver of their own; else they go to the log. -/
  receiver : Bool
  received : Array String
  tracing : Bool

namespace Monitor

def defaultVectors : List (Event × UInt16) :=
  [(.swi3, 0x0100), (.swi2, 0x0103), (.firq, 0x010F), (.irq, 0x010C), (.swi, 0x0106), (.nmi, 0x0109),
    (.reset, 0x0000)]

def blank : Monitor where
  core :=
    let bus := defaultVectors.foldl (fun bus (event, target) => bus.pokeWord event.vector target)
      Bus.blank
    { cpu := .zero, bus := bus.capture : Core }.reset
  symbols := .empty
  window := []
  receiver := false
  received := #[]
  tracing := true

def cpu (m : Monitor) : Cpu := m.core.cpu

def bus (m : Monitor) : Bus := m.core.bus

def memory (m : Monitor) : Memory := m.core.bus.memory

def pc (m : Monitor) : UInt16 := m.core.regs.pc

def setCore (m : Monitor) (core : Core) : Monitor := { m with core }

def setBus (m : Monitor) (bus : Bus) : Monitor := m.setCore { m.core with bus }

def addRecord (m : Monitor) (level : Level) (text : String) : Monitor :=
  m.setCore (m.core.addRecord level text)

def addRecords (m : Monitor) (records : List Record) : Monitor :=
  m.setBus { m.bus with log := m.bus.log.appendList records }

/-- Replaces the symbols; the cached window is dropped, as its labels may have changed. -/
def setSymbols (m : Monitor) (symbols : SymbolTable) : Monitor := { m with symbols, window := [] }

def reset (m : Monitor) : Monitor :=
  { m with core := { m.core with bus := m.bus.reset }.reset, window := [] }

/-- Puts an image at the top of memory and resets; a rejected image changes nothing. -/
def load (m : Monitor) (image : Array UInt8) : Except LoadError Unit × Monitor :=
  if image.size = 0 then (.error .emptyImage, m)
  else if Memory.size < image.size then (.error (.imageTooLarge image.size), m)
  else
    let start := UInt16.ofNat (Memory.size - image.size)
    let m := m.setBus (m.bus.loadImage image start)
    let text := "loaded " ++ toString image.size ++ " bytes at $" ++ Hex.word start
    (.ok (), (m.addRecord .debug text).reset)

/-- The symbols that the map beside an image defines, with the records that reading it makes. A map
that cannot be read defines none. -/
def readSymbols (files : Files) (path : String) : SymbolTable × List Record :=
  match files.readText path with
  | .ok text =>
    let table := SymbolTable.parse text.toList
    (table, SymbolTable.complaints text.toList ++
      [⟨.debug, "loaded " ++ toString table.size ++ " symbols from " ++ path⟩])
  | .error .notFound => (.empty, [⟨.debug, "no symbol file at " ++ path⟩])
  | .error reason =>
    (.empty, [⟨.warn, "could not read symbol file " ++ path ++ ": " ++ reason.message⟩])

/-- Loads an image file and the map beside it. The records of the map's reading are kept even if
the image is then rejected. -/
def loadFile (m : Monitor) (files : Files) (path : String) : Except LoadError Unit × Monitor :=
  match files.readBytes path with
  | .error reason => (.error (.unreadable reason), m)
  | .ok image =>
    let (symbols, records) := readSymbols files (Path.withExtension path "map")
    let m := m.addRecords records
    match m.load image with
    | (.error e, m) => (.error e, m)
    | (.ok (), m) => (.ok (), m.setSymbols symbols)

def disassemble (m : Monitor) (address : UInt16) : Operation :=
  Operation.decode m.memory m.symbols address

def addComplaints (m : Monitor) (ops : List Operation) : Monitor :=
  m.addRecords (ops.filterMap Operation.complaint?)

def disassembleRange (m : Monitor) (start : UInt16) (count : Nat) : List Operation :=
  m.memory.listing m.symbols start.toNat count

/-- Whether an address lies between the first and the last operation of a window. -/
def inWindow (window : List Operation) (address : UInt16) : Bool :=
  match window.head?, window.getLast? with
  | some first, some last => first.offset ≤ address && address ≤ last.offset
  | _, _ => false

/-- The window around the program counter. The cached one is used as long as the program counter
lies in it; else a new one begins there. -/
def showWindow (m : Monitor) (count : Nat) : List Operation × Monitor :=
  if inWindow m.window m.pc then (m.window, m)
  else
    let window := m.disassembleRange m.pc count
    (window, { m.addComplaints window with window })

def traceWidth : Nat := 60

def traceLine (text : String) (regs : Registers) : String :=
  Text.column traceWidth text ++ regs.line

def addTrace (m : Monitor) (line : String) : Monitor :=
  if m.receiver then { m with received := m.received.push line } else m.addRecord .trace line

/-- The operation that the next step is expected to execute: none while the processor waits. -/
def upcoming? (m : Monitor) : Option Operation :=
  if m.cpu.isWaiting then none else some (m.disassemble m.pc)

/-- One step, and the operation that was at the program counter before it. A step is traced unless
the processor goes on waiting. -/
def step (m : Monitor) : Except Fault (Option Operation) × Monitor :=
  let wasWaiting := m.cpu.isWaiting
  let op? := m.upcoming?
  let m := m.addComplaints op?.toList
  match m.core.step with
  | (.error fault, core) => (.error fault, m.setCore core)
  | (.ok _, core) =>
    let m := m.setCore core
    if m.tracing && !(wasWaiting && m.cpu.isWaiting) then
      let text := match op? with
        | some op => op.line
        | none => ""
      (.ok op?, m.addTrace (traceLine text m.core.regs))
    else (.ok op?, m)

end Monitor
end Sim6809
