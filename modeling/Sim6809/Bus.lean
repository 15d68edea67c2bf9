import Sim6809.Interrupt
import Sim6809.Log
import Sim6809.Memory
import Sim6809.Text.Hex

/-!
The memory bus. The processor's reads and writes run the handlers installed at an address; the
debugger's never do. A handler of the host is any function of what such handlers keep, the memory
cells and the byte. It reaches the cells, the queue of line requests and the log, but neither the
image that a reset brings back nor the handlers themselves.
-/
namespace Sim6809

inductive Master
  | cpu | debugger
  deriving DecidableEq, Repr

/-- What handlers of the host keep from one call to the next, as numbers. Nothing else looks at
them. -/
abbrev HostState := List Nat

/-- What a handler of the host leaves behind: the memory, further line requests, log records and
what it keeps. -/
structure Reaction where
  memory : Memory
  requests : List LineRequest
  records : List Record
  host : HostState

/-- Gives the byte that the processor sees in place of the stored one. -/
structure ReadHandler where
  react : HostState → Memory → UInt8 → UInt8 × Reaction

inductive WriteHandler
  /-- A handler of the host, which tells whether the written byte is to be stored. -/
  | hosted (react : HostState → Memory → UInt8 → Bool × Reaction)
  | console
  /-- Acknowledges the timer by a byte with bit 0 set, and never stores. -/
  | timerStatus
  | timerControl

/-- Handlers by address, the latest first. -/
abbrev Handlers (α : Type) := List (UInt16 × α)

namespace Handlers

def find? {α : Type} (handlers : Handlers α) (address : UInt16) : Option α :=
  List.lookup address handlers

def insert {α : Type} (handlers : Handlers α) (address : UInt16) (handler : α) : Handlers α :=
  (address, handler) :: handlers.filter (·.1 != address)

end Handlers

/-- The memory with its handlers and what those of the host keep, the waiting line requests (oldest
first), and the collected output: the console's bytes and the log. -/
structure Bus where
  memory : Memory
  /-- The image that a reset brings back. -/
  loaded : Memory
  readHandlers : Handlers ReadHandler
  writeHandlers : Handlers WriteHandler
  requests : List LineRequest
  console : Array UInt8
  host : HostState
  log : Log

namespace Bus

def blank : Bus := ⟨.blank, .blank, [], [], [], #[], [], #[]⟩

def addRecord (bus : Bus) (level : Level) (text : String) : Bus :=
  { bus with log := bus.log.push ⟨level, text⟩ }

/-- A passive read. -/
def peek (bus : Bus) (address : UInt16) : UInt8 := bus.memory.read address

/-- A passive read of a big-endian word. -/
def peekWord (bus : Bus) (address : UInt16) : UInt16 := bus.memory.readWord address

/-- A passive write. -/
def poke (bus : Bus) (address : UInt16) (value : UInt8) : Bus :=
  { bus with memory := bus.memory.write address value }

/-- A passive write of a big-endian word. -/
def pokeWord (bus : Bus) (address value : UInt16) : Bus :=
  { bus with memory := bus.memory.writeWord address value }

/-- Passive writes from an address on, wrapping at the top. -/
def pokeBytes (bus : Bus) (address : UInt16) (bytes : List UInt8) : Bus :=
  { bus with memory := bus.memory.writeBytes address bytes }

def requestLine (bus : Bus) (request : LineRequest) : Bus :=
  { bus with requests := bus.requests ++ [request] }

def nextRequest (bus : Bus) : Option LineRequest × Bus :=
  match bus.requests with
  | [] => (none, bus)
  | request :: rest => (some request, { bus with requests := rest })

/-- The bus after a handler of the host. Its requests wait behind those that were there. -/
def settle (bus : Bus) (reaction : Reaction) : Bus :=
  { bus with
    memory := reaction.memory
    requests := bus.requests ++ reaction.requests
    log := bus.log.appendList reaction.records
    host := reaction.host }

def cpuRead (bus : Bus) (address : UInt16) : UInt8 × Bus :=
  let stored := bus.peek address
  match bus.readHandlers.find? address with
  | none => (stored, bus)
  | some handler =>
    let (value, reaction) := handler.react bus.host bus.memory stored
    (value, bus.settle reaction)

def handleWrite (bus : Bus) (address : UInt16) (value : UInt8) : WriteHandler → Bus
  | .hosted react =>
    let (stores, reaction) := react bus.host bus.memory value
    if stores then (bus.settle reaction).poke address value else bus.settle reaction
  | .console => { bus with console := bus.console.push value }.poke address value
  | .timerStatus =>
    if value &&& 1 = 0 then bus
    else (bus.poke address (bus.peek address &&& 0xFE)).requestLine (.deassert .irq)
  | .timerControl =>
    (bus.addRecord .debug (if value &&& 1 = 0 then "timer disabled" else "timer enabled")).poke
      address value

/-- The processor's write: its handler decides, and without one the byte is stored. -/
def cpuWrite (bus : Bus) (address : UInt16) (value : UInt8) : Bus :=
  match bus.writeHandlers.find? address with
  | none => bus.poke address value
  | some handler => bus.handleWrite address value handler

def read (bus : Bus) : Master → UInt16 → UInt8 × Bus
  | .cpu, address => bus.cpuRead address
  | .debugger, address => (bus.peek address, bus)

def write (bus : Bus) : Master → UInt16 → UInt8 → Bus
  | .cpu, address, value => bus.cpuWrite address value
  | .debugger, address, value => bus.poke address value

def cpuReadWord (bus : Bus) (address : UInt16) : UInt16 × Bus :=
  let (high, bus) := bus.cpuRead address
  let (low, bus) := bus.cpuRead (address + 1)
  (Word.join high low, bus)

def cpuWriteWord (bus : Bus) (address value : UInt16) : Bus :=
  (bus.cpuWrite address (Word.hi value)).cpuWrite (address + 1) (Word.lo value)

/-- What a write through a read-only view does: the byte is dropped and the attempt logged. -/
def dropWrite (bus : Bus) (address : UInt16) : Bus :=
  bus.addRecord .debug
    ("dropped write to $" ++ Hex.word address ++ " through a read-only bus view")

/-- Fills both images with zero and the given bytes from an address on; bytes past the top are
dropped. -/
def loadImage (bus : Bus) (image : Array UInt8) (start : UInt16) : Bus :=
  let memory := Memory.ofFn fun address =>
    if address < start then 0 else image.getD (address.toNat - start.toNat) 0
  { bus with memory, loaded := memory }

/-- Makes the working memory the image that a reset brings back. -/
def capture (bus : Bus) : Bus := { bus with loaded := bus.memory }

def reset (bus : Bus) : Bus := { bus with memory := bus.loaded, requests := [] }

def hasHandler (bus : Bus) (address : UInt16) : Bool :=
  (bus.readHandlers.find? address).isSome || (bus.writeHandlers.find? address).isSome

def addReadHandler (bus : Bus) (address : UInt16) (handler : ReadHandler) : Bus :=
  let bus :=
    if (bus.readHandlers.find? address).isSome then
      bus.addRecord .debug ("replaced read handler at $" ++ Hex.word address)
    else bus
  { bus with readHandlers := bus.readHandlers.insert address handler }

def addWriteHandler (bus : Bus) (address : UInt16) (handler : WriteHandler) : Bus :=
  let bus :=
    if (bus.writeHandlers.find? address).isSome then
      bus.addRecord .debug ("replaced write handler at $" ++ Hex.word address)
    else bus
  { bus with writeHandlers := bus.writeHandlers.insert address handler }

/-- No handler is installed anywhere. -/
def Plain (bus : Bus) : Prop := bus.readHandlers = [] ∧ bus.writeHandlers = []

/-- A bus whose handlers answer no reads is read as its memory cells. -/
theorem cpuRead_of_silent {bus : Bus} (silent : bus.readHandlers = []) (address : UInt16) :
    bus.cpuRead address = (bus.peek address, bus) := by
  simp [Bus.cpuRead, silent, Handlers.find?]

theorem cpuReadWord_of_silent {bus : Bus} (silent : bus.readHandlers = []) (address : UInt16) :
    bus.cpuReadWord address = (bus.peekWord address, bus) := by
  simp [Bus.cpuReadWord, cpuRead_of_silent silent, peekWord, Memory.readWord, peek]

theorem Plain.cpuWrite {bus : Bus} (h : bus.Plain) (address : UInt16) (value : UInt8) :
    bus.cpuWrite address value = bus.poke address value := by
  simp [Bus.cpuWrite, h.2, Handlers.find?]

theorem Plain.cpuWriteWord {bus : Bus} (h : bus.Plain) (address value : UInt16) :
    bus.cpuWriteWord address value = bus.pokeWord address value := by
  rw [Bus.cpuWriteWord, h.cpuWrite]
  exact @Plain.cpuWrite (bus.poke address _) h (address + 1) (Word.lo value)

end Bus
end Sim6809
