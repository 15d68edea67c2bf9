import Sim6809.Proofs.Processor.Step

/-!
Equality of processors up to what they only leave behind for a reader: the log. Nothing reads it
back, so processors that are equal but for it step alike, whatever the handlers on their bus are.
-/
namespace Sim6809

namespace Bus

/-- Equal buses, but for the log. -/
structure SameState (b d : Bus) : Prop where
  memory : b.memory = d.memory
  loaded : b.loaded = d.loaded
  readHandlers : b.readHandlers = d.readHandlers
  writeHandlers : b.writeHandlers = d.writeHandlers
  requests : b.requests = d.requests
  console : b.console = d.console
  host : b.host = d.host

namespace SameState

theorem refl (b : Bus) : SameState b b := ⟨rfl, rfl, rfl, rfl, rfl, rfl, rfl⟩

variable {b d e : Bus}

theorem symm (h : SameState b d) : SameState d b :=
  ⟨h.memory.symm, h.loaded.symm, h.readHandlers.symm, h.writeHandlers.symm, h.requests.symm,
    h.console.symm, h.host.symm⟩

theorem trans (h : SameState b d) (k : SameState d e) : SameState b e :=
  ⟨h.memory.trans k.memory, h.loaded.trans k.loaded, h.readHandlers.trans k.readHandlers,
    h.writeHandlers.trans k.writeHandlers, h.requests.trans k.requests,
    h.console.trans k.console, h.host.trans k.host⟩

/-- What either log is told does not matter. -/
theorem addRecord (h : SameState b d) {level level' : Level} {text text' : String} :
    SameState (b.addRecord level text) (d.addRecord level' text') :=
  ⟨h.memory, h.loaded, h.readHandlers, h.writeHandlers, h.requests, h.console, h.host⟩

theorem peek (h : SameState b d) (address : UInt16) : b.peek address = d.peek address := by
  unfold Bus.peek
  rw [h.memory]

theorem poke (h : SameState b d) (address : UInt16) (value : UInt8) :
    SameState (b.poke address value) (d.poke address value) :=
  ⟨congrArg (·.write address value) h.memory, h.loaded, h.readHandlers, h.writeHandlers,
    h.requests, h.console, h.host⟩

theorem requestLine (h : SameState b d) (request : LineRequest) :
    SameState (b.requestLine request) (d.requestLine request) :=
  ⟨h.memory, h.loaded, h.readHandlers, h.writeHandlers, congrArg (· ++ [request]) h.requests,
    h.console, h.host⟩

theorem settle (h : SameState b d) (reaction : Reaction) :
    SameState (b.settle reaction) (d.settle reaction) :=
  ⟨rfl, h.loaded, h.readHandlers, h.writeHandlers, congrArg (· ++ reaction.requests) h.requests,
    h.console, rfl⟩

/-- A handler is given the same on equal buses, so it does the same on them. -/
theorem cpuRead (h : SameState b d) (address : UInt16) :
    (b.cpuRead address).1 = (d.cpuRead address).1 ∧
      SameState (b.cpuRead address).2 (d.cpuRead address).2 := by
  dsimp only [Bus.cpuRead]
  rw [h.peek, h.readHandlers, h.host, h.memory]
  cases d.readHandlers.find? address with
  | none => exact ⟨rfl, h⟩
  | some handler => exact ⟨rfl, h.settle _⟩

theorem handleWrite (h : SameState b d) (address : UInt16) (value : UInt8)
    (handler : WriteHandler) :
    SameState (b.handleWrite address value handler) (d.handleWrite address value handler) := by
  cases handler with
  | hosted react =>
      dsimp only [Bus.handleWrite]
      rw [h.host, h.memory]
      split
      · exact (h.settle _).poke address value
      · exact h.settle _
  | console =>
      have sent : SameState { b with console := b.console.push value }
          { d with console := d.console.push value } :=
        ⟨h.memory, h.loaded, h.readHandlers, h.writeHandlers, h.requests,
          congrArg (·.push value) h.console, h.host⟩
      exact sent.poke address value
  | timerStatus =>
      dsimp only [Bus.handleWrite]
      rw [h.peek]
      split
      · exact h
      · exact (h.poke address _).requestLine _
  | timerControl => exact h.addRecord.poke address value

theorem cpuWrite (h : SameState b d) (address : UInt16) (value : UInt8) :
    SameState (b.cpuWrite address value) (d.cpuWrite address value) := by
  unfold Bus.cpuWrite
  rw [h.writeHandlers]
  cases d.writeHandlers.find? address with
  | none => exact h.poke address value
  | some handler => exact h.handleWrite address value handler

end SameState
end Bus

namespace Core

/-- Equal processors with buses that are equal but for the log. -/
structure SameState (c d : Core) : Prop where
  cpu : c.cpu = d.cpu
  bus : Bus.SameState c.bus d.bus

namespace SameState

theorem refl (c : Core) : SameState c c := ⟨rfl, .refl c.bus⟩

variable {c d e : Core}

theorem symm (h : SameState c d) : SameState d c := ⟨h.cpu.symm, h.bus.symm⟩

theorem trans (h : SameState c d) (k : SameState d e) : SameState c e :=
  ⟨h.cpu.trans k.cpu, h.bus.trans k.bus⟩

end SameState

theorem sameState_congruence : StepCongruence SameState where
  regs r := congrArg Cpu.regs r.cpu
  setRegs r regs := ⟨congrArg (fun cpu : Cpu => { cpu with regs }) r.cpu, r.bus⟩
  setEa r ea := ⟨congrArg (fun cpu : Cpu => { cpu with ea }) r.cpu, r.bus⟩
  setWait r wait := ⟨congrArg (fun cpu : Cpu => { cpu with wait }) r.cpu, r.bus⟩
  addRecord r _ _ _ := ⟨r.cpu, r.bus.addRecord⟩
  readByte r address :=
    ⟨(r.bus.cpuRead address).1, r.cpu, (r.bus.cpuRead address).2⟩
  writeByte r address value := ⟨r.cpu, r.bus.cpuWrite address value⟩
  wait r := congrArg Cpu.wait r.cpu
  latches r := congrArg Cpu.latches r.cpu
  applyRequests := by
    intro c d r
    have latches : c.cpu.latches.applyAll c.bus.requests =
        d.cpu.latches.applyAll d.bus.requests := by
      rw [r.cpu, r.bus.requests]
    refine ⟨?_, r.bus.memory, r.bus.loaded, r.bus.readHandlers, r.bus.writeHandlers, rfl,
      r.bus.console, r.bus.host⟩
    unfold Core.applyRequests
    rw [latches, r.cpu]
  setLine r line level :=
    ⟨congrArg (fun cpu : Cpu => { cpu with latches := cpu.latches.set line level }) r.cpu, r.bus⟩
  countInterrupt r :=
    ⟨congrArg (fun cpu : Cpu => { cpu with interrupts := cpu.interrupts + 1 }) r.cpu, r.bus⟩
  account r cycles :=
    ⟨congrArg (fun cpu : Cpu =>
      { cpu with cycles := cpu.cycles + cycles, executed := cpu.executed + 1 }) r.cpu, r.bus⟩

end Core
end Sim6809
