import Sim6809.Proofs.Interrupt.Stimulus
import Sim6809.Proofs.Processor.Plain

/-!
A snapshot of the registers is complete. With equal latches, wait states, memory and requests the
processor that takes over the registers goes on as the one that they come from, for as long as it
runs. The address of the last operand is not among the registers: every instruction that works on an
address locates its operand first.
-/
namespace Sim6809.Core

/-- Equal memory cells and waiting requests, on two buses without handlers. -/
structure SameSupply (b d : Bus) : Prop where
  memory : b.memory = d.memory
  requests : b.requests = d.requests
  plain : b.Plain ∧ d.Plain

/-- Equal latches, wait states, memory cells and waiting requests. The registers, the address of the
last operand, the counters, the loaded image and the log may differ. -/
structure SameSurroundings (c d : Core) : Prop where
  latches : c.cpu.latches = d.cpu.latches
  wait : c.cpu.wait = d.cpu.wait
  supply : SameSupply c.bus d.bus

/-- Equal registers in equal surroundings. -/
structure SameSnapshot (c d : Core) : Prop extends SameSurroundings c d where
  regs : c.regs = d.regs

/-- Two processors have counted the same amounts of cycles, steps and interrupts, one since it was
`a` and the other since it was `b`. -/
def CountedAlike (a b c d : Core) : Prop :=
  (∃ k, c.cpu.cycles = a.cpu.cycles + k ∧ d.cpu.cycles = b.cpu.cycles + k) ∧
    (∃ k, c.cpu.executed = a.cpu.executed + k ∧ d.cpu.executed = b.cpu.executed + k) ∧
      ∃ k, c.cpu.interrupts = a.cpu.interrupts + k ∧ d.cpu.interrupts = b.cpu.interrupts + k

variable {a b c d : Core}

/-! ### One step -/

theorem CountedAlike.refl (a b : Core) : CountedAlike a b a b :=
  ⟨⟨0, rfl, rfl⟩, ⟨0, rfl, rfl⟩, ⟨0, rfl, rfl⟩⟩

theorem CountedAlike.account (h : CountedAlike a b c d) (cycles : Nat) :
    CountedAlike a b (c.account cycles) (d.account cycles) := by
  obtain ⟨⟨spent, left, right⟩, ⟨steps, first, second⟩, interrupts⟩ := h
  refine ⟨⟨spent + cycles, ?_, ?_⟩, ⟨steps + 1, ?_, ?_⟩, interrupts⟩
  · exact (congrArg (· + cycles) left).trans (Nat.add_assoc _ _ _)
  · exact (congrArg (· + cycles) right).trans (Nat.add_assoc _ _ _)
  · exact congrArg (· + 1) first
  · exact congrArg (· + 1) second

theorem CountedAlike.countInterrupt (h : CountedAlike a b c d) :
    CountedAlike a b c.countInterrupt d.countInterrupt := by
  obtain ⟨cycles, executed, served, left, right⟩ := h
  exact ⟨cycles, executed, served + 1, congrArg (· + 1) left, congrArg (· + 1) right⟩

theorem SameSupply.cpuWrite {b d : Bus} (h : SameSupply b d) (address : UInt16) (value : UInt8) :
    SameSupply (b.cpuWrite address value) (d.cpuWrite address value) := by
  rw [h.plain.1.cpuWrite, h.plain.2.cpuWrite]
  exact ⟨congrArg (·.write address value) h.memory, h.requests, h.plain⟩

/-- Nothing that the processor does can tell apart two of them with the same snapshot. -/
theorem sameSnapshot_congruence (a b : Core) :
    StepCongruence fun c d => SameSnapshot c d ∧ CountedAlike a b c d where
  regs r := r.1.regs
  setRegs r _ := ⟨⟨⟨r.1.latches, r.1.wait, r.1.supply⟩, rfl⟩, r.2⟩
  setEa r _ := ⟨⟨⟨r.1.latches, r.1.wait, r.1.supply⟩, r.1.regs⟩, r.2⟩
  setWait r _ := ⟨⟨⟨r.1.latches, rfl, r.1.supply⟩, r.1.regs⟩, r.2⟩
  addRecord r _ _ _ :=
    ⟨⟨⟨r.1.latches, r.1.wait, ⟨r.1.supply.memory, r.1.supply.requests, r.1.supply.plain⟩⟩, r.1.regs⟩,
      r.2⟩
  readByte r address := by
    rw [readByte_of_plain r.1.supply.plain.1, readByte_of_plain r.1.supply.plain.2]
    exact ⟨congrArg (·.read address) r.1.supply.memory, r⟩
  writeByte r address value :=
    ⟨⟨⟨r.1.latches, r.1.wait, r.1.supply.cpuWrite address value⟩, r.1.regs⟩, r.2⟩
  wait r := r.1.wait
  latches r := r.1.latches
  applyRequests r :=
    ⟨⟨⟨congrArg₂ Latches.applyAll r.1.latches r.1.supply.requests, r.1.wait,
      ⟨r.1.supply.memory, rfl, r.1.supply.plain⟩⟩, r.1.regs⟩, r.2⟩
  setLine r line level :=
    ⟨⟨⟨congrArg (·.set line level) r.1.latches, r.1.wait, r.1.supply⟩, r.1.regs⟩, r.2⟩
  countInterrupt r := ⟨⟨⟨r.1.latches, r.1.wait, r.1.supply⟩, r.1.regs⟩, r.2.countInterrupt⟩
  account r cycles := ⟨⟨⟨r.1.latches, r.1.wait, r.1.supply⟩, r.1.regs⟩, r.2.account cycles⟩

/-! ### Runs -/

theorem SameSnapshot.after (h : SameSnapshot c d) (counted : CountedAlike a b c d)
    (stimulus : Stimulus) :
    SameSnapshot (c.after stimulus) (d.after stimulus) ∧
      CountedAlike a b (c.after stimulus) (d.after stimulus) := by
  have law := sameSnapshot_congruence a b
  cases stimulus with
  | step => exact (law.step ⟨h, counted⟩).2
  | change request => exact law.setLine ⟨h, counted⟩ request.line request.level
  | queue request =>
      have supply : SameSupply (c.bus.requestLine request) (d.bus.requestLine request) :=
        ⟨h.supply.memory, congrArg (· ++ [request]) h.supply.requests, h.supply.plain⟩
      exact ⟨⟨⟨h.latches, h.wait, supply⟩, h.regs⟩, counted⟩

theorem SameSnapshot.trajectory (h : SameSnapshot c d) (run : Nat → Stimulus) (n : Nat) :
    SameSnapshot (c.trajectory run n) (d.trajectory run n) ∧
      CountedAlike c d (c.trajectory run n) (d.trajectory run n) := by
  induction n with
  | zero => exact ⟨h, .refl c d⟩
  | succ n ih => exact ih.1.after ih.2 (run n)

/-- Two processors run alike: whatever number of steps they have made, and whatever was done to their
interrupt lines in between, the next step gives the same result, the snapshots, latches, wait states
and memories are equal and the counters have advanced by the same amounts. -/
def RunAlike (c d : Core) : Prop :=
  ∀ (run : Nat → Stimulus) (n : Nat),
    (c.trajectory run n).step.1 = (d.trajectory run n).step.1 ∧
      SameSnapshot (c.trajectory run n) (d.trajectory run n) ∧
      CountedAlike c d (c.trajectory run n) (d.trajectory run n)

/-- Processors with equal snapshots run alike. So the registers of one processor, restored in any
other one in equal surroundings, resume the same computation, though neither the address of the last
operand nor the counters are restored. -/
theorem run_of_snapshot :
    (∀ c d : Core, SameSnapshot c d → RunAlike c d) ∧
      ∀ c d : Core, SameSurroundings d c → RunAlike (d.setRegs c.regs) c := by
  have alike (c d : Core) (same : SameSnapshot c d) : RunAlike c d := by
    intro run n
    have reached := same.trajectory run n
    have law := sameSnapshot_congruence c d
    exact ⟨(law.step reached).1, reached⟩
  refine ⟨alike, ?_⟩
  intro c d around
  exact alike _ _ ⟨⟨around.latches, around.wait, around.supply⟩, rfl⟩

/-- A processor with `LDA #$80`, `NEGA` and `STA $1000` before it, and with an operand's address and
counts that an earlier program left. -/
def leftover (regs : Registers) (ea : UInt16) (count : Nat) : Core where
  cpu := { Cpu.zero with regs, ea, cycles := count, executed := count, interrupts := count }
  bus := Bus.blank.pokeBytes 0 [0x86, 0x80, 0x40, 0xB7, 0x10, 0x00]

theorem leftover_resumed :
    let steps := fun _ : Nat => Stimulus.step
    let fresh := leftover .zero 0 0
    let restored := (leftover { Registers.zero with x := 1, pc := 4 } 0xBEEF 7).setRegs .zero
    (fresh.trajectory steps 3).bus.memory.read 0x1000 = 0x80 ∧
      (restored.trajectory steps 3).bus.memory.read 0x1000 = 0x80 ∧
      RunAlike (leftover .zero 0x1234 5) fresh := by
  intro steps fresh restored
  have stored : (fresh.trajectory steps 3).bus.memory.read 0x1000 = 0x80 := by decide +kernel
  have alike : RunAlike restored fresh :=
    run_of_snapshot.2 fresh _ ⟨rfl, rfl, rfl, rfl, ⟨rfl, rfl⟩, rfl, rfl⟩
  have equal := (alike steps 3).2.1.supply.memory
  refine ⟨stored, ?_, run_of_snapshot.1 _ _ ⟨⟨rfl, rfl, rfl, rfl, ⟨rfl, rfl⟩, rfl, rfl⟩, rfl⟩⟩
  rw [equal]
  exact stored

end Sim6809.Core
