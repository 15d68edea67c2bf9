import Sim6809.Proofs.Processor.Sends

/-!
Which memory cells a step can write when no handlers are installed. An interrupt's frame comes first
and is found from S as the step begins; what the instruction writes is found from the registers and
the operand's address once the operand is located. The two are lists of addresses, which may wrap.
-/
namespace Sim6809

open Memory (below SameOutside)

/-- The instructions that write memory at all. -/
def Instruction.writesMemory : Instruction → Bool
  | store _ | storeWord _ | modify _ | push _ | bsr | lbsr | jsr | swi | swi2 | swi3 | cwai => true
  | _ => false

/-- A bus without handlers has become another one, and no cells but these were written. -/
structure Bus.Wrote (before after : Bus) (addresses : List UInt16) : Prop where
  memory : SameOutside addresses before.memory after.memory
  plain : after.Plain

namespace Bus

variable {b b' b'' : Bus} {first second : List UInt16}

theorem Wrote.refl (plain : b.Plain) : b.Wrote b [] := ⟨.refl [] _, plain⟩

theorem Wrote.trans (h : b.Wrote b' first) (k : b'.Wrote b'' second) :
    b.Wrote b'' (first ++ second) :=
  ⟨h.memory.trans k.memory, k.plain⟩

theorem wrote_cpuWrite (plain : b.Plain) (address : UInt16) (value : UInt8) :
    b.Wrote (b.cpuWrite address value) [address] := by
  rw [plain.cpuWrite]
  exact ⟨Memory.sameOutside_write _ address value, plain⟩

/-- Without handlers the bytes that the bus receives go to their cells. -/
theorem wrote_receive (plain : b.Plain) (sent : List (UInt16 × UInt8)) :
    b.Wrote (b.receive sent) (sent.map Prod.fst) := by
  induction sent generalizing b with
  | nil => exact .refl plain
  | cons first rest ih =>
      have wrote := wrote_cpuWrite plain first.1 first.2
      exact wrote.trans (ih wrote.plain)

end Bus

namespace Core

/-- The cells that an instruction can write, as the processor executes it. -/
def written (c : Core) : Instruction → List UInt16
  | .store _ | .modify _ => [c.cpu.ea]
  | .storeWord _ => [c.cpu.ea, c.cpu.ea + 1]
  | .push stack => below (c.regs.stack stack) (frameBytes (stack.selected c.operandByte.1))
  | .bsr | .lbsr | .jsr => below c.regs.s 2
  | .swi | .swi2 | .swi3 | .cwai => below c.regs.s 12
  | _ => []

/-- The cells that the entry of an interrupt stacks its frame in. -/
def stacked (c : Core) (line : InterruptLine) : List UInt16 :=
  match c.cpu.wait, line with
  | .cwaiWait, _ => []
  | _, .firq => below c.regs.s 3
  | _, _ => below c.regs.s 12

/-- The cells that a step can write by admitting an interrupt. -/
def writtenByEntry (c : Core) : List UInt16 := ((c.serves? .step).map c.stacked).getD []

/-- The cells that a step can write by its instruction, if it begins one. -/
def writtenByInstruction (c : Core) : List UInt16 :=
  (c.begins?.map fun d => d.located.2.written d.fetched.instruction).getD []

variable {c d e : Core}

theorem written_of_not_writesMemory (c : Core) {i : Instruction} (h : i.writesMemory = false) :
    c.written i = [] := by
  cases i with
  | store acc => cases h
  | storeWord register => cases h
  | modify op => cases h
  | push stack => cases h
  | bsr => cases h
  | lbsr => cases h
  | jsr => cases h
  | swi => cases h
  | swi2 => cases h
  | swi3 => cases h
  | cwai => cases h
  | _ => rfl

/-! ### Pushes -/

theorem addressed_subset_below (top : UInt16) (regs : Registers) (register : Register) :
    (addressed (top - UInt16.ofNat register.bytes) (regs.bytes register)).map Prod.fst ⊆
      below top register.bytes := by
  have nearest : top - 2 + 1 = top - 1 := by
    rw [show (2 : UInt16) = 1 + 1 from rfl, ← Memory.sub_sub_eq, UInt16.sub_add_cancel]
  unfold Registers.bytes Register.bytes
  split
  · simp [wordBytes, addressed, below, nearest, Memory.sub_sub_eq]
  · simp [addressed, below]

/-- A push of registers sends to the cells below the top of the stack. -/
theorem pushes_subset_below (regs : Registers) (top : UInt16) (rs : List Register) :
    (regs.pushes top rs).map Prod.fst ⊆ below top (frameBytes rs) := by
  induction rs with
  | nil => exact List.nil_subset _
  | cons register rs ih =>
      have parts : frameBytes (register :: rs) = frameBytes rs + register.bytes := Nat.add_comm _ _
      have first := addressed_subset_below (top - UInt16.ofNat (frameBytes rs)) regs register
      rw [Memory.sub_sub_eq, ← UInt16.ofNat_add, ← parts] at first
      rw [Registers.pushes, List.map_append, parts, Memory.below_add, ← parts]
      exact List.append_subset.mpr ⟨List.subset_append_of_subset_left _ ih,
        List.subset_append_of_subset_right _ first⟩

/-! ### Instructions -/

/-- An instruction sends to no cells but those that it is told to write. -/
theorem sentBy_subset_written (c : Core) (i : Instruction) :
    (c.sentBy i).map Prod.fst ⊆ c.written i := by
  cases i with
  | push stack => exact pushes_subset_below _ _ _
  | bsr => exact pushes_subset_below _ _ _
  | lbsr => exact pushes_subset_below _ _ _
  | jsr => exact pushes_subset_below _ _ _
  | swi => exact pushes_subset_below _ _ _
  | swi2 => exact pushes_subset_below _ _ _
  | swi3 => exact pushes_subset_below _ _ _
  | cwai => exact pushes_subset_below _ _ _
  | _ => exact List.Subset.refl _

/-- An instruction writes no cells but those that it is told to write. -/
theorem wrote_execute (plain : c.bus.Plain) (i : Instruction) :
    SameOutside (c.written i) c.bus.memory (c.execute i).2.bus.memory := by
  have received := Bus.wrote_receive plain (c.sentBy i)
  rw [(execute_bus plain.1 i).memory]
  exact received.memory.mono (c.sentBy_subset_written i)

/-! ### Steps -/

theorem sentOnEntry_subset_stacked (c : Core) (line : InterruptLine) :
    (c.sentOnEntry line).map Prod.fst ⊆ c.stacked line := by
  unfold sentOnEntry stacked
  cases c.cpu.wait with
  | cwaiWait => exact List.Subset.refl _
  | running =>
      cases line with
      | _ => exact pushes_subset_below _ _ _
  | syncWait =>
      cases line with
      | _ => exact pushes_subset_below _ _ _

theorem wrote_enter (plain : c.bus.Plain) (line : InterruptLine) :
    SameOutside (c.stacked line) c.bus.memory (c.enter line).bus.memory := by
  have received := Bus.wrote_receive plain (c.sentOnEntry line)
  rw [(enter_bus plain.1 line).memory]
  exact received.memory.mono (c.sentOnEntry_subset_stacked line)

/-- What precedes the instruction of a step writes the frame of an interrupt or nothing. -/
theorem sameOutside_roused (plain : c.bus.Plain) :
    SameOutside c.writtenByEntry c.bus.memory c.roused.bus.memory := by
  unfold writtenByEntry
  cases served : c.serves? .step with
  | none =>
      rw [roused_of_unserved served, (releaseSync_bus _).memory]
      exact .refl [] _
  | some line =>
      rw [roused_of_serves served]
      exact wrote_enter (c := c.applyRequests) plain line

theorem plain_roused (plain : c.bus.Plain) : c.roused.bus.Plain :=
  plain_stable.roused (c := c) plain

/-- What follows the entry of an interrupt writes what the instruction is told to write. -/
theorem sameOutside_step (plain : c.bus.Plain) :
    SameOutside c.writtenByInstruction c.roused.bus.memory c.step.2.bus.memory := by
  unfold writtenByInstruction
  cases begins : c.begins? with
  | none =>
      obtain ⟨cycles, stepped⟩ := step_of_unbegun begins
      rw [stepped]
      exact .refl [] _
  | some d =>
      obtain ⟨spent, stepped⟩ := step_of_begins? begins
      have same := eq_roused_of_begins? begins
      have located := passed_located (same ▸ plain_roused plain : d.bus.Plain)
      rw [stepped, conclude_bus, perform_eq, ← same, ← located.memory]
      exact wrote_execute located.plain d.fetched.instruction

/-- Without handlers a step changes no cells but those of the frame that the admission of an interrupt
stacks and those that its instruction writes, whether or not it fails. An instruction that writes no
memory leaves all of it, and no step changes the loaded image. -/
theorem step_writes_within_footprint (plain : c.bus.Plain) :
    SameOutside (c.writtenByEntry ++ c.writtenByInstruction) c.bus.memory c.step.2.bus.memory ∧
    (∀ d, c.begins? = some d → d.fetched.instruction.writesMemory = false →
      c.step.2.bus.memory = d.bus.memory ∧
        (c.serves? .step = none → c.step.2.bus.memory = c.bus.memory)) ∧
    c.step.2.bus.loaded = c.bus.loaded := by
  have entry := sameOutside_roused plain
  have instruction := sameOutside_step plain
  refine ⟨entry.trans instruction, ?_, ?_⟩
  · intro d begins reads
    have none : c.writtenByInstruction = [] := by
      unfold writtenByInstruction
      rw [begins]
      exact written_of_not_writesMemory _ reads
    rw [none] at instruction
    refine ⟨?_, ?_⟩
    · rw [instruction.eq, eq_roused_of_begins? begins]
    · intro unserved
      unfold writtenByEntry at entry
      rw [unserved] at entry
      exact instruction.eq.trans entry.eq
  · exact ((sameSetup_stable c.bus).step (Bus.SameSetup.refl c.bus)).loaded

/-- A processor near the bottom of memory before the FIRQ handler at $5000, which pushes A and X. -/
def cornered : Core where
  cpu := { Cpu.zero with
    regs := { Registers.zero with a := 0x12, x := 0x3456, s := 0x0002 }
    latches := ⟨false, false, true⟩ }
  bus := (Bus.blank.pokeWord Event.firq.vector 0x5000).pokeBytes 0x5000 [0x34, 0x12]

/-- The frame of the entry and the push of the same step wrap around address zero; a transfer leaves
the memory even where it fails. -/
theorem cornered_writes : cornered.writtenByEntry = [0x0001, 0x0000, 0xFFFF] ∧
    cornered.writtenByInstruction = [0xFFFE, 0xFFFD, 0xFFFC] ∧
    SameOutside [0x0001, 0x0000, 0xFFFF, 0xFFFE, 0xFFFD, 0xFFFC] cornered.bus.memory
      cornered.step.2.bus.memory ∧
    cornered.step.2.bus.memory.readBytes 0xFFFC 3 = [0x12, 0x34, 0x56] ∧
    (mismatched .clear).step.2.bus.memory = (mismatched .clear).bus.memory := by
  have within := (step_writes_within_footprint (c := cornered) ⟨rfl, rfl⟩).1
  have reads := (step_writes_within_footprint (c := mismatched .clear) ⟨rfl, rfl⟩).2.1
  have entry : cornered.writtenByEntry = [0x0001, 0x0000, 0xFFFF] := by rfl
  have instruction : cornered.writtenByInstruction = [0xFFFE, 0xFFFD, 0xFFFC] := by rfl
  rw [entry, instruction] at within
  exact ⟨entry, instruction, within, by rfl, (reads _ rfl rfl).2 rfl⟩

end Core
end Sim6809
