import Sim6809.Proofs.Arithmetic.Number
import Sim6809.Proofs.Processor.Calls
import Sim6809.Proofs.Processor.ConditionCodes

/-!
The steps of a computation on long numbers. Byte by byte it loads, combines and stores, and between two
bytes nothing has to stay but the carry. What a step leaves in the accumulator and the condition codes
holds on any bus; where there are no handlers, the bytes that are stored lie in memory in the end.
-/
namespace Sim6809

/-- The number of the first bytes, the lowest first. -/
def bytesNumber (byte : Nat → UInt8) (n : Nat) : Nat := number 256 (fun k => (byte k).toNat) n

/-- The number in some cells of a memory, the lowest byte first. -/
def Memory.number (m : Memory) (cell : Nat → UInt16) (n : Nat) : Nat :=
  bytesNumber (fun k => m.read (cell k)) n

namespace Registers

theorem acc_setIndex (acc : Accumulator) (r : Registers) (i : IndexRegister) (value : UInt16) :
    (r.setIndex i value).acc acc = r.acc acc := by
  cases acc <;> cases i <;> rfl

theorem d_setIndex (r : Registers) (i : IndexRegister) (value : UInt16) :
    (r.setIndex i value).d = r.d := by
  cases i with
  | x => rfl
  | y => rfl
  | u => rfl
  | s => rfl

end Registers

namespace Bus

variable {bus : Bus} {address : UInt16}

theorem Plain.hasHandler (h : bus.Plain) (address : UInt16) : bus.hasHandler address = false := by
  unfold Bus.hasHandler
  rw [h.1, h.2]
  rfl

/-- Where there are no handlers the processor reads and writes the cell. -/
theorem cpuRead_of_unhandled (free : bus.hasHandler address = false) :
    bus.cpuRead address = (bus.peek address, bus) := by
  have missing := Option.not_isSome_iff_eq_none.mp
    (Bool.not_eq_true _ ▸ (Bool.or_eq_false_iff.mp free).1)
  unfold cpuRead
  rw [missing]

theorem cpuWrite_of_unhandled (free : bus.hasHandler address = false) (value : UInt8) :
    bus.cpuWrite address value = bus.poke address value := by
  have missing := Option.not_isSome_iff_eq_none.mp
    (Bool.not_eq_true _ ▸ (Bool.or_eq_false_iff.mp free).2)
  unfold cpuWrite
  rw [missing]

end Bus

namespace Core

variable {c d : Core} {acc : Accumulator} {i : Instruction} {operand : UInt8}

/-- The processor after a number of steps. -/
def stepped (c : Core) (n : Nat) : Core := (fun d => d.step.2)^[n] c

/-- A step admits no interrupt and executes an instruction, which begins with the processor as given. -/
structure Undertakes (c : Core) (i : Instruction) (d : Core) : Prop where
  unserved : c.serves? .step = none
  begins : c.begins? = some d
  instruction : d.fetched.instruction = i

/-- A step executes an instruction that reads the given byte as its operand. -/
def Takes (c : Core) (i : Instruction) (operand : UInt8) : Prop :=
  ∃ d, c.Undertakes i d ∧ d.located.2.operandByte.1 = operand

/-- A step executes an instruction that reads the given word as its operand. -/
def TakesWord (c : Core) (i : Instruction) (operand : UInt16) : Prop :=
  ∃ d, c.Undertakes i d ∧ d.located.2.operandWord.1 = operand

/-- A step executes an instruction whose operand lies at the given address. -/
def WorksAt (c : Core) (i : Instruction) (address : UInt16) : Prop :=
  ∃ d, c.Undertakes i d ∧ d.located.2.cpu.ea = address

/-- A step executes an instruction whose operand lies at an address without handlers, and changes no
memory until then. -/
def WorksInMemory (c : Core) (i : Instruction) (address : UInt16) : Prop :=
  ∃ d, c.Undertakes i d ∧ d.located.2.cpu.ea = address ∧
    d.located.2.bus.hasHandler address = false ∧ d.located.2.bus.memory = c.bus.memory

namespace Undertakes

theorem regs (h : c.Undertakes i d) : d.regs = c.regs := by
  rw [eq_roused_of_begins? h.begins, roused_regs_of_unserved h.unserved]

theorem cc (h : c.Undertakes i d) : d.located.2.regs.cc = c.regs.cc := by
  rw [located_cc, h.regs]

theorem accumulator (h : c.Undertakes i d) (acc : Accumulator) :
    d.located.2.regs.acc acc = c.regs.acc acc := by
  have moved (r : Registers) (pc : UInt16) : { r with pc }.acc acc = r.acc acc := by
    cases acc with
    | a => rfl
    | b => rfl
  rw [located_part (Registers.acc · acc) moved (Registers.acc_setIndex acc), h.regs]

theorem word (h : c.Undertakes i d) : d.located.2.regs.d = c.regs.d := by
  rw [located_part Registers.d (fun _ _ => rfl) Registers.d_setIndex, h.regs]

/-- Without handlers an instruction finds the memory as it was before the step. -/
theorem memory (h : c.Undertakes i d) (plain : c.bus.Plain) :
    d.located.2.bus.memory = c.bus.memory ∧ d.located.2.bus.Plain := by
  have begun := begun_of_unserved plain h.unserved h.begins
  obtain ⟨-, -, memory, quiet⟩ := located_decoded begun.plain
  exact ⟨memory.trans begun.memory, quiet⟩

theorem step (h : c.Undertakes i d) {extra : Nat} (ok : (d.located.2.execute i).1 = .ok extra) :
    (∃ cycles, c.step.1 = .ok cycles) ∧ c.step.2.regs = (d.located.2.execute i).2.regs ∧
      c.step.2.bus = (d.located.2.execute i).2.bus := by
  obtain ⟨unserved, begins, rfl⟩ := h
  obtain ⟨cycles, regs, bus⟩ := step_of_ok begins ok
  exact ⟨⟨_, cycles⟩, regs, bus⟩

end Undertakes

/-! ### What a step leaves in an accumulator -/

/-- A step succeeds and leaves a byte in an accumulator, and these condition codes. -/
structure Leaves (c : Core) (acc : Accumulator) (result : UInt8 × Flags) : Prop where
  succeeds : ∃ cycles, c.step.1 = .ok cycles
  acc : c.step.2.regs.acc acc = result.1
  cc : c.step.2.regs.cc = result.2

theorem Undertakes.leaves {e : Core} {result : UInt8 × Flags} (h : c.Undertakes i d)
    (executed : d.located.2.execute i = (.ok 0, e.setResult acc result)) : c.Leaves acc result := by
  obtain ⟨ok, regs, -⟩ := h.step (congrArg Prod.fst executed)
  rw [executed] at regs
  refine ⟨ok, ?_, ?_⟩
  · rw [regs]
    cases acc with
    | a => rfl
    | b => rfl
  · rw [regs]
    rfl

theorem Undertakes.leaves_word {e : Core} {result : UInt16 × Flags} (h : c.Undertakes i d)
    (executed : d.located.2.execute i = (.ok 0, e.setResultD result)) :
    (∃ cycles, c.step.1 = .ok cycles) ∧ c.step.2.regs.d = result.1 ∧
      c.step.2.regs.cc = result.2 := by
  obtain ⟨ok, regs, -⟩ := h.step (congrArg Prod.fst executed)
  rw [executed] at regs
  refine ⟨ok, ?_, ?_⟩
  · rw [regs]
    exact e.regs.d_setD result.1
  · rw [regs]
    rfl

theorem leaves_load (h : c.Takes (.load acc) operand) :
    c.Leaves acc (operand, Alu.logic8 c.regs.cc operand) := by
  obtain ⟨d, begun, rfl⟩ := h
  rw [← begun.cc]
  exact begun.leaves rfl

theorem leaves_byteOp {op : ByteOp} (h : c.Takes (.byteOp op acc) operand) :
    c.Leaves acc (Alu.byteOp op c.regs.cc (c.regs.acc acc) operand) := by
  obtain ⟨d, begun, rfl⟩ := h
  rw [← begun.cc, ← begun.accumulator]
  exact begun.leaves rfl

theorem leaves_unary {op : UnaryOp} (h : c.Undertakes (.unary op acc) d) :
    c.Leaves acc (Alu.unary op c.regs.cc (c.regs.acc acc)) := by
  rw [← h.cc, ← h.accumulator]
  exact h.leaves rfl

theorem leaves_daa (h : c.Undertakes .daa d) : c.Leaves .a (Alu.daa c.regs.cc (c.regs.acc .a)) := by
  rw [← h.cc, ← h.accumulator]
  exact h.leaves rfl

/-- A store keeps the accumulator, and its byte goes to the bus. -/
theorem leaves_store (h : c.Undertakes (.store acc) d) :
    c.Leaves acc (c.regs.acc acc, Alu.logic8 c.regs.cc (c.regs.acc acc)) ∧
      c.step.2.bus = d.located.2.bus.cpuWrite d.located.2.cpu.ea (c.regs.acc acc) := by
  obtain ⟨ok, regs, bus⟩ := h.step rfl
  rw [← h.cc, ← h.accumulator]
  refine ⟨⟨ok, ?_, ?_⟩, bus⟩
  · rw [regs]
    cases acc with
    | a => rfl
    | b => rfl
  · rw [regs]
    rfl

theorem carry_load (h : c.Takes (.load acc) operand) :
    c.step.2.regs.cc.carry = c.regs.cc.carry := by
  rw [(leaves_load h).cc]
  rfl

theorem carry_store {address : UInt16} (h : c.WorksAt (.store acc) address) :
    c.step.2.regs.cc.carry = c.regs.cc.carry := by
  obtain ⟨d, begun, -⟩ := h
  rw [(leaves_store begun).1.cc]
  rfl

/-- A load and then an operation on the accumulator leave the result for the two operands. The carry
into the operation is that before the load. -/
theorem leaves_loaded {op : ByteOp} {l r : UInt8} (load : c.Takes (.load acc) l)
    (combine : (c.stepped 1).Takes (.byteOp op acc) r) :
    (c.stepped 1).Leaves acc (Alu.byteOp op (c.stepped 1).regs.cc l r) ∧
      (c.stepped 1).regs.cc.carry = c.regs.cc.carry := by
  have loaded : (c.stepped 1).regs.acc acc = l := (leaves_load load).acc
  have done := leaves_byteOp combine
  rw [loaded] at done
  exact ⟨done, carry_load load⟩

/-- The carry into a place: none into the lowest one, and into another one what is left of the place
below it. -/
def carryInto (after : Nat → Core) : Nat → Bool
  | 0 => false
  | k + 1 => (after k).regs.cc.carry

/-! ### What a step leaves in memory -/

theorem plain_stepped (plain : c.bus.Plain) (n : Nat) : (c.stepped n).bus.Plain := by
  induction n generalizing c with
  | zero => exact plain
  | succ n ih => exact ih (plain_stable.step plain)

/-- Without handlers only some instructions write. -/
theorem Undertakes.unwritten (h : c.Undertakes i d) (plain : c.bus.Plain)
    (reads : i.writesMemory = false) : c.step.2.bus.memory = c.bus.memory := by
  have begun := begun_of_unserved plain h.unserved h.begins
  have same := sameOutside_step plain
  unfold writtenByInstruction at same
  rw [h.begins, ← eq_roused_of_begins? h.begins] at same
  simp only [Option.map_some, Option.getD_some, h.instruction] at same
  rw [written_of_not_writesMemory _ reads] at same
  exact same.eq.trans begun.memory

theorem Takes.memory (h : c.Takes i operand) (plain : c.bus.Plain)
    (reads : i.writesMemory = false) : c.step.2.bus.memory = c.bus.memory := by
  obtain ⟨d, begun, -⟩ := h
  exact begun.unwritten plain reads

/-- A load and an operation on the accumulator leave the memory alone. -/
theorem memory_loaded {op : ByteOp} {l r : UInt8} (load : c.Takes (.load acc) l)
    (combine : (c.stepped 1).Takes (.byteOp op acc) r) (plain : c.bus.Plain) :
    (c.stepped 2).bus.memory = c.bus.memory :=
  (combine.memory (plain_stepped plain 1) rfl).trans (load.memory plain rfl)

theorem memory_store {address : UInt16} (h : c.WorksAt (.store acc) address)
    (plain : c.bus.Plain) :
    c.step.2.bus.memory = c.bus.memory.write address (c.regs.acc acc) := by
  obtain ⟨d, begun, rfl⟩ := h
  obtain ⟨memory, quiet⟩ := begun.memory plain
  rw [(leaves_store begun).2, quiet.cpuWrite, ← memory]
  rfl

/-- If there are no handlers at all, every operand lies in such memory. -/
theorem WorksAt.inMemory {address : UInt16} (h : c.WorksAt i address) (plain : c.bus.Plain) :
    c.WorksInMemory i address := by
  obtain ⟨d, begun, operand⟩ := h
  obtain ⟨memory, quiet⟩ := begun.memory plain
  exact ⟨d, begun, operand, quiet.hasHandler address, memory⟩

/-- An operation on a byte in memory replaces it, and leaves the condition codes of the operation. -/
structure Modifies (c : Core) (op : UnaryOp) (address : UInt16) : Prop where
  succeeds : ∃ cycles, c.step.1 = .ok cycles
  memory : c.step.2.bus.memory = c.bus.memory.write address
    (Alu.unary op c.regs.cc (c.bus.memory.read address)).1
  cc : c.step.2.regs.cc = (Alu.unary op c.regs.cc (c.bus.memory.read address)).2

theorem modify_of_unhandled (free : c.bus.hasHandler c.cpu.ea = false) (op : UnaryOp) :
    c.modify op =
      (c.setFlags (Alu.unary op c.regs.cc (c.bus.memory.read c.cpu.ea)).2).writeByte c.cpu.ea
        (Alu.unary op c.regs.cc (c.bus.memory.read c.cpu.ea)).1 := by
  unfold modify operandByte readByte
  rw [Bus.cpuRead_of_unhandled free]
  rfl

theorem modifies_of_worksInMemory {op : UnaryOp} {address : UInt16}
    (h : c.WorksInMemory (.modify op) address) : c.Modifies op address := by
  obtain ⟨d, begun, rfl, free, memory⟩ := h
  have executed : (d.located.2.execute (.modify op)).1 = .ok 0 := rfl
  obtain ⟨ok, regs, bus⟩ := begun.step executed
  change c.step.2.regs = (d.located.2.modify op).regs at regs
  change c.step.2.bus = (d.located.2.modify op).bus at bus
  rw [modify_of_unhandled free, begun.cc, memory] at regs bus
  refine ⟨ok, ?_, ?_⟩
  · rw [bus, ← memory]
    exact congrArg Bus.memory (Bus.cpuWrite_of_unhandled free _)
  · rw [regs]
    rfl

/-! ### Rounds -/

/-- Rounds of steps, each with a cell of its own. From the end of a round to the beginning of the next
one these cells keep their bytes. -/
structure Rounds (cell : Nat → UInt16) (n : Nat) (before after : Nat → Core) : Prop where
  apart : ∀ j ≤ n, ∀ k ≤ n, j ≠ k → cell j ≠ cell k
  kept : ∀ k < n, ∀ j ≤ n,
    (before (k + 1)).bus.memory.read (cell j) = (after k).bus.memory.read (cell j)

section Rounds

variable {cell : Nat → UInt16} {n j k : Nat} {before after : Nat → Core} {byte : Nat → UInt8}

/-- A cell keeps its byte until its round. -/
theorem Rounds.unwritten (h : Rounds cell n before after)
    (writes : ∀ k ≤ n, (after k).bus.memory = (before k).bus.memory.write (cell k) (byte k))
    (coming : k ≤ j) (last : j ≤ n) :
    (before k).bus.memory.read (cell j) = (before 0).bus.memory.read (cell j) := by
  -- By induction on the rounds so far: each writes its own cell, and between them all are kept.
  induction k with
  | zero => rfl
  | succ k ih =>
      have other : cell j ≠ cell k := h.apart j last k (by omega) (by omega)
      rw [h.kept k (by omega) j last, writes k (by omega), Memory.read_write_of_ne _ _ other]
      exact ih (by omega)

/-- A cell keeps the byte that its round has written. -/
theorem Rounds.written (h : Rounds cell n before after)
    (writes : ∀ k ≤ n, (after k).bus.memory = (before k).bus.memory.write (cell k) (byte k))
    (past : j ≤ k) (last : k ≤ n) : (after k).bus.memory.read (cell j) = byte j := by
  induction k, past using Nat.le_induction with
  | base => rw [writes j last, Memory.read_write_self]
  | succ k past ih =>
      have other : cell j ≠ cell (k + 1) := h.apart j (by omega) (k + 1) last (by omega)
      rw [writes (k + 1) last, Memory.read_write_of_ne _ _ other, h.kept k (by omega) j (by omega)]
      exact ih (by omega)

/-- In a program without jumps nothing happens between the rounds. -/
theorem rounds_of_straight (c : Core) (length : Nat)
    (apart : ∀ j ≤ n, ∀ k ≤ n, j ≠ k → cell j ≠ cell k) :
    Rounds cell n (fun k => c.stepped (length * k))
      (fun k => (c.stepped (length * k)).stepped length) where
  apart := apart
  kept k _ j _ := by
    have next : c.stepped (length * (k + 1)) = (c.stepped (length * k)).stepped length := by
      rw [Nat.mul_succ, Nat.add_comm]
      exact Function.iterate_add_apply _ _ _ c
    rw [next]

end Rounds
end Core
end Sim6809
