import Sim6809.Listing.Decode
import Sim6809.Proofs.Processor.ProgramCounter

/-!
A processor whose bus has no handlers. It reads the memory cells and changes nothing by that, so
what it fetches and where it finds an operand follow from the cells at its program counter.
-/
namespace Sim6809.Core

variable {c : Core}

/-- A processor that no handler answers reads the memory cells. -/
theorem readByte_of_silent (silent : c.bus.readHandlers = []) (address : UInt16) :
    c.readByte address = (c.bus.memory.read address, c) := by
  rw [readByte, Bus.cpuRead_of_silent silent]
  rfl

theorem readByte_of_plain (h : c.bus.Plain) (address : UInt16) :
    c.readByte address = (c.bus.memory.read address, c) :=
  readByte_of_silent h.1 address

theorem readWord_of_silent (silent : c.bus.readHandlers = []) (address : UInt16) :
    c.readWord address = (c.bus.memory.readWord address, c) := by
  rw [readWord, Bus.cpuReadWord_of_silent silent]
  rfl

theorem readWord_of_plain (h : c.bus.Plain) (address : UInt16) :
    c.readWord address = (c.bus.memory.readWord address, c) :=
  readWord_of_silent h.1 address

theorem fetchByte_of_silent (silent : c.bus.readHandlers = []) :
    c.fetchByte = (c.bus.memory.read c.regs.pc, c.setPc (c.regs.pc + 1)) := by
  dsimp only [fetchByte]
  rw [readByte_of_silent silent]

theorem fetchByte_of_plain (h : c.bus.Plain) :
    c.fetchByte = (c.bus.memory.read c.regs.pc, c.setPc (c.regs.pc + 1)) :=
  fetchByte_of_silent h.1

theorem fetchWord_of_plain (h : c.bus.Plain) :
    c.fetchWord = (c.bus.memory.readWord c.regs.pc, c.setPc (c.regs.pc + 2)) := by
  have next : c.regs.pc + 1 + 1 = c.regs.pc + 2 := UInt16.add_assoc _ _ _
  unfold fetchWord
  rw [fetchByte_of_plain h]
  dsimp only
  rw [fetchByte_of_plain (c := c.setPc (c.regs.pc + 1)) h, ← next]
  rfl

theorem fetchOpcode_of_silent (silent : c.bus.readHandlers = []) : c.fetchOpcode =
    (Operation.readOpcode c.bus.memory c.regs.pc, c.setPc
      (c.regs.pc + UInt16.ofNat (Operation.readOpcode c.bus.memory c.regs.pc).1.opcodeLength)) := by
  unfold fetchOpcode Operation.readOpcode
  rw [fetchByte_of_silent silent]
  dsimp only
  cases prefixed : Page.ofByte? (c.bus.memory.read c.regs.pc) with
  | none => rfl
  | some page =>
      have long := (Page.prefixed_of_ofByte? prefixed).2
      have next : c.regs.pc + 1 + 1 = c.regs.pc + 2 := UInt16.add_assoc _ _ _
      dsimp only
      rw [fetchByte_of_silent (c := c.setPc (c.regs.pc + 1)) silent, long]
      exact congrArg (Prod.mk _) (congrArg c.setPc next)

theorem fetchOpcode_of_plain (h : c.bus.Plain) : c.fetchOpcode =
    (Operation.readOpcode c.bus.memory c.regs.pc, c.setPc
      (c.regs.pc + UInt16.ofNat (Operation.readOpcode c.bus.memory c.regs.pc).1.opcodeLength)) :=
  fetchOpcode_of_silent h.1

/-- Behind an opcode only the program counter has moved. -/
theorem noted_of_plain (h : c.bus.Plain) :
    (c.fetchOpcode.2.noteUndefined c.fetchOpcode.1 c.regs.pc).regs =
        { c.regs with pc := c.regs.pc + UInt16.ofNat c.fetchOpcode.1.1.opcodeLength } ∧
      (c.fetchOpcode.2.noteUndefined c.fetchOpcode.1 c.regs.pc).bus.memory = c.bus.memory ∧
      (c.fetchOpcode.2.noteUndefined c.fetchOpcode.1 c.regs.pc).bus.Plain := by
  rw [fetchOpcode_of_plain h]
  unfold noteUndefined
  split
  · exact ⟨rfl, rfl, h⟩
  · exact ⟨rfl, rfl, h⟩

/-- An instruction with a byte behind its single opcode byte works on that byte. -/
theorem located_immediate8 (h : c.bus.Plain) (mode : c.fetched.mode = .immediate8)
    (short : c.fetchOpcode.1.1 = .unprefixed) :
    c.located.1 = 0 ∧ c.located.2.regs = { c.regs with pc := c.regs.pc + 2 } ∧
      c.located.2.operandByte = (c.bus.memory.read (c.regs.pc + 1), c.located.2) ∧
      c.located.2.bus.memory = c.bus.memory ∧ c.located.2.bus.Plain := by
  obtain ⟨-, memory, quiet⟩ := noted_of_plain h
  obtain ⟨none, ea, regs⟩ := c.located_of_immediate8 mode
  have located : c.located.2.bus = (c.fetchOpcode.2.noteUndefined c.fetchOpcode.1 c.regs.pc).bus := by
    unfold Core.located
    rw [mode]
    rfl
  have next : c.regs.pc + 1 + 1 = c.regs.pc + 2 := UInt16.add_assoc _ _ _
  rw [short] at ea regs
  rw [← located] at memory quiet
  refine ⟨none, ?_, ?_, memory, quiet⟩
  · rw [← next]
    exact regs
  · unfold operandByte
    rw [readByte_of_plain quiet, memory, ea]
    rfl

/-- A processor has come from another by moving its program counter past some bytes of the
program. The memory and the condition codes are still the same. -/
structure Passed (c d : Core) (length : Nat) : Prop where
  pc : d.regs.pc = c.regs.pc + UInt16.ofNat length
  cc : d.regs.cc = c.regs.cc
  memory : d.bus.memory = c.bus.memory
  plain : d.bus.Plain

namespace Passed

theorem refl (h : c.bus.Plain) : Passed c c 0 := ⟨(UInt16.add_zero _).symm, rfl, rfl, h⟩

theorem trans {d e : Core} {m n : Nat} (first : Passed c d m) (second : Passed d e n) :
    Passed c e (m + n) where
  pc := by rw [second.pc, first.pc, UInt16.ofNat_add, UInt16.add_assoc]
  cc := second.cc.trans first.cc
  memory := second.memory.trans first.memory
  plain := second.plain

/-- The address of an operand and the log play no part. -/
theorem setEa {d : Core} {n : Nat} (h : Passed c d n) (ea : UInt16) : Passed c (d.setEa ea) n :=
  ⟨h.pc, h.cc, h.memory, h.plain⟩

theorem addRecord {d : Core} {n : Nat} (h : Passed c d n) (level : Level) (text : String) :
    Passed c (d.addRecord level text) n :=
  ⟨h.pc, h.cc, h.memory, h.plain⟩

theorem noteUndefined {d : Core} {n : Nat} (h : Passed c d n) (opcode : Page × UInt8)
    (start : UInt16) : Passed c (d.noteUndefined opcode start) n := by
  unfold Core.noteUndefined
  split
  · exact h.addRecord _ _
  · exact h

theorem noteReserved {d : Core} {n : Nat} (h : Passed c d n) (postbyte : UInt8)
    (start : UInt16) : Passed c (d.noteReserved postbyte start) n := by
  unfold Core.noteReserved
  split
  · exact h.addRecord _ _
  · exact h

end Passed

theorem passed_setPc (h : c.bus.Plain) (length : Nat) :
    Passed c (c.setPc (c.regs.pc + UInt16.ofNat length)) length :=
  ⟨rfl, rfl, rfl, h⟩

/-- The automatic index forms move their base register and no byte of the program. -/
theorem passed_setIndex (h : c.bus.Plain) (register : IndexRegister) (value : UInt16) :
    Passed c (c.setRegs (c.regs.setIndex register value)) 0 := by
  cases register with
  | x => exact ⟨(UInt16.add_zero _).symm, rfl, rfl, h⟩
  | y => exact ⟨(UInt16.add_zero _).symm, rfl, rfl, h⟩
  | u => exact ⟨(UInt16.add_zero _).symm, rfl, rfl, h⟩
  | s => exact ⟨(UInt16.add_zero _).symm, rfl, rfl, h⟩

theorem passed_indexedAddress (h : c.bus.Plain) (register : IndexRegister) (form : IndexedForm) :
    Passed c (c.indexedAddress register form).2 form.offsetLength := by
  cases form with
  | offset5 offset => exact .refl h
  | postIncrement1 => exact passed_setIndex h register _
  | postIncrement2 => exact passed_setIndex h register _
  | preDecrement1 => exact passed_setIndex h register _
  | preDecrement2 => exact passed_setIndex h register _
  | noOffset => exact .refl h
  | accumulatorB => exact .refl h
  | accumulatorA => exact .refl h
  | accumulatorD => exact .refl h
  | reserved => exact .refl h
  | offset8 =>
      unfold indexedAddress
      rw [fetchByte_of_plain h]
      exact passed_setPc h 1
  | pcRelative8 =>
      unfold indexedAddress
      rw [fetchByte_of_plain h]
      exact passed_setPc h 1
  | offset16 =>
      unfold indexedAddress
      rw [fetchWord_of_plain h]
      exact passed_setPc h 2
  | pcRelative16 =>
      unfold indexedAddress
      rw [fetchWord_of_plain h]
      exact passed_setPc h 2
  | extendedIndirect =>
      unfold indexedAddress
      rw [fetchWord_of_plain h]
      exact passed_setPc h 2

theorem passed_resolve {d : Core} {n : Nat} (h : Passed c d n) (address : UInt16)
    (decoded : IndexedPostbyte) : Passed c (d.resolve address decoded).2 n := by
  unfold resolve
  split
  · rw [readWord_of_plain h.plain]
    exact h.setEa _
  · exact h.setEa _

theorem passed_locateIndexed (h : c.bus.Plain) : Passed c c.locateIndexed.2
    (1 + (IndexedPostbyte.decode (c.bus.memory.read c.regs.pc)).offsetLength) := by
  rw [locateIndexed_eq, fetchByte_of_plain h]
  generalize c.bus.memory.read c.regs.pc = postbyte
  have fetched := (passed_setPc h 1).noteReserved postbyte c.regs.pc
  exact passed_resolve (fetched.trans (passed_indexedAddress fetched.plain _ _)) _ _

/-- The bytes of the offset that a listing shows are those that the postbyte asks for. -/
theorem length_postOperand (m : Memory) (address : UInt16) (postbyte : UInt8) :
    (PostOperand.read m address (.indexed postbyte)).bytes.length =
      (IndexedPostbyte.decode postbyte).offsetLength := by
  have bound := (IndexedPostbyte.decode postbyte).offsetLength_le
  dsimp only [PostOperand.read]
  revert bound
  generalize (IndexedPostbyte.decode postbyte).offsetLength = length
  intro bound
  match length, bound with
  | 0, _ => rfl
  | 1, _ => rfl
  | 2, _ => rfl

/-- Locating moves past the operand and its offset bytes, as a listing reads them. -/
theorem passed_locate (h : c.bus.Plain) (mode : AddressMode) (address : UInt16) :
    Passed c (c.locate mode).2 (mode.operandLength + (PostOperand.read c.bus.memory address
      (Operand.read c.bus.memory c.regs.pc mode)).bytes.length) := by
  cases mode with
  | inherent => exact .refl h
  | immediate8 => exact (passed_setPc h 1).setEa c.regs.pc
  | immediate16 => exact (passed_setPc h 2).setEa c.regs.pc
  | direct =>
      unfold locate
      rw [fetchByte_of_plain h]
      exact (passed_setPc h 1).setEa _
  | extended =>
      unfold locate
      rw [fetchWord_of_plain h]
      exact (passed_setPc h 2).setEa _
  | indexed =>
      unfold Operand.read
      rw [length_postOperand]
      exact passed_locateIndexed h
  | relative8 =>
      unfold locate
      rw [fetchByte_of_plain h]
      exact (passed_setPc h 1).setEa _
  | relative16 =>
      unfold locate
      rw [fetchWord_of_plain h]
      exact (passed_setPc h 2).setEa _

/-- A relative operand leads to its offset from the instruction behind it. -/
theorem locate_relative8_ea (h : c.bus.Plain) : (c.locate .relative8).2.cpu.ea =
    (c.locate .relative8).2.regs.pc + Word.signExtend (c.bus.memory.read c.regs.pc) := by
  unfold locate
  rw [fetchByte_of_plain h]
  rfl

theorem locate_relative16_ea (h : c.bus.Plain) : (c.locate .relative16).2.cpu.ea =
    (c.locate .relative16).2.regs.pc + c.bus.memory.readWord c.regs.pc := by
  unfold locate
  rw [fetchWord_of_plain h]
  rfl

theorem locate_immediate8_operandByte (h : c.bus.Plain) :
    (c.locate .immediate8).2.operandByte.1 = c.bus.memory.read c.regs.pc :=
  congrArg Prod.fst (readByte_of_plain (c := (c.locate .immediate8).2) h c.regs.pc)

end Sim6809.Core
