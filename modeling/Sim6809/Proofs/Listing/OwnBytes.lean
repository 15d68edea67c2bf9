import Sim6809.Proofs.Listing.Agreement
import Sim6809.Proofs.Memory.Bytes

/-!
An operation of a listing depends on its own bytes and on nothing else. Each part is read from the
bytes that it is written with, and how many these are follows from the parts before it. So the same
bytes give the same operation in every memory, at every address and on every machine, although the
processor would look at registers and at other cells to locate the operand.
-/
namespace Sim6809

/-! ### Parts -/

section Parts

variable {m n : Memory} {a b : UInt16}

theorem Operation.readOpcode_congr (same : n.readBytes b (readOpcode m a).1.opcodeLength =
      m.readBytes a (readOpcode m a).1.opcodeLength) : readOpcode n b = readOpcode m a := by
  unfold readOpcode at same ⊢
  cases prefixed : Page.ofByte? (m.read a) with
  | none =>
      rw [prefixed] at same
      have first : n.read b = m.read a := Memory.read_of_readBytes same
      rw [first, prefixed]
  | some page =>
      rw [prefixed] at same
      dsimp only at same
      rw [(Page.prefixed_of_ofByte? prefixed).2] at same
      have first : n.read b = m.read a := Memory.read_of_readBytes same
      have second : n.read (b + 1) = m.read (a + 1) :=
        Memory.read_of_readBytes (k := 0) (List.cons.inj same).2
      rw [first, prefixed]
      exact congrArg (Prod.mk page) second

theorem Operand.read_congr {mode : AddressMode}
    (same : n.readBytes b mode.operandLength = m.readBytes a mode.operandLength) :
    Operand.read n b mode = Operand.read m a mode := by
  cases mode with
  | inherent => rfl
  | immediate8 => exact congrArg immediate8 (Memory.read_of_readBytes same)
  | immediate16 => exact congrArg immediate16 (Memory.readWord_of_readBytes same)
  | direct => exact congrArg direct (Memory.read_of_readBytes same)
  | extended => exact congrArg extended (Memory.readWord_of_readBytes same)
  | indexed => exact congrArg indexed (Memory.read_of_readBytes same)
  | relative8 => exact congrArg relative8 (Memory.read_of_readBytes same)
  | relative16 => exact congrArg relative16 (Memory.readWord_of_readBytes same)

theorem PostOperand.read_congr {operand : Operand}
    (same : n.readBytes b (PostOperand.read m a operand).bytes.length =
      m.readBytes a (PostOperand.read m a operand).bytes.length) :
    PostOperand.read n b operand = PostOperand.read m a operand := by
  cases operand with
  | indexed postbyte =>
      have bound := (IndexedPostbyte.decode postbyte).offsetLength_le
      rw [Core.length_postOperand] at same
      dsimp only [PostOperand.read]
      revert bound same
      generalize (IndexedPostbyte.decode postbyte).offsetLength = length
      intro same bound
      match length, bound with
      | 0, _ => rfl
      | 1, _ => exact congrArg byte (Memory.read_of_readBytes same)
      | 2, _ => exact congrArg word (Memory.readWord_of_readBytes same)
  | _ => rfl

end Parts

/-! ### The whole operation -/

namespace Operation

variable {m n : Memory} {a b : UInt16}

theorem read_operand : (read m a).operand =
    Operand.read m (read m a).operandAddress (read m a).mode := rfl

theorem read_postOperand : (read m a).postOperand = PostOperand.read m
    ((read m a).operandAddress + UInt16.ofNat (read m a).mode.operandLength)
    (read m a).operand := rfl

theorem endAddress_eq : (read m a).endAddress = a + UInt16.ofNat (read m a).passedLength := by
  unfold endAddress operandAddress passedLength
  rw [UInt16.ofNat_add, UInt16.ofNat_add, ← UInt16.add_assoc, ← UInt16.add_assoc]
  rfl

theorem mode_of_swi2 (call : (read m a).instruction = .swi2) : (read m a).mode = .inherent :=
  Opcode.mode_of_mode? (read m a).page (read m a).opcode
    ((congrArg Instruction.mode? call).trans rfl)

theorem operandLength_add_le (m : Memory) (start rest : UInt16) (mode : AddressMode) :
    mode.operandLength +
      (PostOperand.read m rest (Operand.read m start mode)).bytes.length ≤ 3 := by
  cases mode with
  | indexed =>
      unfold Operand.read
      rw [Core.length_postOperand]
      exact Nat.add_le_add_left (IndexedPostbyte.offsetLength_le _) 1
  | _ => simp [AddressMode.operandLength, Operand.read, PostOperand.read, PostOperand.bytes]

theorem one_le_length : 1 ≤ (read m a).length := by
  have opcode : 1 ≤ (read m a).page.opcodeLength := by
    cases (read m a).page with
    | unprefixed => exact Nat.le_refl 1
    | page10 => exact Nat.le_succ 1
    | page11 => exact Nat.le_succ 1
  unfold length passedLength
  omega

/-- The longest operations have a prefix and an indexed operand with a word of offset. -/
theorem length_le_five : (read m a).length ≤ 5 := by
  have opcode : (read m a).page.opcodeLength ≤ 2 := by
    cases (read m a).page with
    | unprefixed => exact Nat.le_succ 1
    | page10 => exact Nat.le_refl 2
    | page11 => exact Nat.le_refl 2
  unfold length passedLength
  split
  · rename_i call
    rw [read_postOperand, read_operand, mode_of_swi2 call]
    exact Nat.add_le_add_right (Nat.le_trans opcode (by decide : 2 ≤ 4)) 1
  · have operand := operandLength_add_le m (read m a).operandAddress
      ((read m a).operandAddress + UInt16.ofNat (read m a).mode.operandLength) (read m a).mode
    rw [← read_operand, ← read_postOperand] at operand
    omega

theorem toNat_size : (read m a).size.toNat = (read m a).length := by
  have small : (read m a).length < 65536 := Nat.lt_of_le_of_lt length_le_five (by decide)
  rw [read_size]
  exact UInt16.toNat_ofNat_of_lt small

theorem read_bytes : (read m a).bytes = m.readBytes a (read m a).length :=
  congrArg (m.readBytes a) (length_read m a)

/-- The size is how far the end lies behind the start, with the number of a system call on top. -/
theorem size_eq_sub : (read m a).endAddress +
    (if (read m a).instruction = .swi2 then 1 else 0) - a = (read m a).size := by
  rw [read_size, endAddress_eq, length, UInt16.ofNat_add, UInt16.add_assoc, UInt16.add_comm a,
    UInt16.add_sub_cancel]
  split
  · rfl
  · rfl

/-- Only an indexed operand has bytes of offset, which follow its postbyte. -/
theorem postOperand_behind (m : Memory) (start : UInt16) (mode : AddressMode) :
    PostOperand.read m (start + 1) (Operand.read m start mode) =
      PostOperand.read m (start + UInt16.ofNat mode.operandLength)
        (Operand.read m start mode) := by
  cases mode with
  | indexed => rfl
  | _ => rfl

attribute [ext] Operation

/-- The same bytes make the same operation, wherever they stand. -/
theorem read_congr (same : n.readBytes b (read m a).length = m.readBytes a (read m a).length) :
    read n b = { read m a with offset := b } := by
  obtain ⟨passed, numbered⟩ := Memory.readBytes_parts same
  obtain ⟨coded, located⟩ := Memory.readBytes_parts passed
  obtain ⟨direct, offset⟩ := Memory.readBytes_parts located
  have opcode : readOpcode n b = readOpcode m a := readOpcode_congr coded
  have page : (read n b).page = (read m a).page := congrArg Prod.fst opcode
  have byte : (read n b).opcode = (read m a).opcode := congrArg Prod.snd opcode
  have instruction : (read n b).instruction = (read m a).instruction :=
    congrArg (fun opcode : Page × UInt8 => (Opcode.lookup opcode.1 opcode.2).instruction) opcode
  have mode : (read n b).mode = (read m a).mode :=
    congrArg (fun opcode : Page × UInt8 => (Opcode.lookup opcode.1 opcode.2).mode) opcode
  have operand : (read n b).operand = (read m a).operand := by
    rw [read_operand, operandAddress, page, mode]
    exact Operand.read_congr direct
  have postOperand : (read n b).postOperand = (read m a).postOperand := by
    rw [read_postOperand, operandAddress, page, mode, operand]
    exact PostOperand.read_congr offset
  have passedLength : (read n b).passedLength = (read m a).passedLength := by
    unfold Operation.passedLength
    rw [page, mode, postOperand]
  have length : (read n b).length = (read m a).length := by
    unfold Operation.length
    rw [passedLength, instruction]
  have os9Call : (read n b).os9Call = (read m a).os9Call := by
    rw [read_os9Call, read_os9Call, instruction, endAddress_eq, endAddress_eq, passedLength]
    split
    · rename_i call
      rw [if_pos call] at numbered
      exact congrArg some (Memory.read_of_readBytes (k := 0) numbered)
    · rfl
  have size : (read n b).size = (read m a).size := by
    rw [read_size, read_size, length]
  have bytes : (read n b).bytes = (read m a).bytes := by
    rw [read_bytes, read_bytes, length, same]
  exact Operation.ext rfl rfl page byte instruction mode operand postOperand size bytes os9Call rfl

/-- Labels come from the symbols and the operation alone. -/
theorem withLabels_congr (op : Operation) {symbols others : SymbolTable}
    (labels : ∀ address, others.label address = symbols.label address) :
    op.withLabels others = op.withLabels symbols := by
  simp only [withLabels, labels]

end Operation

/-! ### The machine that shows it -/

namespace Monitor

/-- A copy of the processor that looks at an address: only its program counter is set, and its bus
shows the memory without handlers. -/
def scout (m : Monitor) (address : UInt16) : Core where
  cpu := { m.cpu with regs := { m.core.regs with pc := address } }
  bus := { m.bus with readHandlers := [], writeHandlers := [] }

/-- The operation at an address as the copy comes across it. The copy fetches the opcode and locates
the operand by its registers and through memory, and the operation ends where that leaves its program
counter. -/
def scoutedOperation (m : Monitor) (address : UInt16) : Operation :=
  let fetched := (m.scout address).fetchOpcode
  let entry := Opcode.lookup fetched.1.1 fetched.1.2
  let operand := Operand.read m.memory fetched.2.regs.pc entry.mode
  let located := (m.scout address).located.2
  let os9Call :=
    if entry.instruction = .swi2 then some (m.memory.read located.regs.pc) else none
  let size := located.regs.pc + (if entry.instruction = .swi2 then 1 else 0) - address
  Operation.withLabels
    { label := ""
      offset := address
      page := fetched.1.1
      opcode := fetched.1.2
      instruction := entry.instruction
      mode := entry.mode
      operand
      postOperand := PostOperand.read m.memory (fetched.2.regs.pc + 1) operand
      size
      bytes := m.memory.readBytes address size.toNat
      os9Call
      targetLabel := "" } m.symbols

theorem plain_scout (m : Monitor) (address : UInt16) : (m.scout address).bus.Plain := ⟨rfl, rfl⟩

theorem scout_fetchOpcode (m : Monitor) (address : UInt16) :
    (m.scout address).fetchOpcode.1 = Operation.readOpcode m.memory address ∧
      (m.scout address).fetchOpcode.2.regs.pc =
        (Operation.read m.memory address).operandAddress := by
  rw [Core.fetchOpcode_of_plain (m.plain_scout address)]
  exact ⟨rfl, rfl⟩

theorem scout_located_pc (m : Monitor) (address : UInt16) :
    (m.scout address).located.2.regs.pc = (Operation.read m.memory address).endAddress := by
  rw [Operation.endAddress_eq]
  exact (Core.passed_located (m.plain_scout address)).pc

/-- Whatever the copy does to locate the operand, it leaves no trace in the operation. -/
theorem scoutedOperation_eq (m : Monitor) (address : UInt16) :
    m.scoutedOperation address = m.disassemble address := by
  obtain ⟨opcode, start⟩ := m.scout_fetchOpcode address
  have size := Operation.size_eq_sub (m := m.memory) (a := address)
  unfold scoutedOperation
  dsimp only
  rw [opcode, start, m.scout_located_pc address]
  apply congrArg (Operation.withLabels · m.symbols)
  refine Operation.ext rfl rfl rfl rfl rfl rfl rfl ?_ size ?_ rfl rfl
  · exact Operation.postOperand_behind _ _ _
  · rw [Operation.read_bytes, ← Operation.toNat_size, ← size]
    rfl

/-- The operation at an address depends on the bytes that it takes, which may wrap at the top of
memory, and on the labels. The processors of the two machines and all other cells may differ, those
included through which an operand is located. -/
theorem disassemble_of_ownBytes {m n : Monitor} {address : UInt16}
    (labels : ∀ a, n.symbols.label a = m.symbols.label a)
    (own : ∀ i < (m.disassemble address).size.toNat,
      n.memory.read (address + UInt16.ofNat i) = m.memory.read (address + UInt16.ofNat i)) :
    n.disassemble address = m.disassemble address ∧
      n.scoutedOperation address = m.disassemble address := by
  have size : (m.disassemble address).size.toNat = (Operation.read m.memory address).length :=
    Operation.toNat_size
  rw [size] at own
  have same : n.disassemble address = m.disassemble address := by
    unfold disassemble Operation.decode
    rw [Operation.read_congr (Memory.readBytes_congr own)]
    exact Operation.withLabels_congr _ labels
  exact ⟨same, (n.scoutedOperation_eq address).trans same⟩

/-- A machine with a load through the word that X points to. The operation wraps at the top of
memory. -/
def indirectLoad (wait : WaitState) (x target : UInt16) : Monitor :=
  blank.setCore {
    cpu := { Cpu.zero with regs := { Registers.zero with x }, wait }
    bus := (Bus.blank.pokeBytes 0xFFFF [0xA6, 0x94]).pokeWord x target }

theorem indirectLoad_shown :
    ((indirectLoad .running 0x1000 0x2000).disassemble 0xFFFF).bytes = [0xA6, 0x94] ∧
      (indirectLoad .cwaiWait 0x3000 0x4000).disassemble 0xFFFF =
        (indirectLoad .running 0x1000 0x2000).disassemble 0xFFFF ∧
      (indirectLoad .cwaiWait 0x3000 0x4000).scoutedOperation 0xFFFF =
        (indirectLoad .running 0x1000 0x2000).disassemble 0xFFFF := by
  have two : ((indirectLoad .running 0x1000 0x2000).disassemble 0xFFFF).size.toNat = 2 := by rfl
  refine ⟨by rfl, disassemble_of_ownBytes (fun _ => rfl) ?_⟩
  rw [two]
  decide +kernel

end Monitor
end Sim6809
