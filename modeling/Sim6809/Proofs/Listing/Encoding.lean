import Sim6809.Proofs.Listing.OwnBytes

/-!
Decoding loses nothing. The parts of an operation, written out one after the other with words high
byte first, are the bytes that it takes in memory, which may wrap at the top. Put at any other
address, these bytes decode to the same operation again.
-/
namespace Sim6809

/-- The addressing mode that has operands of a kind. -/
def Operand.mode : Operand → AddressMode
  | none => .inherent
  | immediate8 _ => .immediate8
  | immediate16 _ => .immediate16
  | direct _ => .direct
  | extended _ => .extended
  | indexed _ => .indexed
  | relative8 _ => .relative8
  | relative16 _ => .relative16

/-- The bytes of offset that an operand asks for; only the postbyte of an indexed one does. -/
def Operand.offsetLength : Operand → Nat
  | indexed postbyte => (IndexedPostbyte.decode postbyte).offsetLength
  | _ => 0

namespace Operation

/-- The parts of an operation as an assembler writes them. -/
def encoding (op : Operation) : List UInt8 :=
  op.page.prefixByte?.toList ++ [op.opcode] ++ (op.operand.bytes ++ op.postOperand.bytes) ++
    op.os9Call.toList

/-- An operation of a listing is what memory holds at its address: nothing of these bytes is lost,
and their number and kind are those that the addressing mode and the postbyte announce. -/
structure Encodes (op : Operation) (m : Memory) : Prop where
  encoding : op.encoding = op.bytes
  bytes : op.bytes = m.readBytes op.offset op.size.toNat
  length : op.bytes.length = op.size.toNat
  positive : 1 ≤ op.size.toNat
  short : op.size.toNat ≤ 5
  operand : op.operand.mode = op.mode
  postOperand : op.postOperand.bytes.length = op.operand.offsetLength

end Operation

/-! ### Parts -/

section Parts

variable (m : Memory) (a : UInt16)

theorem Memory.wordBytes_readWord : wordBytes (m.readWord a) = m.readBytes a 2 := by
  simp [wordBytes, readWord, readBytes]

theorem Operation.readOpcode_bytes :
    (readOpcode m a).1.prefixByte?.toList ++ [(readOpcode m a).2] =
      m.readBytes a (readOpcode m a).1.opcodeLength := by
  unfold readOpcode
  cases prefixed : Page.ofByte? (m.read a) with
  | none => rfl
  | some page =>
      obtain ⟨first, two⟩ := Page.prefixed_of_ofByte? prefixed
      dsimp only
      rw [first, two]
      rfl

theorem Operand.bytes_read (mode : AddressMode) :
    (Operand.read m a mode).bytes = m.readBytes a mode.operandLength := by
  cases mode with
  | inherent => rfl
  | immediate8 => rfl
  | direct => rfl
  | indexed => rfl
  | relative8 => rfl
  | immediate16 => exact m.wordBytes_readWord a
  | extended => exact m.wordBytes_readWord a
  | relative16 => exact m.wordBytes_readWord a

theorem Operand.mode_read (mode : AddressMode) : (Operand.read m a mode).mode = mode := by
  cases mode with
  | _ => rfl

theorem PostOperand.length_bytes_read (operand : Operand) :
    (PostOperand.read m a operand).bytes.length = operand.offsetLength := by
  cases operand with
  | indexed postbyte => exact Core.length_postOperand m a postbyte
  | _ => rfl

theorem PostOperand.bytes_read (operand : Operand) :
    (PostOperand.read m a operand).bytes = m.readBytes a operand.offsetLength := by
  cases operand with
  | indexed postbyte =>
      have bound := (IndexedPostbyte.decode postbyte).offsetLength_le
      dsimp only [PostOperand.read, Operand.offsetLength]
      revert bound
      generalize (IndexedPostbyte.decode postbyte).offsetLength = length
      intro bound
      match length, bound with
      | 0, _ => rfl
      | 1, _ => rfl
      | 2, _ => exact m.wordBytes_readWord a
  | _ => rfl

end Parts

/-! ### The whole operation -/

namespace Operation

variable (m : Memory) (a : UInt16)

theorem encoding_read : (read m a).encoding = (read m a).bytes := by
  have opcode : (read m a).page.prefixByte?.toList ++ [(read m a).opcode] =
      m.readBytes a (read m a).page.opcodeLength := readOpcode_bytes m a
  have call : (read m a).os9Call.toList = m.readBytes (read m a).endAddress
      (if (read m a).instruction = .swi2 then 1 else 0) := by
    rw [read_os9Call]
    split
    · rfl
    · rfl
  have located : (read m a).operand.bytes ++ (read m a).postOperand.bytes =
      m.readBytes (read m a).operandAddress
        ((read m a).mode.operandLength + (read m a).postOperand.bytes.length) := by
    rw [Memory.readBytes_add, read_postOperand, PostOperand.length_bytes_read,
      ← PostOperand.bytes_read, read_operand, Operand.bytes_read]
  rw [read_bytes, length, Memory.readBytes_add, ← endAddress_eq, ← call, passedLength,
    Memory.readBytes_add, ← opcode]
  unfold encoding
  rw [located]
  rfl

theorem encodes_read : (read m a).Encodes m where
  encoding := encoding_read m a
  bytes := by rw [toNat_size]; exact read_bytes
  length := by rw [read_bytes, Memory.length_readBytes, toNat_size]
  positive := toNat_size.symm ▸ one_le_length
  short := toNat_size.symm ▸ length_le_five
  operand := Operand.mode_read _ _ _
  postOperand := PostOperand.length_bytes_read _ _ _

/-- A load of Y through a word behind the program counter takes most bytes. -/
example : (read (Memory.blank.writeBytes 0xFFFE [0x10, 0xAE, 0x9D, 0x12, 0x34]) 0xFFFE).encoding =
    [0x10, 0xAE, 0x9D, 0x12, 0x34] := by rfl

variable {m a}

/-- Labels are no part of what is written. -/
theorem Encodes.withLabels {op : Operation} (h : op.Encodes m) (symbols : SymbolTable) :
    (op.withLabels symbols).Encodes m :=
  ⟨h.encoding, h.bytes, h.length, h.positive, h.short, h.operand, h.postOperand⟩

end Operation

/-- Put at another address, the bytes of an operation are read as the same operation. -/
theorem Operation.read_writeBytes (m n : Memory) (address other : UInt16) :
    read (n.writeBytes other (read m address).bytes) other =
      { read m address with offset := other } := by
  apply read_congr
  have small : (read m address).bytes.length + 0 ≤ 65536 := by
    rw [read_bytes, Memory.length_readBytes]
    exact Nat.le_trans length_le_five (by decide)
  have written := Memory.readBytes_writeBytes (a := other) n small
  rw [Memory.readBytes, List.append_nil, Nat.add_zero, read_bytes, Memory.length_readBytes]
    at written
  rw [read_bytes]
  exact written

/-- New labels take the place of the old ones. -/
theorem Operation.withLabels_moved (op : Operation) (symbols others : SymbolTable)
    (other : UInt16) :
    ({ op.withLabels symbols with offset := other } : Operation).withLabels others =
      ({ op with offset := other } : Operation).withLabels others := rfl

/-- In every memory and at every address the monitor shows an operation that encodes what is there.
Its bytes, put at any other address of any machine, are shown there as the same operation, with the
labels that are in force there. -/
theorem Monitor.disassemble_encodes (m : Monitor) (address : UInt16) :
    (m.disassemble address).offset = address ∧
    (m.disassemble address).Encodes m.memory ∧
    ∀ (n : Monitor) (other : UInt16),
      (n.setBus (n.bus.pokeBytes other (m.disassemble address).bytes)).disassemble other =
        ({ m.disassemble address with offset := other } : Operation).withLabels n.symbols := by
  refine ⟨rfl, (Operation.encodes_read m.memory address).withLabels m.symbols, ?_⟩
  intro n other
  unfold disassemble Operation.decode
  rw [Operation.withLabels_moved, ← Operation.read_writeBytes m.memory n.memory]
  rfl

end Sim6809
