import Sim6809.Proofs.Processor.Fault
import Sim6809.Proofs.Word.Integer

/-!
Effective addresses. Without handlers the place of an operand is a formula over integers in the
registers and the memory, taken modulo 65536. To locate the operand moves the program counter past it
and, in the automatic forms, one index register; nothing else changes.
-/
namespace Sim6809

namespace Memory

/-- The byte at an address that is given as an integer. -/
def byteAt (m : Memory) (address : Int) : Int := (m.read (.ofInt address)).toNat

/-- The big-endian word in the bytes at an address and at the next one. -/
def wordAt (m : Memory) (address : Int) : Int := 256 * m.byteAt address + m.byteAt (address + 1)

theorem byteAt_toNat (m : Memory) (a : UInt16) : m.byteAt a.toNat = (m.read a).toNat := by
  unfold byteAt
  rw [Word.ofInt_toNat]

theorem ofInt_wordAt (m : Memory) (address : Int) :
    UInt16.ofInt (m.wordAt address) = m.readWord (.ofInt address) := by
  have next : UInt16.ofInt (address + 1) = .ofInt address + 1 := UInt16.ofInt_add address 1
  unfold wordAt byteAt readWord
  rw [next, Word.join_eq_ofInt]

theorem ofInt_wordAt_toNat (m : Memory) (a : UInt16) :
    UInt16.ofInt (m.wordAt a.toNat) = m.readWord a := by
  rw [ofInt_wordAt, Word.ofInt_toNat]

end Memory

/-- What a form adds to its base register for good. -/
def IndexedForm.autoStep : IndexedForm → Int
  | postIncrement1 => 1
  | postIncrement2 => 2
  | preDecrement1 => -1
  | preDecrement2 => -2
  | _ => 0

namespace Registers

/-- The address that an indexed operand gives before any indirection, where the program counter is
behind the postbyte. -/
def indexedAddress (r : Registers) (m : Memory) (postbyte : UInt8) : Int :=
  let base : Int := (r.index (IndexedPostbyte.decode postbyte).register).toNat
  let pc : Int := r.pc.toNat
  match (IndexedPostbyte.decode postbyte).form with
  | .offset5 _ => base + Word.signedBits 5 postbyte.toNat
  | .postIncrement1 | .postIncrement2 | .noOffset | .reserved => base
  | .preDecrement1 => base - 1
  | .preDecrement2 => base - 2
  | .accumulatorA => base + Word.signedBits 8 r.a.toNat
  | .accumulatorB => base + Word.signedBits 8 r.b.toNat
  | .accumulatorD => base + Word.signedBits 16 (256 * r.a.toNat + r.b.toNat)
  | .offset8 => base + Word.signedBits 8 (m.byteAt pc)
  | .offset16 => base + Word.signedBits 16 (m.wordAt pc)
  | .pcRelative8 => pc + 1 + Word.signedBits 8 (m.byteAt pc)
  | .pcRelative16 => pc + 2 + Word.signedBits 16 (m.wordAt pc)
  | .extendedIndirect => m.wordAt pc

/-- The address that an operand has in a mode, where the program counter is behind the opcode. -/
def effectiveAddress? (r : Registers) (m : Memory) : AddressMode → Option Int
  | .inherent => none
  | .immediate8 | .immediate16 => some r.pc.toNat
  | .direct => some (256 * r.dp.toNat + m.byteAt r.pc.toNat)
  | .extended => some (m.wordAt r.pc.toNat)
  | .relative8 => some (r.pc.toNat + 1 + Word.signedBits 8 (m.byteAt r.pc.toNat))
  | .relative16 => some (r.pc.toNat + 2 + Word.signedBits 16 (m.wordAt r.pc.toNat))
  | .indexed =>
    let address := { r with pc := r.pc + 1 }.indexedAddress m (m.read r.pc)
    some (if (IndexedPostbyte.decode (m.read r.pc)).indirect then m.wordAt address else address)

/-- The bytes of an operand: those of its mode, and the offset that a postbyte asks for. -/
def operandBytes (r : Registers) (m : Memory) (mode : AddressMode) : Nat :=
  mode.operandLength +
    if mode = .indexed then (IndexedPostbyte.decode (m.read r.pc)).offsetLength else 0

/-- The registers once a postbyte has moved its base register. -/
def autoIndexed (r : Registers) (p : IndexedPostbyte) : Registers :=
  r.setIndex p.register (r.index p.register + .ofInt p.form.autoStep)

/-- What locating an operand adds to an index register. -/
def autoStep (r : Registers) (m : Memory) (mode : AddressMode) (i : IndexRegister) : Int :=
  if mode = .indexed ∧ i = (IndexedPostbyte.decode (m.read r.pc)).register then
    (IndexedPostbyte.decode (m.read r.pc)).form.autoStep
  else 0

/-- The registers as an instruction finds them: the program counter is past the operand, and only
an automatic form has moved an index register. -/
def pastOperand (r : Registers) (m : Memory) (mode : AddressMode) : Registers :=
  { (if mode = .indexed then r.autoIndexed (.decode (m.read r.pc)) else r) with
    pc := r.pc + .ofNat (r.operandBytes m mode) }

theorem setIndex_index (r : Registers) (i : IndexRegister) : r.setIndex i (r.index i) = r := by
  cases i with
  | x => rfl
  | y => rfl
  | u => rfl
  | s => rfl

theorem index_setIndex (r : Registers) (i j : IndexRegister) (value : UInt16) :
    (r.setIndex i value).index j = if j = i then value else r.index j := by
  cases i <;> cases j <;> rfl

theorem pc_setIndex (r : Registers) (i : IndexRegister) (value : UInt16) :
    (r.setIndex i value).pc = r.pc := by
  cases i with
  | x => rfl
  | y => rfl
  | u => rfl
  | s => rfl

/-- A form that moves nothing leaves all registers. -/
theorem autoIndexed_of_still (r : Registers) {p : IndexedPostbyte} (still : p.form.autoStep = 0) :
    r.autoIndexed p = r := by
  have zero : UInt16.ofInt 0 = 0 := rfl
  unfold autoIndexed
  rw [still, zero, UInt16.add_zero, setIndex_index]

/-- An indexed operand is past once its postbyte is, and then its offset. -/
theorem pastOperand_indexed (r : Registers) (m : Memory) : r.pastOperand m .indexed =
    { { r with pc := r.pc + 1 }.autoIndexed (.decode (m.read r.pc)) with
      pc := r.pc + 1 + .ofNat (IndexedPostbyte.decode (m.read r.pc)).offsetLength } := by
  have bytes : UInt16.ofNat (r.operandBytes m .indexed) =
      1 + .ofNat (IndexedPostbyte.decode (m.read r.pc)).offsetLength := UInt16.ofNat_add _ _
  unfold pastOperand autoIndexed
  rw [bytes, ← UInt16.add_assoc]
  cases (IndexedPostbyte.decode (m.read r.pc)).register with
  | x => rfl
  | y => rfl
  | u => rfl
  | s => rfl

theorem index_pastOperand (r : Registers) (m : Memory) (mode : AddressMode) (i : IndexRegister) :
    (r.pastOperand m mode).index i = .ofInt ((r.index i).toNat + r.autoStep m mode i) := by
  have past : (r.pastOperand m mode).index i =
      (if mode = .indexed then r.autoIndexed (.decode (m.read r.pc)) else r).index i := by
    cases i with
    | x => rfl
    | y => rfl
    | u => rfl
    | s => rfl
  rw [past, UInt16.ofInt_add, Word.ofInt_toNat]
  unfold autoStep
  by_cases indexed : mode = .indexed
  · rw [if_pos indexed, autoIndexed, index_setIndex]
    by_cases base : i = (IndexedPostbyte.decode (m.read r.pc)).register
    · rw [if_pos base, if_pos ⟨indexed, base⟩, base]
    · rw [if_neg base, if_neg fun both => base both.2]
      exact (UInt16.add_zero _).symm
  · rw [if_neg indexed, if_neg fun both => indexed both.1]
    exact (UInt16.add_zero _).symm

/-- The other registers are out of reach. -/
theorem pastOperand_others (r : Registers) (m : Memory) (mode : AddressMode) :
    (r.pastOperand m mode).a = r.a ∧ (r.pastOperand m mode).b = r.b ∧
      (r.pastOperand m mode).dp = r.dp ∧ (r.pastOperand m mode).cc = r.cc := by
  unfold pastOperand autoIndexed
  split
  · cases (IndexedPostbyte.decode (m.read r.pc)).register with
    | x => exact ⟨rfl, rfl, rfl, rfl⟩
    | y => exact ⟨rfl, rfl, rfl, rfl⟩
    | u => exact ⟨rfl, rfl, rfl, rfl⟩
    | s => exact ⟨rfl, rfl, rfl, rfl⟩
  · exact ⟨rfl, rfl, rfl, rfl⟩

end Registers

namespace Core

variable {c d : Core}

/-- A processor has come from another by locating an operand in some mode. -/
structure Located (c : Core) (mode : AddressMode) (d : Core) : Prop where
  regs : d.regs = c.regs.pastOperand c.bus.memory mode
  address : ∀ ea ∈ c.regs.effectiveAddress? c.bus.memory mode, d.cpu.ea = .ofInt ea
  /-- A mode without an operand leaves the address of the last one. -/
  unused : c.regs.effectiveAddress? c.bus.memory mode = none → d.cpu.ea = c.cpu.ea
  /-- A postbyte without a meaning is logged; the rest is as it was. -/
  same : d = { cpu := { c.cpu with regs := d.regs, ea := d.cpu.ea }
               bus := { c.bus with log := d.bus.log } }

theorem Located.of_formula {mode : AddressMode} {ea : Int}
    (formula : c.regs.effectiveAddress? c.bus.memory mode = some ea)
    (regs : d.regs = c.regs.pastOperand c.bus.memory mode) (address : d.cpu.ea = .ofInt ea)
    (same : d = { cpu := { c.cpu with regs := d.regs, ea := d.cpu.ea }
                  bus := { c.bus with log := d.bus.log } }) : c.Located mode d where
  regs := regs
  address other found := by
    rw [formula] at found
    rw [address, Option.some.inj found]
  unused missing := by
    rw [formula] at missing
    cases missing
  same := same

/-! ### The indexed mode -/

theorem ofInt_signedByteAt (m : Memory) (a : UInt16) :
    UInt16.ofInt (Word.signedBits 8 (m.byteAt a.toNat)) = Word.signExtend (m.read a) := by
  rw [Memory.byteAt_toNat, Word.signExtend_eq_ofInt]

theorem ofInt_signedWordAt (m : Memory) (a : UInt16) :
    UInt16.ofInt (Word.signedBits 16 (m.wordAt a.toNat)) = m.readWord a := by
  rw [Word.ofInt_signedBits, Memory.ofInt_wordAt_toNat]

theorem decode_offset5 {b offset : UInt8}
    (form : (IndexedPostbyte.decode b).form = .offset5 offset) :
    offset = IndexedPostbyte.offset5 b := by
  have coded (digit : Nat) : IndexedForm.ofLowDigit digit ≠ .offset5 offset := by
    unfold IndexedForm.ofLowDigit
    split <;> exact IndexedForm.noConfusion
  unfold IndexedPostbyte.decode at form
  split at form
  · exact (IndexedForm.offset5.inj form).symm
  · exact absurd form (coded _)

/-- The address of a form is its formula. -/
theorem indexedAddress_address (h : c.bus.Plain) (postbyte : UInt8) :
    (c.indexedAddress (IndexedPostbyte.decode postbyte).register
      (IndexedPostbyte.decode postbyte).form).1 =
        .ofInt (c.regs.indexedAddress c.bus.memory postbyte) := by
  unfold Registers.indexedAddress
  cases form : (IndexedPostbyte.decode postbyte).form with
  | offset5 offset =>
      dsimp only
      rw [decode_offset5 form, UInt16.ofInt_add, Word.ofInt_toNat, ← Word.signExtend_offset5]
      rfl
  | postIncrement1 => exact (Word.ofInt_toNat _).symm
  | postIncrement2 => exact (Word.ofInt_toNat _).symm
  | noOffset => exact (Word.ofInt_toNat _).symm
  | reserved => exact (Word.ofInt_toNat _).symm
  | preDecrement1 =>
      dsimp only
      rw [Int.sub_eq_add_neg, UInt16.ofInt_add, Word.ofInt_toNat]
      exact UInt16.sub_eq_add_neg _ _
  | preDecrement2 =>
      dsimp only
      rw [Int.sub_eq_add_neg, UInt16.ofInt_add, Word.ofInt_toNat]
      exact UInt16.sub_eq_add_neg _ _
  | accumulatorA =>
      dsimp only
      rw [UInt16.ofInt_add, Word.ofInt_toNat, ← Word.signExtend_eq_ofInt]
      rfl
  | accumulatorB =>
      dsimp only
      rw [UInt16.ofInt_add, Word.ofInt_toNat, ← Word.signExtend_eq_ofInt]
      rfl
  | accumulatorD =>
      dsimp only
      rw [UInt16.ofInt_add, Word.ofInt_toNat, Word.ofInt_signedBits, ← Word.join_eq_ofInt]
      rfl
  | offset8 =>
      dsimp only [indexedAddress]
      rw [fetchByte_of_plain h, UInt16.ofInt_add, Word.ofInt_toNat, ofInt_signedByteAt]
      rfl
  | offset16 =>
      dsimp only [indexedAddress]
      rw [fetchWord_of_plain h, UInt16.ofInt_add, Word.ofInt_toNat, ofInt_signedWordAt]
      rfl
  | pcRelative8 =>
      dsimp only [indexedAddress]
      rw [fetchByte_of_plain h, UInt16.ofInt_add, UInt16.ofInt_add, Word.ofInt_toNat,
        ofInt_signedByteAt]
      rfl
  | pcRelative16 =>
      dsimp only [indexedAddress]
      rw [fetchWord_of_plain h, UInt16.ofInt_add, UInt16.ofInt_add, Word.ofInt_toNat,
        ofInt_signedWordAt]
      rfl
  | extendedIndirect =>
      dsimp only [indexedAddress]
      rw [fetchWord_of_plain h, Memory.ofInt_wordAt_toNat]

/-- Only an automatic form moves its base register, and only an offset moves the program counter. -/
theorem indexedAddress_core (h : c.bus.Plain) (p : IndexedPostbyte) :
    (c.indexedAddress p.register p.form).2 = c.setRegs
      { c.regs.autoIndexed p with pc := c.regs.pc + .ofNat p.offsetLength } := by
  have still (unmoved : p.form.autoStep = 0) (n : Nat) :
      c.setRegs { c.regs.autoIndexed p with pc := c.regs.pc + .ofNat n } =
        c.setPc (c.regs.pc + .ofNat n) := by
    rw [Registers.autoIndexed_of_still _ unmoved]
    rfl
  have moved {value : UInt16} (auto : c.regs.index p.register + .ofInt p.form.autoStep = value) :
      c.setRegs (c.regs.setIndex p.register value) =
        c.setRegs { c.regs.autoIndexed p with pc := c.regs.pc + .ofNat 0 } := by
    change _ = c.setRegs { c.regs.autoIndexed p with pc := c.regs.pc + 0 }
    unfold Registers.autoIndexed
    rw [auto, UInt16.add_zero, ← c.regs.pc_setIndex p.register value]
  have nowhere : c = c.setPc (c.regs.pc + 0) := by
    rw [UInt16.add_zero]
    rfl
  -- A form moves its base register, or has bytes of an offset to pass, or does neither.
  unfold IndexedPostbyte.offsetLength
  cases form : p.form with
  | postIncrement1 => exact moved (by rw [form]; rfl)
  | postIncrement2 => exact moved (by rw [form]; rfl)
  | preDecrement1 => exact moved (by rw [form]; exact (UInt16.sub_eq_add_neg _ 1).symm)
  | preDecrement2 => exact moved (by rw [form]; exact (UInt16.sub_eq_add_neg _ 2).symm)
  | offset8 =>
      rw [still (by rw [form]; rfl)]
      exact congrArg Prod.snd (fetchByte_of_plain h)
  | pcRelative8 =>
      rw [still (by rw [form]; rfl)]
      exact congrArg Prod.snd (fetchByte_of_plain h)
  | offset16 =>
      rw [still (by rw [form]; rfl)]
      exact congrArg Prod.snd (fetchWord_of_plain h)
  | pcRelative16 =>
      rw [still (by rw [form]; rfl)]
      exact congrArg Prod.snd (fetchWord_of_plain h)
  | extendedIndirect =>
      rw [still (by rw [form]; rfl)]
      exact congrArg Prod.snd (fetchWord_of_plain h)
  | _ =>
      rw [still (by rw [form]; rfl)]
      exact nowhere

theorem noteReserved_same (c : Core) (postbyte : UInt8) (start : UInt16) :
    c.noteReserved postbyte start =
      { c with bus := { c.bus with log := (c.noteReserved postbyte start).bus.log } } := by
  unfold noteReserved
  split
  · rfl
  · rfl

/-- Where an indexed operand lies: at the address of its form, or where the word there points to. -/
theorem resolve_core (h : c.bus.Plain) (address : Int) (p : IndexedPostbyte) :
    (c.resolve (.ofInt address) p).2 =
      c.setEa (.ofInt (if p.indirect then c.bus.memory.wordAt address else address)) := by
  unfold resolve
  cases p.indirect with
  | true =>
      rw [readWord_of_plain h, ← Memory.ofInt_wordAt]
      rfl
  | false => rfl

theorem located_indexed (h : c.bus.Plain) : c.Located .indexed c.locateIndexed.2 := by
  have past := c.regs.pastOperand_indexed c.bus.memory
  rw [locateIndexed_eq, fetchByte_of_plain h]
  dsimp only
  rw [noteReserved_same]
  -- Whether the postbyte is logged plays no part from here on.
  generalize ((c.setPc (c.regs.pc + 1)).noteReserved _ _).bus.log = log
  let passed : Core := { c.setPc (c.regs.pc + 1) with bus := { c.bus with log } }
  have quiet : passed.bus.Plain := h
  have address := indexedAddress_address quiet (c.bus.memory.read c.regs.pc)
  have moved := indexedAddress_core quiet (.decode (c.bus.memory.read c.regs.pc))
  change c.Located .indexed ((passed.indexedAddress _ _).2.resolve
    (passed.indexedAddress _ _).1 (.decode (c.bus.memory.read c.regs.pc))).2
  rw [address, moved, resolve_core]
  · exact .of_formula rfl past.symm rfl rfl
  · exact h

/-- Locating an operand finds it at the formula of its mode, and moves the program counter past it.
Without handlers nothing but the index register of an automatic form moves besides. -/
theorem located_locate (c : Core) (h : c.bus.Plain) (mode : AddressMode) :
    c.Located mode (c.locate mode).2 := by
  have byte : c.fetchByte = (c.bus.memory.read c.regs.pc, c.setPc (c.regs.pc + 1)) :=
    fetchByte_of_plain h
  have word : c.fetchWord = (c.bus.memory.readWord c.regs.pc, c.setPc (c.regs.pc + 2)) :=
    fetchWord_of_plain h
  cases mode with
  | inherent =>
      refine ⟨?_, ?_, ?_, rfl⟩
      · change c.regs = { c.regs with pc := c.regs.pc + 0 }
        rw [UInt16.add_zero]
      · rintro ea ⟨⟩
      · intro
        rfl
  | immediate8 => exact .of_formula rfl rfl (Word.ofInt_toNat _).symm rfl
  | immediate16 => exact .of_formula rfl rfl (Word.ofInt_toNat _).symm rfl
  | direct =>
      unfold locate
      rw [byte]
      refine .of_formula rfl rfl ?_ rfl
      rw [Memory.byteAt_toNat, ← Word.join_eq_ofInt]
      rfl
  | extended =>
      unfold locate
      rw [word]
      exact .of_formula rfl rfl (Memory.ofInt_wordAt_toNat _ _).symm rfl
  | indexed => exact located_indexed h
  | relative8 =>
      unfold locate
      rw [byte]
      refine .of_formula rfl rfl ?_ rfl
      rw [UInt16.ofInt_add, UInt16.ofInt_add, Word.ofInt_toNat, ofInt_signedByteAt]
      rfl
  | relative16 =>
      unfold locate
      rw [word]
      refine .of_formula rfl rfl ?_ rfl
      rw [UInt16.ofInt_add, UInt16.ofInt_add, Word.ofInt_toNat, ofInt_signedWordAt]
      rfl

/-! ### The formulas in integers -/

/-- A processor has come from another by locating an operand: every word that changes is given as an
integer modulo 65536, and all the rest is as it was. -/
structure FoundByFormula (c : Core) (mode : AddressMode) (d : Core) : Prop where
  pc : d.regs.pc.toNat =
    (c.regs.pc.toNat + c.regs.operandBytes c.bus.memory mode) % 65536
  address : ∀ ea ∈ c.regs.effectiveAddress? c.bus.memory mode, (d.cpu.ea.toNat : Int) = ea % 65536
  index : ∀ i, ((d.regs.index i).toNat : Int) =
    ((c.regs.index i).toNat + c.regs.autoStep c.bus.memory mode i) % 65536
  bytes : d.regs.a = c.regs.a ∧ d.regs.b = c.regs.b ∧ d.regs.dp = c.regs.dp
  flags : d.regs.cc = c.regs.cc
  memory : d.bus.memory = c.bus.memory
  /-- Neither a latch nor a count changes, and of the bus at most the log, for a postbyte without a
  meaning. -/
  same : d = { cpu := { c.cpu with regs := d.regs, ea := d.cpu.ea }
               bus := { c.bus with log := d.bus.log } }
  /-- Without an operand nothing is located. -/
  inherent : mode = .inherent → d = c

/-- On a bus without handlers, for all registers and all memory contents, locating an operand in any
mode finds it at the address that the integers give, and changes nothing but the program counter and
the index register of an automatic form. -/
theorem foundByFormula_locate (c : Core) (plain : c.bus.Plain) (mode : AddressMode) :
    c.FoundByFormula mode (c.locate mode).2 := by
  have located := located_locate c plain mode
  obtain ⟨a, b, dp, cc⟩ := c.regs.pastOperand_others c.bus.memory mode
  rw [← located.regs] at a b dp cc
  refine ⟨?_, ?_, ?_, ⟨a, b, dp⟩, cc, ?_, located.same, ?_⟩
  · rw [located.regs]
    change (c.regs.pc + .ofNat (c.regs.operandBytes c.bus.memory mode)).toNat = _
    rw [UInt16.toNat_add, UInt16.toNat_ofNat', Nat.add_mod_mod]
  · intro ea formula
    rw [located.address ea formula, Word.toNat_ofInt]
  · intro i
    rw [located.regs, Registers.index_pastOperand, Word.toNat_ofInt]
  · rw [located.same]
  · rintro rfl
    rfl

/-- A processor before the postbyte of a pointer on S, which is popped as it is followed. Its bytes lie
at the top address and at zero. -/
def popping : Core where
  cpu := { Cpu.zero with regs := { Registers.zero with pc := 0x2000, s := 0xFFFF } }
  bus := (Bus.blank.poke 0x2000 0xF1).pokeBytes 0xFFFF [0x12, 0x34]

theorem popping_found : popping.bus.Plain ∧ (popping.locate .indexed).2.cpu.ea.toNat = 0x1234 ∧
    (popping.locate .indexed).2.regs.s.toNat = 1 ∧
      (popping.locate .indexed).2.regs.pc.toNat = 0x2001 := by
  have found := foundByFormula_locate popping ⟨rfl, rfl⟩ .indexed
  have address := found.address 0x1234 (by rfl)
  have stack := found.index .s
  have step : popping.regs.autoStep popping.bus.memory .indexed .s = 2 := by rfl
  rw [step] at stack
  exact ⟨⟨rfl, rfl⟩, Int.ofNat.inj address, Int.ofNat.inj stack, found.pc⟩

end Core
end Sim6809
