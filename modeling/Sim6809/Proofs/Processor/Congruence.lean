import Mathlib.Logic.Basic
import Sim6809.Processor.Step
import Sim6809.Proofs.Isa.Opcode

/-!
Relations that no instruction can break. The processor is built from a few primitives: it replaces
registers, the operand's address or the wait state, makes a log record, and reads and writes bytes.
A relation that the primitives keep is kept by every instruction, and two related processors fetch
and compute the same things. With equality on one side this is the frame rule of an instruction.
-/
namespace Sim6809

/-- The pair of two registers, if they are equally wide. -/
def Register.pair (source destination : Register) : Except Fault (Register × Register) :=
  if source.isWide = destination.isWide then .ok (source, destination)
  else .error (.mismatchedRegisters source destination)

namespace Core

/-- Makes a log record if the postbyte at an address has no meaning. -/
def noteReserved (c : Core) (postbyte : UInt8) (start : UInt16) : Core :=
  if (IndexedPostbyte.decode postbyte).form = .reserved then
    c.addRecord .warn (reservedText postbyte start)
  else c

/-- Locates the operand at an address, or where the word at the address points to. -/
def resolve (c : Core) (address : UInt16) (decoded : IndexedPostbyte) : Nat × Core :=
  if decoded.indirect then (decoded.cycles, (c.readWord address).2.setEa (c.readWord address).1)
  else (decoded.cycles, c.setEa address)

/-- The indexed mode fetches a postbyte, finds the address that it gives and resolves it. -/
theorem locateIndexed_eq (c : Core) : c.locateIndexed =
    let postbyte := c.fetchByte.1
    let decoded := IndexedPostbyte.decode postbyte
    let found := (c.fetchByte.2.noteReserved postbyte c.regs.pc).indexedAddress
      decoded.register decoded.form
    found.2.resolve found.1 decoded := rfl

theorem selectPair_eq (c : Core) : c.selectPair =
    let postbyte := c.operandByte.1
    let source := c.operandByte.2.selectRegister (postbyte >>> 4)
    let destination := source.2.selectRegister (postbyte &&& 0x0F)
    (Register.pair source.1 destination.1, destination.2) := by
  simp only [selectPair, Register.pair]
  split
  · rfl
  · rfl

/-- Neither a push nor a write moves the operand's address. -/
theorem pushWord_ea (c : Core) (stack : StackPointer) (value : UInt16) :
    (c.pushWord stack value).cpu.ea = c.cpu.ea := rfl

/-- A relation carried over to results: the values are equal and the processors related. -/
def Alike (R : Core → Core → Prop) {α : Type} (x y : α × Core) : Prop := x.1 = y.1 ∧ R x.2 y.2

/-- Related processors have equal registers, read equal bytes and stay related by every
primitive. -/
structure Congruence (R : Core → Core → Prop) : Prop where
  regs {c d : Core} : R c d → c.regs = d.regs
  setRegs {c d : Core} : R c d → ∀ regs, R (c.setRegs regs) (d.setRegs regs)
  setEa {c d : Core} : R c d → ∀ ea, R (c.setEa ea) (d.setEa ea)
  setWait {c d : Core} : R c d → ∀ wait, R (c.setWait wait) (d.setWait wait)
  /-- The processor makes no trace line; those are the monitor's. -/
  addRecord {c d : Core} : R c d →
    ∀ level text, level ≠ .trace → R (c.addRecord level text) (d.addRecord level text)
  readByte {c d : Core} : R c d → ∀ address, Alike R (c.readByte address) (d.readByte address)
  writeByte {c d : Core} : R c d →
    ∀ address value, R (c.writeByte address value) (d.writeByte address value)

variable {R : Core → Core → Prop} {c d : Core} {α : Type} {x y : α × Core}

/-- Whatever follows a common result with related processors keeps them related. -/
theorem Alike.bind (h : Alike R x y) {f : α → Core → Core}
    (next : ∀ value c d, R c d → R (f value c) (f value d)) : R (f x.1 x.2) (f y.1 y.2) := by
  rw [h.1]
  exact next y.1 x.2 y.2 h.2

theorem Alike.andThen {S : Core → Core → Prop} {β : Type} (h : Alike R x y)
    {f : α → Core → β × Core} (next : ∀ value c d, R c d → Alike S (f value c) (f value d)) :
    Alike S (f x.1 x.2) (f y.1 y.2) := by
  rw [h.1]
  exact next y.1 x.2 y.2 h.2

namespace Congruence

theorem onRegs (h : Congruence R) (r : R c d) (f : Registers → Registers) :
    R (c.setRegs (f c.regs)) (d.setRegs (f d.regs)) := by
  rw [h.regs r]
  exact h.setRegs r _

theorem setFlags (h : Congruence R) (r : R c d) (cc : Flags) : R (c.setFlags cc) (d.setFlags cc) :=
  h.onRegs r fun regs => { regs with cc }

theorem setPc (h : Congruence R) (r : R c d) (pc : UInt16) : R (c.setPc pc) (d.setPc pc) :=
  h.onRegs r fun regs => { regs with pc }

theorem readWord (h : Congruence R) (r : R c d) (address : UInt16) :
    Alike R (c.readWord address) (d.readWord address) := by
  have high := h.readByte r address
  have low := h.readByte high.2 (address + 1)
  exact ⟨congrArg₂ Word.join high.1 low.1, low.2⟩

theorem writeWord (h : Congruence R) (r : R c d) (address value : UInt16) :
    R (c.writeWord address value) (d.writeWord address value) :=
  h.writeByte (h.writeByte r address (Word.hi value)) (address + 1) (Word.lo value)

theorem fetchByte (h : Congruence R) (r : R c d) : Alike R c.fetchByte d.fetchByte := by
  have read := h.readByte r d.regs.pc
  unfold Core.fetchByte
  rw [h.regs r]
  exact ⟨read.1, h.setPc read.2 _⟩

theorem fetchWord (h : Congruence R) (r : R c d) : Alike R c.fetchWord d.fetchWord := by
  have high := h.fetchByte r
  have low := h.fetchByte high.2
  exact ⟨congrArg₂ Word.join high.1 low.1, low.2⟩

theorem fetchOpcode (h : Congruence R) (r : R c d) : Alike R c.fetchOpcode d.fetchOpcode := by
  have first := h.fetchByte r
  have second := h.fetchByte first.2
  dsimp only [Core.fetchOpcode]
  rw [first.1]
  cases Page.ofByte? d.fetchByte.1 with
  | none => exact ⟨rfl, first.2⟩
  | some page => exact ⟨congrArg (Prod.mk page) second.1, second.2⟩

/-! ### Stacks -/

theorem pushByte (h : Congruence R) (r : R c d) (stack : StackPointer) (value : UInt8) :
    R (c.pushByte stack value) (d.pushByte stack value) := by
  simp only [Core.pushByte, h.regs r]
  exact h.writeByte (h.setRegs r _) _ _

theorem pushWord (h : Congruence R) (r : R c d) (stack : StackPointer) (value : UInt16) :
    R (c.pushWord stack value) (d.pushWord stack value) := by
  simp only [Core.pushWord, h.regs r]
  exact h.writeWord (h.setRegs r _) _ _

theorem pullByte (h : Congruence R) (r : R c d) (stack : StackPointer) :
    Alike R (c.pullByte stack) (d.pullByte stack) := by
  simp only [Core.pullByte, h.regs r]
  exact h.readByte (h.setRegs r _) _

theorem pullWord (h : Congruence R) (r : R c d) (stack : StackPointer) :
    Alike R (c.pullWord stack) (d.pullWord stack) := by
  simp only [Core.pullWord, h.regs r]
  exact h.readWord (h.setRegs r _) _

theorem pushRegister (h : Congruence R) (r : R c d) (stack : StackPointer) (register : Register) :
    R (c.pushRegister stack register) (d.pushRegister stack register) := by
  simp only [Core.pushRegister, h.regs r]
  split
  · exact h.pushWord r stack _
  · exact h.pushByte r stack _

theorem pullRegister (h : Congruence R) (r : R c d) (stack : StackPointer) (register : Register) :
    R (c.pullRegister stack register) (d.pullRegister stack register) := by
  unfold Core.pullRegister
  split
  · exact (h.pullWord r stack).bind (f := fun value c => c.setRegs (c.regs.set register value))
      fun value _ _ r => h.onRegs r (·.set register value)
  · exact (h.pullByte r stack).bind
      (f := fun value c => c.setRegs (c.regs.set register value.toUInt16))
      fun value _ _ r => h.onRegs r (·.set register value.toUInt16)

theorem pushRegisters (h : Congruence R) (r : R c d) (stack : StackPointer) (rs : List Register) :
    R (c.pushRegisters stack rs) (d.pushRegisters stack rs) := by
  induction rs with
  | nil => exact r
  | cons register rs ih => exact h.pushRegister ih stack register

theorem pullRegisters (h : Congruence R) (r : R c d) (stack : StackPointer) (rs : List Register) :
    R (c.pullRegisters stack rs) (d.pullRegisters stack rs) := by
  induction rs generalizing c d with
  | nil => exact r
  | cons register rs ih => exact ih (h.pullRegister r stack register)

theorem pushEntire (h : Congruence R) (r : R c d) : R c.pushEntire d.pushEntire := by
  unfold Core.pushEntire
  rw [h.regs r]
  exact h.pushRegisters (h.setFlags r _) .s entireFrame

theorem pushFast (h : Congruence R) (r : R c d) : R c.pushFast d.pushFast := by
  unfold Core.pushFast
  rw [h.regs r]
  exact h.pushRegisters (h.setFlags r _) .s fastFrame

theorem pullFrame (h : Congruence R) (r : R c d) : Alike R c.pullFrame d.pullFrame := by
  have flags := h.pullRegister r .s .cc
  simp only [Core.pullFrame, h.regs flags]
  split
  · exact ⟨rfl, h.pullRegisters flags .s _⟩
  · exact ⟨rfl, h.pullRegisters flags .s _⟩

/-! ### Operands -/

theorem indexedAddress (h : Congruence R) (r : R c d) (register : IndexRegister)
    (form : IndexedForm) :
    Alike R (c.indexedAddress register form) (d.indexedAddress register form) := by
  have base := congrArg (·.index register) (h.regs r)
  cases form with
  | offset5 offset => exact ⟨congrArg (· + Word.signExtend offset) base, r⟩
  | postIncrement1 =>
      exact ⟨base, h.onRegs r fun regs => regs.setIndex register (regs.index register + 1)⟩
  | postIncrement2 =>
      exact ⟨base, h.onRegs r fun regs => regs.setIndex register (regs.index register + 2)⟩
  | preDecrement1 =>
      exact ⟨congrArg (· - 1) base,
        h.onRegs r fun regs => regs.setIndex register (regs.index register - 1)⟩
  | preDecrement2 =>
      exact ⟨congrArg (· - 2) base,
        h.onRegs r fun regs => regs.setIndex register (regs.index register - 2)⟩
  | noOffset => exact ⟨base, r⟩
  | accumulatorB =>
      exact ⟨congrArg (fun regs : Registers => regs.index register + Word.signExtend regs.b)
        (h.regs r), r⟩
  | accumulatorA =>
      exact ⟨congrArg (fun regs : Registers => regs.index register + Word.signExtend regs.a)
        (h.regs r), r⟩
  | accumulatorD => exact ⟨congrArg (fun regs => regs.index register + regs.d) (h.regs r), r⟩
  | offset8 =>
      exact (h.fetchByte r).andThen
        (f := fun offset c => (c.regs.index register + Word.signExtend offset, c))
        fun offset _ _ r =>
          ⟨congrArg (fun regs => regs.index register + Word.signExtend offset) (h.regs r), r⟩
  | offset16 =>
      exact (h.fetchWord r).andThen (f := fun offset c => (c.regs.index register + offset, c))
        fun offset _ _ r => ⟨congrArg (fun regs => regs.index register + offset) (h.regs r), r⟩
  | pcRelative8 =>
      exact (h.fetchByte r).andThen
        (f := fun offset c => (c.regs.pc + Word.signExtend offset, c))
        fun offset _ _ r => ⟨congrArg (fun regs => regs.pc + Word.signExtend offset) (h.regs r), r⟩
  | pcRelative16 =>
      exact (h.fetchWord r).andThen (f := fun offset c => (c.regs.pc + offset, c))
        fun offset _ _ r => ⟨congrArg (fun regs => regs.pc + offset) (h.regs r), r⟩
  | extendedIndirect => exact h.fetchWord r
  | reserved => exact ⟨base, r⟩

/-- Processors that are related and have located the same operand. -/
def Located (R : Core → Core → Prop) (c d : Core) : Prop := R c d ∧ c.cpu.ea = d.cpu.ea

theorem locateAt (h : Congruence R) (r : R c d) (ea : UInt16) :
    Located R (c.setEa ea) (d.setEa ea) := ⟨h.setEa r ea, rfl⟩

theorem noteReserved (h : Congruence R) (r : R c d) (postbyte : UInt8) (start : UInt16) :
    R (c.noteReserved postbyte start) (d.noteReserved postbyte start) := by
  unfold Core.noteReserved
  split
  · exact h.addRecord r _ _ nofun
  · exact r

theorem resolve (h : Congruence R) (r : R c d) (address : UInt16) (decoded : IndexedPostbyte) :
    Alike (Located R) (c.resolve address decoded) (d.resolve address decoded) := by
  unfold Core.resolve
  split
  · exact (h.readWord r address).andThen (f := fun target c => (decoded.cycles, c.setEa target))
      fun target _ _ r => ⟨rfl, h.locateAt r target⟩
  · exact ⟨rfl, h.locateAt r address⟩

theorem locateIndexed (h : Congruence R) (r : R c d) :
    Alike (Located R) c.locateIndexed d.locateIndexed := by
  rw [locateIndexed_eq, locateIndexed_eq, h.regs r]
  generalize d.regs.pc = start
  refine (h.fetchByte r).andThen (f := fun postbyte c =>
    let found := (c.noteReserved postbyte start).indexedAddress
      (IndexedPostbyte.decode postbyte).register (IndexedPostbyte.decode postbyte).form
    found.2.resolve found.1 (IndexedPostbyte.decode postbyte)) ?_
  intro postbyte c d r
  have found := h.indexedAddress (h.noteReserved r postbyte start)
    (IndexedPostbyte.decode postbyte).register (IndexedPostbyte.decode postbyte).form
  exact found.andThen (f := fun address c => c.resolve address (IndexedPostbyte.decode postbyte))
    fun address _ _ r => h.resolve r address _

/-- Every mode but the inherent one locates an operand. -/
theorem locate (h : Congruence R) (r : R c d) {mode : AddressMode} (hm : mode ≠ .inherent) :
    Alike (Located R) (c.locate mode) (d.locate mode) := by
  have pc : c.regs.pc = d.regs.pc := congrArg Registers.pc (h.regs r)
  cases mode with
  | inherent => exact absurd rfl hm
  | immediate8 =>
      simp only [Core.locate, pc]
      exact ⟨rfl, h.setPc (h.setEa r _) _, rfl⟩
  | immediate16 =>
      simp only [Core.locate, pc]
      exact ⟨rfl, h.setPc (h.setEa r _) _, rfl⟩
  | direct =>
      exact (h.fetchByte r).andThen (f := fun low c => (0, c.setEa (Word.join c.regs.dp low)))
        fun low c d r => ⟨rfl, by rw [h.regs r]; exact h.locateAt r _⟩
  | extended =>
      exact (h.fetchWord r).andThen (f := fun address c => (0, c.setEa address))
        fun address _ _ r => ⟨rfl, h.locateAt r address⟩
  | indexed => exact h.locateIndexed r
  | relative8 =>
      exact (h.fetchByte r).andThen
        (f := fun offset c => (0, c.setEa (c.regs.pc + Word.signExtend offset)))
        fun offset c d r => ⟨rfl, by rw [h.regs r]; exact h.locateAt r _⟩
  | relative16 =>
      exact (h.fetchWord r).andThen (f := fun offset c => (0, c.setEa (c.regs.pc + offset)))
        fun offset c d r => ⟨rfl, by rw [h.regs r]; exact h.locateAt r _⟩

theorem operandByte (h : Congruence R) (r : Located R c d) :
    Alike (Located R) c.operandByte d.operandByte := by
  have read := h.readByte r.1 d.cpu.ea
  unfold Core.operandByte
  rw [r.2]
  exact ⟨read.1, read.2, r.2⟩

theorem operandWord (h : Congruence R) (r : Located R c d) :
    Alike (Located R) c.operandWord d.operandWord := by
  have read := h.readWord r.1 d.cpu.ea
  unfold Core.operandWord
  rw [r.2]
  exact ⟨read.1, read.2, r.2⟩

/-! ### Instructions -/

theorem setResult (h : Congruence R) (r : R c d) (acc : Accumulator)
    (f : Registers → UInt8 × Flags) :
    R (c.setResult acc (f c.regs)) (d.setResult acc (f d.regs)) :=
  h.onRegs r fun regs => { regs.setAcc acc (f regs).1 with cc := (f regs).2 }

theorem setResultD (h : Congruence R) (r : R c d) (f : Registers → UInt16 × Flags) :
    R (c.setResultD (f c.regs)) (d.setResultD (f d.regs)) :=
  h.onRegs r fun regs => { regs.setD (f regs).1 with cc := (f regs).2 }

theorem onFlags (h : Congruence R) (r : R c d) (f : Registers → Flags) :
    R (c.setFlags (f c.regs)) (d.setFlags (f d.regs)) :=
  h.onRegs r fun regs => { regs with cc := f regs }

/-- What an instruction does with its byte operand keeps the relation if it does so for every
operand. -/
theorem onByte (h : Congruence R) (r : Located R c d) {f : UInt8 → Core → Core}
    (next : ∀ value c d, Located R c d → R (f value c) (f value d)) :
    R (f c.operandByte.1 c.operandByte.2) (f d.operandByte.1 d.operandByte.2) := by
  have operand := h.operandByte r
  rw [operand.1]
  exact next _ _ _ operand.2

theorem onWord (h : Congruence R) (r : Located R c d) {f : UInt16 → Core → Core}
    (next : ∀ value c d, Located R c d → R (f value c) (f value d)) :
    R (f c.operandWord.1 c.operandWord.2) (f d.operandWord.1 d.operandWord.2) := by
  have operand := h.operandWord r
  rw [operand.1]
  exact next _ _ _ operand.2

theorem byteOp (h : Congruence R) (r : Located R c d) (op : ByteOp) (acc : Accumulator) :
    R (c.byteOp op acc) (d.byteOp op acc) :=
  h.onByte r (f := fun operand c =>
    c.setResult acc (Alu.byteOp op c.regs.cc (c.regs.acc acc) operand))
    fun operand _ _ r => h.setResult r.1 acc fun regs =>
      Alu.byteOp op regs.cc (regs.acc acc) operand

theorem load (h : Congruence R) (r : Located R c d) (acc : Accumulator) :
    R (c.load acc) (d.load acc) :=
  h.onByte r (f := fun value c => c.setResult acc (value, Alu.logic8 c.regs.cc value))
    fun value _ _ r => h.setResult r.1 acc fun regs => (value, Alu.logic8 regs.cc value)

theorem store (h : Congruence R) (r : Located R c d) (acc : Accumulator) :
    R (c.store acc) (d.store acc) := by
  simp only [Core.store, h.regs r.1, r.2]
  exact h.writeByte (h.setFlags r.1 _) _ _

theorem loadWord (h : Congruence R) (r : Located R c d) (register : WordRegister) :
    R (c.loadWord register) (d.loadWord register) :=
  h.onWord r (f := fun value c =>
    c.setRegs { c.regs.setWord register value with cc := Alu.logic16 c.regs.cc value })
    fun value _ _ r => h.onRegs r.1 fun regs =>
      { regs.setWord register value with cc := Alu.logic16 regs.cc value }

theorem storeWord (h : Congruence R) (r : Located R c d) (register : WordRegister) :
    R (c.storeWord register) (d.storeWord register) := by
  simp only [Core.storeWord, h.regs r.1, r.2]
  exact h.writeWord (h.setFlags r.1 _) _ _

theorem compareWord (h : Congruence R) (r : Located R c d) (register : WordRegister) :
    R (c.compareWord register) (d.compareWord register) :=
  h.onWord r (f := fun operand c =>
    c.setFlags (Alu.sub16 c.regs.cc (c.regs.word register) operand).2)
    fun operand _ _ r => h.onFlags r.1 fun regs =>
      (Alu.sub16 regs.cc (regs.word register) operand).2

theorem addWord (h : Congruence R) (r : Located R c d) : R c.addWord d.addWord :=
  h.onWord r (f := fun operand c => c.setResultD (Alu.add16 c.regs.cc c.regs.d operand))
    fun operand _ _ r => h.setResultD r.1 fun regs => Alu.add16 regs.cc regs.d operand

theorem subWord (h : Congruence R) (r : Located R c d) : R c.subWord d.subWord :=
  h.onWord r (f := fun operand c => c.setResultD (Alu.sub16 c.regs.cc c.regs.d operand))
    fun operand _ _ r => h.setResultD r.1 fun regs => Alu.sub16 regs.cc regs.d operand

theorem loadAddress (h : Congruence R) (r : Located R c d) (register : IndexRegister) :
    R (c.loadAddress register) (d.loadAddress register) := by
  have loaded := h.onRegs r.1 (·.setIndex register d.cpu.ea)
  simp only [Core.loadAddress, r.2]
  cases register with
  | x => exact h.onFlags loaded fun regs => { regs.cc with zero := d.cpu.ea == 0 }
  | y => exact h.onFlags loaded fun regs => { regs.cc with zero := d.cpu.ea == 0 }
  | u => exact loaded
  | s => exact loaded

theorem modify (h : Congruence R) (r : Located R c d) (op : UnaryOp) :
    R (c.modify op) (d.modify op) := by
  refine h.onByte r (f := fun value c =>
    (c.setFlags (Alu.unary op c.regs.cc value).2).writeByte c.cpu.ea
      (Alu.unary op c.regs.cc value).1) ?_
  intro value c d r
  simp only [h.regs r.1, r.2]
  exact h.writeByte (h.setFlags r.1 _) _ _

theorem testMemory (h : Congruence R) (r : Located R c d) : R c.testMemory d.testMemory :=
  h.onByte r (f := fun value c => c.setFlags (Alu.logic8 c.regs.cc value))
    fun value _ _ r => h.onFlags r.1 fun regs => Alu.logic8 regs.cc value

theorem selectRegister (h : Congruence R) (r : R c d) (code : UInt8) :
    Alike R (c.selectRegister code) (d.selectRegister code) := by
  unfold Core.selectRegister
  cases Register.ofCode? code with
  | some register => exact ⟨rfl, r⟩
  | none =>
      simp only [h.regs r]
      exact ⟨rfl, h.addRecord r _ _ nofun⟩

theorem selectPair (h : Congruence R) (r : Located R c d) :
    Alike R c.selectPair d.selectPair := by
  have postbyte := h.operandByte r
  have source := h.selectRegister postbyte.2.1 (d.operandByte.1 >>> 4)
  have destination := h.selectRegister source.2 (d.operandByte.1 &&& 0x0F)
  rw [selectPair_eq, selectPair_eq, postbyte.1]
  exact ⟨congrArg₂ Register.pair source.1 destination.1, destination.2⟩

theorem onPair (h : Congruence R) (r : Located R c d)
    (change : Registers → Register → Register → Registers) :
    Alike R (c.onPair change) (d.onPair change) := by
  have chosen := h.selectPair r
  unfold Core.onPair
  revert chosen
  rcases c.selectPair with ⟨first, c⟩
  rcases d.selectPair with ⟨second, d⟩
  rintro ⟨rfl, r⟩
  cases first with
  | ok pair => exact ⟨rfl, h.onRegs r fun regs => change regs pair.1 pair.2⟩
  | error fault => exact ⟨rfl, r⟩

theorem call (h : Congruence R) (r : Located R c d) : R c.call d.call := by
  have pushed := h.pushWord r.1 .s d.regs.pc
  have returned := h.setPc pushed d.cpu.ea
  simp only [Core.call, h.regs r.1]
  rw [pushWord_ea, pushWord_ea, r.2]
  exact returned

theorem softwareInterrupt (h : Congruence R) (r : R c d) (event : Event) (masks : Bool) :
    R (c.softwareInterrupt event masks) (d.softwareInterrupt event masks) := by
  have pushed := h.pushEntire r
  have masked : R (if masks then c.pushEntire.setFlags c.pushEntire.regs.cc.maskInterrupts
      else c.pushEntire) (if masks then d.pushEntire.setFlags d.pushEntire.regs.cc.maskInterrupts
      else d.pushEntire) := by
    split
    · exact h.onFlags pushed fun regs => regs.cc.maskInterrupts
    · exact pushed
  exact (h.readWord masked event.vector).bind (f := fun pc c => c.setPc pc)
    fun pc _ _ r => h.setPc r pc

theorem waitForInterrupt (h : Congruence R) (r : Located R c d) :
    R c.waitForInterrupt d.waitForInterrupt :=
  h.onByte r (f := fun mask c => ((c.setFlags (c.regs.cc.keep mask)).pushEntire).setWait .cwaiWait)
    fun mask _ _ r => h.setWait (h.pushEntire (h.onFlags r.1 fun regs => regs.cc.keep mask)) _

/-- A stack instruction moves the registers that its operand selects. -/
theorem onMask (h : Congruence R) (r : Located R c d) (stack : StackPointer)
    {f : Core → List Register → Core}
    (next : ∀ c d rs, R c d → R (f c rs) (f d rs)) :
    Alike R (Except.ok (ε := Fault) (frameBytes (stack.selected c.operandByte.1)),
        f c.operandByte.2 (stack.selected c.operandByte.1))
      (Except.ok (frameBytes (stack.selected d.operandByte.1)),
        f d.operandByte.2 (stack.selected d.operandByte.1)) := by
  have mask := h.operandByte r
  rw [mask.1]
  exact ⟨rfl, next _ _ _ mask.2.1⟩

/-- Related processors that located the same operand execute an instruction alike. An instruction
that does not work on the operand's address needs no common address. -/
theorem execute (h : Congruence R) (r : R c d) (i : Instruction)
    (ea : i.usesAddress = true → c.cpu.ea = d.cpu.ea) :
    Alike R (c.execute i) (d.execute i) := by
  have located (used : i.usesAddress = true) : Located R c d := ⟨r, ea used⟩
  cases i with
  | nop => exact ⟨rfl, r⟩
  | illegal => exact ⟨rfl, r⟩
  | byteOp op acc => exact ⟨rfl, h.byteOp (located rfl) op acc⟩
  | load acc => exact ⟨rfl, h.load (located rfl) acc⟩
  | store acc => exact ⟨rfl, h.store (located rfl) acc⟩
  | andcc =>
      exact ⟨rfl, h.onByte (located rfl) (f := fun mask c => c.setFlags (c.regs.cc.keep mask))
        fun mask _ _ r => h.onFlags r.1 fun regs => regs.cc.keep mask⟩
  | orcc =>
      exact ⟨rfl, h.onByte (located rfl) (f := fun mask c => c.setFlags (c.regs.cc.raise mask))
        fun mask _ _ r => h.onFlags r.1 fun regs => regs.cc.raise mask⟩
  | addd => exact ⟨rfl, h.addWord (located rfl)⟩
  | subd => exact ⟨rfl, h.subWord (located rfl)⟩
  | compareWord register => exact ⟨rfl, h.compareWord (located rfl) register⟩
  | loadWord register => exact ⟨rfl, h.loadWord (located rfl) register⟩
  | storeWord register => exact ⟨rfl, h.storeWord (located rfl) register⟩
  | loadAddress register => exact ⟨rfl, h.loadAddress (located rfl) register⟩
  | unary op acc =>
      exact ⟨rfl, h.setResult r acc fun regs => Alu.unary op regs.cc (regs.acc acc)⟩
  | modify op => exact ⟨rfl, h.modify (located rfl) op⟩
  | test acc => exact ⟨rfl, h.onFlags r fun regs => Alu.logic8 regs.cc (regs.acc acc)⟩
  | testMemory => exact ⟨rfl, h.testMemory (located rfl)⟩
  | abx => exact ⟨rfl, h.onRegs r fun regs => { regs with x := regs.x + regs.b.toUInt16 }⟩
  | mul => exact ⟨rfl, h.setResultD r fun regs => Alu.mul regs.cc regs.a regs.b⟩
  | daa => exact ⟨rfl, h.setResult r .a fun regs => Alu.daa regs.cc regs.a⟩
  | sex => exact ⟨rfl, h.setResultD r fun regs => Alu.sex regs.cc regs.b⟩
  | tfr => exact h.onPair (located rfl) transfer
  | exg => exact h.onPair (located rfl) exchange
  | branch condition =>
      -- Equal registers decide on the same branch.
      simp only [Core.execute, h.regs r, ea rfl]
      split
      · exact ⟨rfl, h.setPc r _⟩
      · exact ⟨rfl, r⟩
  | longBranch condition =>
      simp only [Core.execute, h.regs r, ea rfl]
      split
      · exact ⟨rfl, h.setPc r _⟩
      · exact ⟨rfl, r⟩
  | bsr => exact ⟨rfl, h.call (located rfl)⟩
  | lbsr => exact ⟨rfl, h.call (located rfl)⟩
  | jsr => exact ⟨rfl, h.call (located rfl)⟩
  | jmp =>
      simp only [Core.execute, ea rfl]
      exact ⟨rfl, h.setPc r _⟩
  | rts => exact ⟨rfl, h.pullRegister r .s .pc⟩
  | push stack =>
      exact h.onMask (located rfl) stack (f := fun c rs => c.pushRegisters stack rs)
        fun _ _ rs r => h.pushRegisters r stack rs
  | pull stack =>
      exact h.onMask (located rfl) stack (f := fun c rs => c.pullRegisters stack rs)
        fun _ _ rs r => h.pullRegisters r stack rs
  | rti =>
      have frame := h.pullFrame r
      exact ⟨congrArg (fun entire : Bool => Except.ok (if entire then 9 else 0)) frame.1, frame.2⟩
  | swi => exact ⟨rfl, h.softwareInterrupt r .swi true⟩
  | swi2 => exact ⟨rfl, h.softwareInterrupt r .swi2 false⟩
  | swi3 => exact ⟨rfl, h.softwareInterrupt r .swi3 false⟩
  | cwai => exact ⟨rfl, h.waitForInterrupt (located rfl)⟩
  | sync => exact ⟨rfl, h.setWait r _⟩

end Congruence
end Core
end Sim6809
