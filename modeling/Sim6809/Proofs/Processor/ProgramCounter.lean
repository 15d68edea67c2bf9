import Sim6809.Proofs.Processor.Step

/-!
Which instructions set the program counter. All others leave it where the fetch of the opcode and
locating the operand moved it, whatever handlers the bus has, as a handler reaches no register.
-/
namespace Sim6809

/-- Whether an instruction with the given operand byte sets the program counter: branches, jumps,
calls, returns and software interrupts do, and so do pulls of it and transfers into it. -/
def Instruction.setsPc (i : Instruction) (operand : UInt8) : Bool :=
  match i with
  | branch _ | longBranch _ | bsr | lbsr | jsr | jmp | rts | rti | swi | swi2 | swi3 => true
  | pull _ => operand &&& 0x80 != 0
  | tfr => Register.ofCode? (operand &&& 0x0F) == some .pc
  | exg => Register.ofCode? (operand >>> 4) == some .pc ||
      Register.ofCode? (operand &&& 0x0F) == some .pc
  | _ => false

theorem StackPointer.pc_not_selected (stack : StackPointer) {mask : UInt8}
    (h : (mask &&& 0x80 != 0) = false) : .pc ∉ stack.selected mask := by
  intro selected
  obtain ⟨⟨register, chosen⟩, member, picked⟩ := List.mem_filterMap.mp selected
  cases stack <;> simp_all [maskOrder, maskBits]

namespace Registers

@[simp] theorem pc_setAcc (r : Registers) (acc : Accumulator) (value : UInt8) :
    (r.setAcc acc value).pc = r.pc := by
  cases acc with
  | a => rfl
  | b => rfl

@[simp] theorem pc_setWord (r : Registers) (register : WordRegister) (value : UInt16) :
    (r.setWord register value).pc = r.pc := by
  cases register with
  | d => rfl
  | x => rfl
  | y => rfl
  | u => rfl
  | s => rfl

@[simp] theorem pc_setStack (r : Registers) (stack : StackPointer) (value : UInt16) :
    (r.setStack stack value).pc = r.pc := by
  cases stack with
  | s => rfl
  | u => rfl

theorem pc_set {register : Register} (h : register ≠ .pc) (r : Registers) (value : UInt16) :
    (r.set register value).pc = r.pc := by
  cases register with
  | pc => exact absurd rfl h
  | _ => rfl

end Registers

namespace Core

variable (c : Core)

/-- The fetch of an opcode moves the program counter past it and changes no other register. -/
theorem fetchOpcode_regs : c.fetchOpcode.2.regs =
    { c.regs with pc := c.regs.pc + UInt16.ofNat c.fetchOpcode.1.1.opcodeLength } := by
  have next : c.regs.pc + 1 + 1 = c.regs.pc + 2 := UInt16.add_assoc _ _ _
  dsimp only [fetchOpcode]
  cases prefixed : Page.ofByte? c.fetchByte.1 with
  | none => rfl
  | some page =>
      dsimp only
      rw [(Page.prefixed_of_ofByte? prefixed).2]
      change { c.regs with pc := c.regs.pc + 1 + 1 } = _
      rw [next]
      rfl

theorem noteUndefined_regs (opcode : Page × UInt8) (start : UInt16) :
    (c.noteUndefined opcode start).regs = c.regs := by
  unfold noteUndefined
  split
  · rfl
  · rfl

/-- An instruction without an operand begins with only the program counter moved, past its opcode. -/
theorem located_regs_of_inherent (mode : c.fetched.mode = .inherent) : c.located.2.regs =
    { c.regs with pc := c.regs.pc + UInt16.ofNat c.fetchOpcode.1.1.opcodeLength } := by
  unfold located
  rw [mode]
  exact (noteUndefined_regs _ _ _).trans c.fetchOpcode_regs

/-- An instruction with a byte as its operand finds it behind the opcode, and begins with the program
counter moved past it too. -/
theorem located_of_immediate8 (mode : c.fetched.mode = .immediate8) :
    c.located.1 = 0 ∧
      c.located.2.cpu.ea = c.regs.pc + UInt16.ofNat c.fetchOpcode.1.1.opcodeLength ∧
      c.located.2.regs =
        { c.regs with pc := c.regs.pc + UInt16.ofNat c.fetchOpcode.1.1.opcodeLength + 1 } := by
  have moved (d : Core) : (d.locate .immediate8).1 = 0 ∧
      (d.locate .immediate8).2.cpu.ea = d.regs.pc ∧
      (d.locate .immediate8).2.regs = { d.regs with pc := d.regs.pc + 1 } := ⟨rfl, rfl, rfl⟩
  obtain ⟨none, ea, regs⟩ := moved (c.fetchOpcode.2.noteUndefined c.fetchOpcode.1 c.regs.pc)
  rw [noteUndefined_regs, fetchOpcode_regs] at ea regs
  unfold located
  rw [mode]
  exact ⟨none, ea, regs⟩

/-- A part of the registers that no stack pointer belongs to is out of reach of a push. -/
theorem pushRegister_part {α : Type} (part : Registers → α) {stack : StackPointer}
    (moved : ∀ r value, part (r.setStack stack value) = part r) (register : Register) :
    part (c.pushRegister stack register).regs = part c.regs := by
  unfold pushRegister
  split
  · exact moved c.regs _
  · exact moved c.regs _

theorem pushRegisters_part {α : Type} (part : Registers → α) {stack : StackPointer}
    (moved : ∀ r value, part (r.setStack stack value) = part r) (rs : List Register) :
    part (c.pushRegisters stack rs).regs = part c.regs := by
  induction rs with
  | nil => rfl
  | cons register rs ih => exact (pushRegister_part _ part moved register).trans ih

/-- A pull changes the stack pointer and its own register. -/
theorem pullRegister_part {α : Type} (part : Registers → α) {stack : StackPointer}
    {register : Register} (moved : ∀ r value, part (r.setStack stack value) = part r)
    (pulled : ∀ r value, part (r.set register value) = part r) :
    part (c.pullRegister stack register).regs = part c.regs := by
  unfold pullRegister
  split
  · exact (pulled _ _).trans (moved c.regs _)
  · exact (pulled _ _).trans (moved c.regs _)

theorem pullRegisters_part {α : Type} (part : Registers → α) {stack : StackPointer}
    {rs : List Register} (moved : ∀ r value, part (r.setStack stack value) = part r)
    (pulled : ∀ register ∈ rs, ∀ r value, part (r.set register value) = part r) :
    part (c.pullRegisters stack rs).regs = part c.regs := by
  induction rs generalizing c with
  | nil => rfl
  | cons register rs ih =>
      have first := c.pullRegister_part part moved (pulled register List.mem_cons_self)
      exact (ih _ fun other member => pulled other (List.mem_cons_of_mem _ member)).trans first

theorem pushRegisters_pc (stack : StackPointer) (rs : List Register) :
    (c.pushRegisters stack rs).regs.pc = c.regs.pc :=
  c.pushRegisters_part Registers.pc (fun r => r.pc_setStack stack) rs

theorem pullRegisters_pc (stack : StackPointer) {rs : List Register} (h : .pc ∉ rs) :
    (c.pullRegisters stack rs).regs.pc = c.regs.pc :=
  c.pullRegisters_part Registers.pc (fun r => r.pc_setStack stack) fun _ member =>
    Registers.pc_set fun same => h (same ▸ member)

theorem selectRegister_regs (code : UInt8) : (c.selectRegister code).2.regs = c.regs := by
  unfold selectRegister
  split
  · rfl
  · rfl

/-- A selector selects no register that it does not stand for, D apart. -/
theorem selectRegister_ne {code : UInt8} {register : Register} (other : register ≠ .d)
    (h : (Register.ofCode? code == some register) = false) :
    (c.selectRegister code).1 ≠ register := by
  unfold selectRegister
  split
  · rename_i chosen named
    intro same
    have same : chosen = register := same
    rw [named, same, beq_self_eq_true] at h
    cases h
  · exact other.symm

theorem selectPair_regs : c.selectPair.2.regs = c.regs := by
  rw [selectPair_eq]
  exact (selectRegister_regs _ _).trans (selectRegister_regs _ _)

theorem selectPair_ok {pair : Register × Register} (h : c.selectPair.1 = .ok pair) :
    pair = ((c.operandByte.2.selectRegister (c.operandByte.1 >>> 4)).1,
      ((c.operandByte.2.selectRegister (c.operandByte.1 >>> 4)).2.selectRegister
        (c.operandByte.1 &&& 0x0F)).1) := by
  rw [selectPair_eq] at h
  dsimp only [Register.pair] at h
  split at h
  · exact (Except.ok.inj h).symm
  · cases h

theorem onPair_part {α : Type} (part : Registers → α)
    {change : Registers → Register → Register → Registers}
    (keeps : ∀ pair, c.selectPair.1 = .ok pair → ∀ r, part (change r pair.1 pair.2) = part r) :
    part (c.onPair change).2.regs = part c.regs := by
  have regs := c.selectPair_regs
  unfold onPair
  revert keeps regs
  rcases c.selectPair with ⟨result, d⟩
  intro keeps regs
  cases result with
  | ok pair => exact (keeps pair rfl _).trans (congrArg part regs)
  | error fault => exact congrArg part regs

/-- An instruction that does not set the program counter leaves it alone. -/
theorem execute_pc {i : Instruction} (h : i.setsPc c.operandByte.1 = false) :
    (c.execute i).2.regs.pc = c.regs.pc := by
  cases i with
  | nop => rfl
  | illegal => rfl
  | byteOp op acc => exact Registers.pc_setAcc _ acc _
  | load acc => exact Registers.pc_setAcc _ acc _
  | store acc => rfl
  | andcc => rfl
  | orcc => rfl
  | addd => rfl
  | subd => rfl
  | compareWord register => rfl
  | loadWord register => exact Registers.pc_setWord _ register _
  | storeWord register => rfl
  | loadAddress register =>
      cases register with
      | x => rfl
      | y => rfl
      | u => rfl
      | s => rfl
  | unary op acc => exact Registers.pc_setAcc _ acc _
  | modify op => rfl
  | test acc => rfl
  | testMemory => rfl
  | abx => rfl
  | mul => rfl
  | daa => rfl
  | sex => rfl
  | tfr =>
      refine c.onPair_part Registers.pc fun pair named r => ?_
      rw [c.selectPair_ok named]
      exact Registers.pc_set (selectRegister_ne _ Register.noConfusion h) _ _
  | exg =>
      obtain ⟨first, second⟩ := Bool.or_eq_false_iff.mp h
      refine c.onPair_part Registers.pc fun pair named r => ?_
      rw [c.selectPair_ok named]
      exact (Registers.pc_set (selectRegister_ne _ Register.noConfusion second) _ _).trans
        (Registers.pc_set (selectRegister_ne _ Register.noConfusion first) _ _)
  | push stack => exact pushRegisters_pc _ stack _
  | pull stack => exact pullRegisters_pc _ stack (stack.pc_not_selected h)
  | cwai => exact pushRegisters_pc _ .s entireFrame
  | sync => rfl
  -- The others set the program counter.
  | branch condition => cases h
  | longBranch condition => cases h
  | bsr => cases h
  | lbsr => cases h
  | jsr => cases h
  | jmp => cases h
  | rts => cases h
  | rti => cases h
  | swi => cases h
  | swi2 => cases h
  | swi3 => cases h

/-- A branch of either length goes to its operand's address if its condition holds. -/
theorem execute_branch_pc {i : Instruction} {condition : Condition}
    (h : i = .branch condition ∨ i = .longBranch condition) : (c.execute i).2.regs.pc =
      if condition.holds c.regs.cc then c.cpu.ea else c.regs.pc := by
  rcases h with rfl | rfl
  · simp only [execute]
    split
    · rfl
    · rfl
  · simp only [execute]
    split
    · rfl
    · rfl

end Core
end Sim6809
