import Sim6809.Monitor
import Sim6809.Proofs.Processor.Plain
import Sim6809.Proofs.Processor.ProgramCounter

/-!
A listing shows what the processor does. Both read the instruction at the program counter on their
own: the listing from the cells, the processor by moving its program counter along. They agree on
the opcode, the addressing mode and the length, and so on where a step goes on.
-/
namespace Sim6809

namespace Operation

/-- Whether the operation sets the program counter itself, as its operand byte has it. -/
def setsPc (op : Operation) : Bool := op.instruction.setsPc (op.operand.bytes.headD 0)

/-- The bytes that the processor passes as it fetches the operation and locates its operand. The
number of a system call is not among them. -/
def passedLength (op : Operation) : Nat :=
  op.page.opcodeLength + (op.mode.operandLength + op.postOperand.bytes.length)

/-- The bytes that an operation takes, the number of a system call included. -/
def length (op : Operation) : Nat :=
  op.passedLength + if op.instruction = .swi2 then 1 else 0

/-- Where the operand of an operation ends, offset bytes included. -/
def endAddress (op : Operation) : UInt16 :=
  op.operandAddress + UInt16.ofNat op.mode.operandLength + UInt16.ofNat op.postOperand.bytes.length

variable (m : Memory) (address : UInt16)

theorem read_os9Call : (read m address).os9Call = if (read m address).instruction = .swi2 then
    some (m.read (read m address).endAddress) else none := rfl

/-- The length is put together from those of the parts. -/
theorem length_read : (read m address).page.opcodeLength +
    (read m address).mode.operandLength + (read m address).postOperand.bytes.length +
      (if (read m address).os9Call.isSome then 1 else 0) = (read m address).length := by
  rw [read_os9Call, length, passedLength, Nat.add_assoc (read m address).page.opcodeLength]
  split
  · rfl
  · rfl

theorem read_size : (read m address).size = UInt16.ofNat (read m address).length :=
  congrArg UInt16.ofNat (length_read m address)

/-- What is passed ends where the operation does, but for the number of a system call. -/
theorem add_passedLength : address + UInt16.ofNat (read m address).passedLength =
    if (read m address).instruction = .swi2 then (read m address).next - 1
    else (read m address).next := by
  have next : (read m address).next = address + (read m address).size := rfl
  rw [next, read_size, length]
  split
  · rw [UInt16.ofNat_add, ← UInt16.add_assoc]
    exact (UInt16.add_sub_cancel _ 1).symm
  · rfl

end Operation

/-- The step of a processor carries out an operation of a listing. -/
structure Core.CarriesOut (c : Core) (op : Operation) : Prop where
  /-- The step is the instruction at the program counter and nothing else. -/
  step : c.step = c.conclude 0 c.perform
  opcode : c.fetchOpcode.1 = (op.page, op.opcode)
  instruction : c.fetched.instruction = op.instruction
  mode : c.fetched.mode = op.mode
  undefined : Opcode.lookup? op.page op.opcode = none →
    op.instruction = .illegal ∧ op.mode = .inherent
  perform : c.perform = ((c.located.2.execute op.instruction).1.map
    (c.fetched.cycles + c.located.1 + ·), (c.located.2.execute op.instruction).2)
  /-- Once the operand is located the program counter is behind the operation. -/
  located : c.located.2.regs.pc = if op.instruction = .swi2 then op.next - 1 else op.next
  goesOn : ∀ cycles, c.step.1 = .ok cycles → op.setsPc = false → c.step.2.regs.pc = op.next
  branch : ∀ cycles condition, c.step.1 = .ok cycles →
    op.instruction = .branch condition ∨ op.instruction = .longBranch condition →
    if condition.holds c.regs.cc then op.branchTarget? = some c.step.2.regs.pc
    else c.step.2.regs.pc = op.next
  call : ∀ cycles, c.step.1 = .ok cycles → op.instruction = .bsr ∨ op.instruction = .lbsr →
    op.branchTarget? = some c.step.2.regs.pc

namespace Core

/-- A running processor without requests steps by the instruction at its program counter. -/
theorem step_of_quiet {c : Core} (running : c.cpu.wait = .running) (quiet : c.bus.requests = [])
    (unadmitted : c.cpu.admission? = none) : c.step = c.conclude 0 c.perform := by
  have released : c.releaseSync = c := releaseSync_of_ne (running ▸ WaitState.noConfusion)
  have awake : c.cpu.isWaiting = false := isWaiting_eq_false_iff.mpr running
  rw [step_eq_finish, applyRequests_of_quiet quiet, admitted, unadmitted]
  change c.proceed 0 = _
  rw [proceed_eq, released, awake]
  rfl

/-- A step that succeeds ends with the registers that its instruction left. -/
theorem conclude_regs {c : Core} {spent cycles : Nat} {performed : Except Fault Nat × Core}
    (ok : (c.conclude spent performed).1 = .ok cycles) :
    (c.conclude spent performed).2.regs = performed.2.regs := by
  rcases performed with ⟨result, d⟩
  cases result with
  | ok _ => rfl
  | error _ => cases ok

/-- The operation that a listing shows at the program counter. -/
def listed (c : Core) : Operation := Operation.read c.bus.memory c.regs.pc

theorem listed_mode (c : Core) {mode : AddressMode} (h : c.listed.instruction.mode? = some mode) :
    c.listed.mode = mode :=
  Opcode.mode_of_mode? c.listed.page c.listed.opcode h

variable {c : Core} (h : c.bus.Plain)
include h

theorem fetched_of_plain : c.fetched = Opcode.lookup c.listed.page c.listed.opcode := by
  unfold fetched
  rw [fetchOpcode_of_plain h]
  rfl

theorem passed_fetch : Passed c (c.fetchOpcode.2.noteUndefined c.fetchOpcode.1 c.regs.pc)
    c.listed.page.opcodeLength := by
  rw [fetchOpcode_of_plain h]
  exact (passed_setPc h _).noteUndefined _ _

theorem located_of_plain : c.located =
    (c.fetchOpcode.2.noteUndefined c.fetchOpcode.1 c.regs.pc).locate c.listed.mode := by
  unfold located
  rw [fetched_of_plain h]
  rfl

theorem perform_of_plain : c.perform = ((c.located.2.execute c.listed.instruction).1.map
    (c.fetched.cycles + c.located.1 + ·), (c.located.2.execute c.listed.instruction).2) := by
  rw [perform_eq, fetched_of_plain h]
  rfl

theorem passed_located : Passed c c.located.2 c.listed.passedLength := by
  have first := passed_fetch h
  have second := passed_locate first.plain c.listed.mode (c.regs.pc +
    UInt16.ofNat c.listed.page.opcodeLength + UInt16.ofNat c.listed.mode.operandLength)
  rw [first.memory, first.pc] at second
  rw [located_of_plain h]
  exact first.trans second

theorem located_pc : c.located.2.regs.pc =
    if c.listed.instruction = .swi2 then c.listed.next - 1 else c.listed.next := by
  rw [(passed_located h).pc]
  exact Operation.add_passedLength _ _

theorem located_next (other : c.listed.instruction ≠ .swi2) :
    c.located.2.regs.pc = c.listed.next := by
  rw [located_pc h, if_neg other]

/-- An operand byte in the listing is the one that the instruction reads. -/
theorem located_operandByte (mode : c.listed.mode = .immediate8) :
    c.listed.operand = .immediate8 c.located.2.operandByte.1 := by
  have first := passed_fetch h
  have operand : c.listed.operand = Operand.read c.bus.memory
      (c.regs.pc + UInt16.ofNat c.listed.page.opcodeLength) c.listed.mode := rfl
  rw [located_of_plain h, operand, mode, locate_immediate8_operandByte first.plain, first.memory,
    first.pc]
  rfl

/-- A relative operand leads to the target that the listing shows. -/
theorem located_ea (mode : c.listed.mode = .relative8 ∨ c.listed.mode = .relative16)
    (other : c.listed.instruction ≠ .swi2) :
    c.listed.branchTarget? = some c.located.2.cpu.ea := by
  have first := passed_fetch h
  have operand : c.listed.operand = Operand.read c.bus.memory
      (c.regs.pc + UInt16.ofNat c.listed.page.opcodeLength) c.listed.mode := rfl
  unfold Operation.branchTarget?
  rw [operand, ← located_next h other, located_of_plain h]
  rcases mode with mode | mode
  · rw [mode, locate_relative8_ea first.plain, first.memory, first.pc]
    rfl
  · rw [mode, locate_relative16_ea first.plain, first.memory, first.pc]
    rfl

/-- The listing tells from the operand byte whether the program counter is set. -/
theorem listed_setsPc : c.listed.setsPc = c.listed.instruction.setsPc c.located.2.operandByte.1 := by
  unfold Operation.setsPc
  generalize hi : c.listed.instruction = i
  have operand (mode : i.mode? = some .immediate8) :
      c.listed.operand.bytes.headD 0 = c.located.2.operandByte.1 := by
    rw [located_operandByte h (c.listed_mode (hi ▸ mode))]
    rfl
  cases i with
  | tfr => rw [operand rfl]
  | exg => rw [operand rfl]
  | pull stack => rw [operand rfl]
  | _ => rfl

/-- A branch goes to the target that the listing shows if its condition holds of the flags that the
step finds, else to the operation behind it. -/
theorem execute_branch {condition : Condition}
    (branch : c.listed.instruction = .branch condition ∨
      c.listed.instruction = .longBranch condition) :
    if condition.holds c.regs.cc then
      c.listed.branchTarget? =
        some (c.located.2.execute c.listed.instruction).2.regs.pc
    else (c.located.2.execute c.listed.instruction).2.regs.pc = c.listed.next := by
  have mode : c.listed.mode = .relative8 ∨ c.listed.mode = .relative16 := by
    rcases branch with short | long
    · exact .inl (c.listed_mode (by rw [short]; rfl))
    · exact .inr (c.listed_mode (by rw [long]; rfl))
  have other : c.listed.instruction ≠ .swi2 := by
    rintro same
    rw [same] at branch
    rcases branch with short | long
    · cases short
    · cases long
  rw [← (passed_located h).cc, execute_branch_pc _ branch]
  split
  · exact located_ea h mode other
  · exact located_next h other

theorem execute_call (call : c.listed.instruction = .bsr ∨ c.listed.instruction = .lbsr) :
    c.listed.branchTarget? = some (c.located.2.execute c.listed.instruction).2.regs.pc := by
  rcases call with short | long
  · have target := located_ea h (.inl (c.listed_mode (short ▸ rfl))) (by rw [short]; decide)
    rw [short]
    exact target
  · have target := located_ea h (.inr (c.listed_mode (long ▸ rfl))) (by rw [long]; decide)
    rw [long]
    exact target

theorem execute_goesOn (stays : c.listed.setsPc = false) :
    (c.located.2.execute c.listed.instruction).2.regs.pc = c.listed.next := by
  have other : c.listed.instruction ≠ .swi2 := by
    intro same
    rw [listed_setsPc h, same] at stays
    cases stays
  rw [listed_setsPc h] at stays
  exact (execute_pc _ stays).trans (located_next h other)

theorem carriesOut_listed (stepped : c.step = c.conclude 0 c.perform) :
    c.CarriesOut c.listed := by
  have ended {cycles : Nat} (ok : c.step.1 = .ok cycles) :
      c.step.2.regs = (c.located.2.execute c.listed.instruction).2.regs := by
    rw [stepped] at ok ⊢
    rw [conclude_regs ok, perform_of_plain h]
  have entry := fetched_of_plain h
  refine ⟨stepped, ?_, ?_, ?_, ?_, perform_of_plain h, located_pc h, ?_, ?_, ?_⟩
  · rw [fetchOpcode_of_plain h]
    rfl
  · exact congrArg Opcode.instruction entry
  · exact congrArg Opcode.mode entry
  · intro undefined
    have taken := Opcode.lookup_undefined undefined
    exact ⟨congrArg Opcode.instruction taken, congrArg Opcode.mode taken⟩
  · intro cycles ok stays
    rw [ended ok]
    exact execute_goesOn h stays
  · intro cycles condition ok branch
    rw [ended ok]
    exact execute_branch h branch
  · intro cycles ok call
    rw [ended ok]
    exact execute_call h call

omit h

/-- Labels are no part of what is carried out. -/
theorem CarriesOut.withLabels {op : Operation} (carried : c.CarriesOut op)
    (symbols : SymbolTable) : c.CarriesOut (op.withLabels symbols) :=
  ⟨carried.step, carried.opcode, carried.instruction, carried.mode, carried.undefined,
    carried.perform, carried.located, carried.goesOn, carried.branch, carried.call⟩

end Core

/-- On a bus without handlers, for all registers, memory contents and symbols, the step of a running
processor that no interrupt reaches carries out the operation that the monitor shows at the program
counter. -/
theorem Monitor.carriesOut_disassemble (m : Monitor) (plain : m.bus.Plain)
    (running : m.cpu.wait = .running) (quiet : m.bus.requests = [])
    (unadmitted : m.cpu.admission? = none) : m.core.CarriesOut (m.disassemble m.pc) := by
  have stepped := Core.step_of_quiet running quiet unadmitted
  exact (Core.carriesOut_listed plain stepped).withLabels m.symbols

/-- A monitor whose program counter is at a long call near the top of memory, the last byte of which
lies at address zero. -/
def Monitor.wrappedCall : Monitor :=
  Monitor.blank.setCore {
    cpu := { Cpu.zero with regs := { Registers.zero with pc := 0xFFFE, s := 0x0500 } }
    bus := Bus.blank.pokeBytes 0xFFFE [0x17, 0x00, 0x10] }

theorem Monitor.wrappedCall_pc : wrappedCall.core.step.1 = .ok 9 ∧
    wrappedCall.core.step.2.regs.pc = 0x0011 := by
  have carried := carriesOut_disassemble wrappedCall ⟨rfl, rfl⟩ rfl rfl rfl
  have ok : wrappedCall.core.step.1 = .ok 9 := by rfl
  have target := carried.call 9 ok (.inr rfl)
  have shown : (wrappedCall.disassemble wrappedCall.pc).branchTarget? = some 0x0011 := by rfl
  exact ⟨ok, Option.some.inj (target.symm.trans shown)⟩

end Sim6809
