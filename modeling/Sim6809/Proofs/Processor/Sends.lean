import Sim6809.Proofs.Board.Setup
import Sim6809.Proofs.Processor.Fault
import Sim6809.Proofs.Processor.RegisterMask

/-!
The bytes that a step sends over the bus. The frame of an interrupt comes first, then what the
instruction stores or pushes, byte after byte in the order in which the bus receives them. Unless a
handler answers reads, a step leaves the bus as these bytes make it, whichever handlers receive them.
-/
namespace Sim6809

/-- Bytes with the addresses from a given one on. -/
def addressed (address : UInt16) : List UInt8 → List (UInt16 × UInt8)
  | [] => []
  | value :: values => (address, value) :: addressed (address + 1) values

namespace Bus

/-- The bus after it has received bytes from the processor in their order. -/
def receive (bus : Bus) (sent : List (UInt16 × UInt8)) : Bus :=
  sent.foldl (fun bus (address, value) => bus.cpuWrite address value) bus

variable {b d : Bus}

theorem receive_append (bus : Bus) (sent more : List (UInt16 × UInt8)) :
    bus.receive (sent ++ more) = (bus.receive sent).receive more := List.foldl_append

theorem SameState.receive (h : SameState b d) (sent : List (UInt16 × UInt8)) :
    SameState (b.receive sent) (d.receive sent) := by
  induction sent generalizing b d with
  | nil => exact h
  | cons first rest ih => exact ih (h.cpuWrite first.1 first.2)

theorem SameSetup.receive (h : SameSetup b d) (sent : List (UInt16 × UInt8)) :
    SameSetup (b.receive sent) d := by
  induction sent generalizing b with
  | nil => exact h
  | cons first rest ih => exact ih (h.cpuWrite first.1 first.2)

end Bus

namespace Registers

/-- What a push of registers sends below the top of a stack. The last register comes first, and the
bytes of each go upwards. -/
def pushes (regs : Registers) (top : UInt16) : List Register → List (UInt16 × UInt8)
  | [] => []
  | register :: rs => regs.pushes top rs ++
      addressed (top - UInt16.ofNat (Core.frameBytes (register :: rs))) (regs.bytes register)

end Registers

namespace Core

/-- What the entry of an interrupt sends with the full frame or the fast one. -/
def pushesEntire (c : Core) : List (UInt16 × UInt8) :=
  { c.regs with cc := { c.regs.cc with entire := true } }.pushes c.regs.s entireFrame

def pushesFast (c : Core) : List (UInt16 × UInt8) :=
  { c.regs with cc := { c.regs.cc with entire := false } }.pushes c.regs.s fastFrame

/-- What an instruction sends, as the processor executes it. -/
def sentBy (c : Core) : Instruction → List (UInt16 × UInt8)
  | .store acc => [(c.cpu.ea, c.regs.acc acc)]
  | .storeWord register => addressed c.cpu.ea (wordBytes (c.regs.word register))
  | .modify op => [(c.cpu.ea, (Alu.unary op c.regs.cc c.operandByte.1).1)]
  | .push stack => c.regs.pushes (c.regs.stack stack) (stack.selected c.operandByte.1)
  | .bsr | .lbsr | .jsr => c.regs.pushes c.regs.s [.pc]
  | .swi | .swi2 | .swi3 => c.pushesEntire
  | .cwai => (c.setFlags (c.regs.cc.keep c.operandByte.1)).pushesEntire
  | _ => []

/-- What the entry of an interrupt sends. -/
def sentOnEntry (c : Core) (line : InterruptLine) : List (UInt16 × UInt8) :=
  match c.cpu.wait, line with
  | .cwaiWait, _ => []
  | _, .firq => c.pushesFast
  | _, _ => c.pushesEntire

/-- What a step sends: the frame of the interrupt that it admits, and what its instruction sends if it
begins one. -/
def sent (c : Core) : List (UInt16 × UInt8) :=
  ((c.serves? .step).map c.sentOnEntry).getD [] ++
    (c.begins?.map fun d => d.located.2.sentBy d.fetched.instruction).getD []

variable {c d : Core} {stack : StackPointer}

/-! ### Pushes -/

theorem pushRegister_eq (c : Core) (stack : StackPointer) (register : Register) :
    c.pushRegister stack register =
      { c.setRegs (c.regs.setStack stack (c.regs.stack stack - UInt16.ofNat register.bytes)) with
        bus := c.bus.receive (addressed (c.regs.stack stack - UInt16.ofNat register.bytes)
          (c.regs.bytes register)) } := by
  unfold pushRegister Registers.bytes Register.bytes
  split
  · rfl
  · rfl

/-- A push of registers other than the pointer lowers the pointer and sends their bytes. -/
theorem pushRegisters_eq (c : Core) {rs : List Register} (others : stack.register ∉ rs) :
    c.pushRegisters stack rs =
      { c.setRegs (c.regs.setStack stack (c.regs.stack stack - UInt16.ofNat (frameBytes rs))) with
        bus := c.bus.receive (c.regs.pushes (c.regs.stack stack) rs) } := by
  induction rs with
  | nil =>
      have top : c.regs.stack stack - UInt16.ofNat 0 = c.regs.stack stack := UInt16.sub_zero _
      change c = { c.setRegs (c.regs.setStack stack (c.regs.stack stack - UInt16.ofNat 0)) with
        bus := c.bus }
      rw [top, Registers.setStack_stack]
      rfl
  | cons register rs ih =>
      obtain ⟨first, rest⟩ := not_or.mp (mt List.mem_cons.mpr others)
      have lower (top : UInt16) : top - UInt16.ofNat (frameBytes rs) - UInt16.ofNat register.bytes =
          top - UInt16.ofNat (frameBytes (register :: rs)) := by
        rw [Memory.sub_sub_eq, UInt16.add_comm, ← UInt16.ofNat_add]
        rfl
      change (c.pushRegisters stack rs).pushRegister stack register = _
      rw [ih rest, pushRegister_eq]
      simp only [setRegs, regs, Registers.stack_setStack, Registers.setStack_setStack,
        Registers.bytes_setStack _ (Ne.symm first), lower, Registers.pushes, Bus.receive_append]

/-- Flags that are set before a push are pushed with the other registers. -/
theorem setFlags_pushRegisters_bus (c : Core) (cc : Flags) {rs : List Register} (others : .s ∉ rs) :
    ((c.setFlags cc).pushRegisters .s rs).bus =
      c.bus.receive ({ c.regs with cc }.pushes c.regs.s rs) := by
  rw [pushRegisters_eq _ others]
  rfl

theorem pushEntire_bus (c : Core) : c.pushEntire.bus = c.bus.receive c.pushesEntire :=
  c.setFlags_pushRegisters_bus _ (by decide)

theorem pushFast_bus (c : Core) : c.pushFast.bus = c.bus.receive c.pushesFast :=
  c.setFlags_pushRegisters_bus _ (by decide)

@[simp] theorem setWait_bus (c : Core) (wait : WaitState) : (c.setWait wait).bus = c.bus := rfl

/-! ### Reads -/

section Reads

variable (silent : c.bus.readHandlers = [])
include silent

theorem pullRegister_bus (stack : StackPointer) (register : Register) :
    (c.pullRegister stack register).bus = c.bus := by
  have word (regs : Registers) (address : UInt16) : ((c.setRegs regs).readWord address).2.bus = c.bus :=
    congrArg (·.2.bus) (readWord_of_silent (c := c.setRegs regs) silent address)
  have byte (regs : Registers) (address : UInt16) : ((c.setRegs regs).readByte address).2.bus = c.bus :=
    congrArg (·.2.bus) (readByte_of_silent (c := c.setRegs regs) silent address)
  unfold pullRegister
  split
  · exact word _ _
  · exact byte _ _

theorem pullRegisters_bus (stack : StackPointer) (rs : List Register) :
    (c.pullRegisters stack rs).bus = c.bus := by
  induction rs generalizing c with
  | nil => rfl
  | cons register rs ih =>
      have first := pullRegister_bus silent stack register
      exact (ih (first ▸ silent)).trans first

theorem pullFrame_bus : c.pullFrame.2.bus = c.bus := by
  rw [pullFrame_eq]
  split
  · exact pullRegisters_bus silent .s entireFrame
  · exact pullRegisters_bus silent .s fastFrame

/-! ### Instructions -/

theorem onPair_bus (change : Registers → Register → Register → Registers) :
    Bus.SameState (c.onPair change).2.bus c.bus := by
  have selected := (selectPair_sameState silent).bus
  unfold onPair
  revert selected
  rcases c.selectPair with ⟨chosen, d⟩
  intro selected
  cases chosen with
  | ok pair => exact selected
  | error fault => exact selected

end Reads

theorem silent_receive (silent : c.bus.readHandlers = []) (sent : List (UInt16 × UInt8)) :
    (c.bus.receive sent).readHandlers = [] :=
  ((Bus.SameSetup.refl c.bus).receive sent).readHandlers.trans silent

theorem softwareInterrupt_bus (silent : c.bus.readHandlers = []) (event : Event) (masks : Bool) :
    (c.softwareInterrupt event masks).bus = c.bus.receive c.pushesEntire := by
  have pushed := c.pushEntire_bus
  dsimp only [softwareInterrupt]
  generalize c.pushEntire = d at pushed ⊢
  have fetched (e : Core) (same : e.bus = d.bus) : (e.readWord event.vector).2.bus = d.bus := by
    rw [readWord_of_silent (same ▸ pushed ▸ silent_receive silent _), same]
  cases masks with
  | true => exact (fetched (d.setFlags d.regs.cc.maskInterrupts) rfl).trans pushed
  | false => exact (fetched d rfl).trans pushed

/-- An instruction leaves the bus as the bytes make it that it sends. -/
theorem execute_bus (silent : c.bus.readHandlers = []) (i : Instruction) :
    Bus.SameState (c.execute i).2.bus (c.bus.receive (c.sentBy i)) := by
  have operandByte : c.operandByte.2 = c := congrArg Prod.snd (readByte_of_silent silent c.cpu.ea)
  have operandWord : c.operandWord.2 = c := congrArg Prod.snd (readWord_of_silent silent c.cpu.ea)
  have same {b d : Bus} (h : b = d) : Bus.SameState b d := h ▸ .refl b
  have readByte {d : Core} (h : d.bus = c.operandByte.2.bus) : Bus.SameState d.bus c.bus :=
    same (by rw [h, operandByte])
  have readWord {d : Core} (h : d.bus = c.operandWord.2.bus) : Bus.SameState d.bus c.bus :=
    same (by rw [h, operandWord])
  cases i with
  | byteOp op acc => exact readByte rfl
  | load acc => exact readByte rfl
  | andcc => exact readByte rfl
  | orcc => exact readByte rfl
  | testMemory => exact readByte rfl
  | addd => exact readWord rfl
  | subd => exact readWord rfl
  | compareWord register => exact readWord rfl
  | loadWord register => exact readWord rfl
  | store acc => exact .refl _
  | storeWord register => exact .refl _
  | modify op =>
      simp only [execute, modify, operandByte]
      exact .refl _
  | loadAddress register =>
      cases register with
      | _ => exact .refl c.bus
  | tfr => exact onPair_bus silent transfer
  | exg => exact onPair_bus silent exchange
  | branch condition =>
      simp only [execute]
      split
      · exact .refl c.bus
      · exact .refl c.bus
  | longBranch condition =>
      simp only [execute]
      split
      · exact .refl c.bus
      · exact .refl c.bus
  | bsr => exact .refl _
  | lbsr => exact .refl _
  | jsr => exact .refl _
  | rts => exact same (pullRegister_bus silent .s .pc)
  | push stack =>
      simp only [execute, operandByte]
      exact same (congrArg Core.bus (c.pushRegisters_eq (stack.register_not_selected _)))
  | pull stack =>
      simp only [execute, operandByte]
      exact same (pullRegisters_bus silent stack _)
  | rti => exact same (pullFrame_bus silent)
  | swi =>
      dsimp only [execute]
      exact same (softwareInterrupt_bus silent .swi true)
  | swi2 =>
      dsimp only [execute]
      exact same (softwareInterrupt_bus silent .swi2 false)
  | swi3 =>
      dsimp only [execute]
      exact same (softwareInterrupt_bus silent .swi3 false)
  | cwai =>
      dsimp only [execute, waitForInterrupt]
      rw [operandByte, setWait_bus, pushEntire_bus]
      exact .refl _
  | nop => exact .refl c.bus
  | illegal => exact .refl c.bus
  | unary op acc => exact .refl c.bus
  | test acc => exact .refl c.bus
  | abx => exact .refl c.bus
  | mul => exact .refl c.bus
  | daa => exact .refl c.bus
  | sex => exact .refl c.bus
  | jmp => exact .refl c.bus
  | sync => exact .refl c.bus

/-! ### Steps -/

theorem pushFrame_bus (c : Core) (line : InterruptLine) :
    (c.pushFrame line).bus = c.bus.receive (c.sentOnEntry line) := by
  unfold pushFrame sentOnEntry
  cases c.cpu.wait with
  | cwaiWait => rfl
  | running =>
      cases line with
      | nmi => exact c.pushEntire_bus
      | irq => exact c.pushEntire_bus
      | firq => exact c.pushFast_bus
  | syncWait =>
      cases line with
      | nmi => exact c.pushEntire_bus
      | irq => exact c.pushEntire_bus
      | firq => exact c.pushFast_bus

theorem enter_bus (silent : c.bus.readHandlers = []) (line : InterruptLine) :
    Bus.SameState (c.enter line).bus (c.bus.receive (c.sentOnEntry line)) := by
  have pushed := c.pushFrame_bus line
  have jumped (d : Core) (same : d.bus = (c.pushFrame line).bus) :
      Bus.SameState (d.jumpThrough line).bus (c.bus.receive (c.sentOnEntry line)) := by
    unfold jumpThrough
    rw [readWord_of_silent (same ▸ pushed ▸ silent_receive silent _), ← pushed, ← same]
    exact ⟨rfl, rfl, rfl, rfl, rfl, rfl, rfl⟩
  rw [enter_eq]
  cases line with
  | nmi => exact jumped _ rfl
  | irq => exact jumped _ rfl
  | firq => exact jumped _ rfl

theorem releaseSync_bus (c : Core) : Bus.SameState c.releaseSync.bus c.bus := by
  unfold releaseSync
  split
  · exact ⟨rfl, rfl, rfl, rfl, rfl, rfl, rfl⟩
  · exact .refl c.bus

/-- What precedes the instruction of a step sends the frame of an interrupt or nothing. -/
theorem roused_bus (silent : c.bus.readHandlers = []) : Bus.SameState c.roused.bus
    (c.applyRequests.bus.receive (((c.serves? .step).map c.sentOnEntry).getD [])) := by
  cases served : c.serves? .step with
  | none =>
      rw [roused_of_unserved served]
      exact releaseSync_bus _
  | some line =>
      rw [roused_of_serves served]
      exact enter_bus (c := c.applyRequests) silent line

theorem conclude_bus (c : Core) (spent : Nat) (performed : Except Fault Nat × Core) :
    (c.conclude spent performed).2.bus = performed.2.bus := by
  obtain ⟨answer, d⟩ := performed
  cases answer with
  | ok cycles => rfl
  | error fault => rfl

/-- A step leaves the bus as the bytes make it that it sends, whether or not it fails. The requests that
waited have been carried out before. -/
theorem step_bus (silent : c.bus.readHandlers = []) :
    Bus.SameState c.step.2.bus (c.applyRequests.bus.receive c.sent) := by
  have roused := roused_bus silent
  unfold sent
  rw [Bus.receive_append]
  cases begins : c.begins? with
  | none =>
      obtain ⟨cycles, stepped⟩ := step_of_unbegun begins
      rw [stepped]
      exact roused
  | some d =>
      obtain ⟨spent, stepped⟩ := step_of_begins? begins
      obtain rfl := eq_roused_of_begins? begins
      have quiet := roused.readHandlers.trans (silent_receive (c := c.applyRequests) silent _)
      have located := (located_beside quiet).bus
      have executed := execute_bus (located.readHandlers.trans quiet) c.roused.fetched.instruction
      rw [stepped, conclude_bus, perform_eq]
      exact executed.trans ((located.trans roused).receive _)

end Core
end Sim6809
