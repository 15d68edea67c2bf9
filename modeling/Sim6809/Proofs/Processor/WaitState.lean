import Sim6809.Proofs.Processor.Step

/-!
Where a wait begins. CWAI and SYNC begin one as they are executed. No other instruction touches the
wait state, nor does anything that comes before an instruction, whatever handlers the bus has.
-/
namespace Sim6809

/-- The wait that an instruction begins. -/
def Instruction.begunWait? : Instruction → Option WaitState
  | cwai => some .cwaiWait
  | sync => some .syncWait
  | _ => none

namespace Core

variable (c : Core)

/-! ### Stacks and pairs of registers -/

theorem pushRegister_wait (stack : StackPointer) (register : Register) :
    (c.pushRegister stack register).cpu.wait = c.cpu.wait := by
  unfold pushRegister
  split
  · rfl
  · rfl

theorem pushRegisters_wait (stack : StackPointer) (rs : List Register) :
    (c.pushRegisters stack rs).cpu.wait = c.cpu.wait := by
  induction rs with
  | nil => rfl
  | cons register rs ih => exact (pushRegister_wait _ stack register).trans ih

theorem pullRegister_wait (stack : StackPointer) (register : Register) :
    (c.pullRegister stack register).cpu.wait = c.cpu.wait := by
  unfold pullRegister
  split
  · rfl
  · rfl

theorem pullRegisters_wait (stack : StackPointer) (rs : List Register) :
    (c.pullRegisters stack rs).cpu.wait = c.cpu.wait := by
  induction rs generalizing c with
  | nil => rfl
  | cons register rs ih => exact (ih _).trans (c.pullRegister_wait stack register)

theorem pullFrame_wait : c.pullFrame.2.cpu.wait = c.cpu.wait := by
  have flags := c.pullRegister_wait .s .cc
  unfold pullFrame
  generalize c.pullRegister .s .cc = d at flags
  dsimp only
  split
  · dsimp only
    rw [pullRegisters_wait, flags]
  · dsimp only
    rw [pullRegisters_wait, flags]

theorem softwareInterrupt_wait (event : Event) (masks : Bool) :
    (c.softwareInterrupt event masks).cpu.wait = c.cpu.wait := by
  have pushed : c.pushEntire.cpu.wait = c.cpu.wait := pushRegisters_wait _ .s entireFrame
  unfold softwareInterrupt
  generalize c.pushEntire = d at pushed
  cases masks with
  | true => exact pushed
  | false => exact pushed

theorem selectRegister_wait (code : UInt8) :
    (c.selectRegister code).2.cpu.wait = c.cpu.wait := by
  unfold selectRegister
  split
  · rfl
  · rfl

theorem onPair_wait (change : Registers → Register → Register → Registers) :
    (c.onPair change).2.cpu.wait = c.cpu.wait := by
  have selected : c.selectPair.2.cpu.wait = c.cpu.wait := by
    rw [selectPair_eq]
    exact (selectRegister_wait _ _).trans (selectRegister_wait _ _)
  unfold onPair
  revert selected
  rcases c.selectPair with ⟨chosen, d⟩
  intro selected
  cases chosen with
  | ok pair => exact selected
  | error fault => exact selected

/-! ### Instructions -/

theorem execute_wait (i : Instruction) :
    (c.execute i).2.cpu.wait = i.begunWait?.getD c.cpu.wait := by
  cases i with
  | loadAddress register =>
      cases register with
      | x => rfl
      | y => rfl
      | u => rfl
      | s => rfl
  | tfr => exact c.onPair_wait transfer
  | exg => exact c.onPair_wait exchange
  | branch condition =>
      simp only [execute]
      split
      · rfl
      · rfl
  | longBranch condition =>
      simp only [execute]
      split
      · rfl
      · rfl
  | push stack => exact pushRegisters_wait _ stack _
  | pull stack => exact pullRegisters_wait _ stack _
  | rts => exact c.pullRegister_wait .s .pc
  | rti => exact c.pullFrame_wait
  | swi =>
      dsimp only [execute]
      exact c.softwareInterrupt_wait .swi true
  | swi2 =>
      dsimp only [execute]
      exact c.softwareInterrupt_wait .swi2 false
  | swi3 =>
      dsimp only [execute]
      exact c.softwareInterrupt_wait .swi3 false
  | _ => rfl

theorem fetchOpcode_wait : c.fetchOpcode.2.cpu.wait = c.cpu.wait := by
  dsimp only [fetchOpcode]
  cases Page.ofByte? c.fetchByte.1 with
  | none => rfl
  | some page => rfl

theorem noteUndefined_wait (opcode : Page × UInt8) (start : UInt16) :
    (c.noteUndefined opcode start).cpu.wait = c.cpu.wait := by
  unfold noteUndefined
  split
  · rfl
  · rfl

theorem noteReserved_wait (postbyte : UInt8) (start : UInt16) :
    (c.noteReserved postbyte start).cpu.wait = c.cpu.wait := by
  unfold noteReserved
  split
  · rfl
  · rfl

theorem indexedAddress_wait (register : IndexRegister) (form : IndexedForm) :
    (c.indexedAddress register form).2.cpu.wait = c.cpu.wait := by
  cases form with
  | _ => rfl

theorem resolve_wait (address : UInt16) (decoded : IndexedPostbyte) :
    (c.resolve address decoded).2.cpu.wait = c.cpu.wait := by
  unfold resolve
  split
  · rfl
  · rfl

theorem locate_wait (mode : AddressMode) : (c.locate mode).2.cpu.wait = c.cpu.wait := by
  cases mode with
  | indexed =>
      change c.locateIndexed.2.cpu.wait = _
      rw [locateIndexed_eq]
      dsimp only
      rw [resolve_wait, indexedAddress_wait, noteReserved_wait]
      rfl
  | _ => rfl

theorem located_wait : c.located.2.cpu.wait = c.cpu.wait := by
  unfold located
  rw [locate_wait, noteUndefined_wait, fetchOpcode_wait]

theorem perform_wait :
    c.perform.2.cpu.wait = c.fetched.instruction.begunWait?.getD c.cpu.wait := by
  rw [perform_eq, execute_wait, located_wait]

/-- A fault puts back the registers and nothing else. -/
theorem conclude_wait (spent : Nat) (performed : Except Fault Nat × Core) :
    (c.conclude spent performed).2.cpu.wait = performed.2.cpu.wait := by
  obtain ⟨answer, d⟩ := performed
  cases answer with
  | ok cycles => rfl
  | error fault => rfl

end Core
end Sim6809
