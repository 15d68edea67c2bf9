import Sim6809.Proofs.Interrupt.Admission
import Sim6809.Proofs.Listing.Agreement
import Sim6809.Proofs.Processor.Account
import Sim6809.Proofs.Processor.SameState

/-!
Failing steps. Only a transfer or exchange can fail, and it fails before it changes anything but the
registers that its fetch has moved, which the step puts back. What comes before the instruction stands:
an entry by FIRQ, or the end of a SYNC wait.
-/
namespace Sim6809.Core

variable {c d e : Core}

/-- Equal processors and memories, but for the registers, the operand's address and the log. -/
structure SameBeside (c d : Core) : Prop where
  cpu : d.cpu = { c.cpu with regs := d.cpu.regs, ea := d.cpu.ea }
  bus : Bus.SameState d.bus c.bus

namespace SameBeside

theorem refl (c : Core) : SameBeside c c := ⟨rfl, .refl c.bus⟩

theorem setRegs (h : SameBeside c d) (regs : Registers) : SameBeside c (d.setRegs regs) := by
  refine ⟨?_, h.bus⟩
  unfold Core.setRegs
  rw [h.cpu]

theorem setPc (h : SameBeside c d) (pc : UInt16) : SameBeside c (d.setPc pc) := h.setRegs _

theorem setEa (h : SameBeside c d) (ea : UInt16) : SameBeside c (d.setEa ea) := by
  refine ⟨?_, h.bus⟩
  unfold Core.setEa
  rw [h.cpu]

theorem addRecord (h : SameBeside c d) (level : Level) (text : String) :
    SameBeside c (d.addRecord level text) :=
  ⟨h.cpu, h.bus.memory, h.bus.loaded, h.bus.readHandlers, h.bus.writeHandlers, h.bus.requests,
    h.bus.console, h.bus.host⟩

theorem noteUndefined (h : SameBeside c d) (opcode : Page × UInt8) (start : UInt16) :
    SameBeside c (d.noteUndefined opcode start) := by
  unfold Core.noteUndefined
  split
  · exact h.addRecord _ _
  · exact h

theorem noteReserved (h : SameBeside c d) (postbyte : UInt8) (start : UInt16) :
    SameBeside c (d.noteReserved postbyte start) := by
  unfold Core.noteReserved
  split
  · exact h.addRecord _ _
  · exact h

section Reads

variable (h : SameBeside c d) (silent : c.bus.readHandlers = [])
include h silent

theorem readByte (address : UInt16) : SameBeside c (d.readByte address).2 := by
  rw [readByte_of_silent (h.bus.readHandlers.trans silent)]
  exact h

theorem readWord (address : UInt16) : SameBeside c (d.readWord address).2 := by
  rw [readWord_of_silent (h.bus.readHandlers.trans silent)]
  exact h

theorem fetchByte : SameBeside c d.fetchByte.2 := (h.readByte silent d.regs.pc).setPc _

theorem fetchWord : SameBeside c d.fetchWord.2 := (h.fetchByte silent).fetchByte silent

theorem indexedAddress (register : IndexRegister) (form : IndexedForm) :
    SameBeside c (d.indexedAddress register form).2 := by
  cases form with
  | offset8 => exact h.fetchByte silent
  | pcRelative8 => exact h.fetchByte silent
  | offset16 => exact h.fetchWord silent
  | pcRelative16 => exact h.fetchWord silent
  | extendedIndirect => exact h.fetchWord silent
  | postIncrement1 => exact h.setRegs _
  | postIncrement2 => exact h.setRegs _
  | preDecrement1 => exact h.setRegs _
  | preDecrement2 => exact h.setRegs _
  | _ => exact h

theorem resolve (address : UInt16) (decoded : IndexedPostbyte) :
    SameBeside c (d.resolve address decoded).2 := by
  unfold Core.resolve
  split
  · exact (h.readWord silent address).setEa _
  · exact h.setEa _

theorem locate (mode : AddressMode) : SameBeside c (d.locate mode).2 := by
  cases mode with
  | inherent => exact h
  | immediate8 => exact (h.setEa _).setPc _
  | immediate16 => exact (h.setEa _).setPc _
  | direct => exact (h.fetchByte silent).setEa _
  | extended => exact (h.fetchWord silent).setEa _
  | relative8 => exact (h.fetchByte silent).setEa _
  | relative16 => exact (h.fetchWord silent).setEa _
  | indexed =>
      have noted := (h.fetchByte silent).noteReserved d.fetchByte.1 d.regs.pc
      change SameBeside c d.locateIndexed.2
      rw [locateIndexed_eq]
      exact (noted.indexedAddress silent _ _).resolve silent _ _

end Reads

end SameBeside

/-- Equal in everything that a program can tell: only the address of the last operand, which every
instruction that uses it sets anew, and the log may differ. -/
structure Untouched (c d : Core) : Prop where
  cpu : d.cpu = { c.cpu with ea := d.cpu.ea }
  bus : Bus.SameState d.bus c.bus

theorem SameBeside.untouched (h : SameBeside c d) : Untouched c (d.setRegs c.regs) := by
  refine ⟨?_, h.bus⟩
  unfold Core.setRegs Core.regs
  rw [h.cpu]

theorem Untouched.refl (c : Core) : Untouched c c := ⟨rfl, .refl c.bus⟩

theorem Untouched.wait (h : Untouched c d) : d.cpu.wait = c.cpu.wait := by
  rw [h.cpu]

theorem Untouched.interrupts (h : Untouched c d) : d.cpu.interrupts = c.cpu.interrupts := by
  rw [h.cpu]

theorem Untouched.trans (h : Untouched c d) (k : Untouched d e) : Untouched c e := by
  refine ⟨?_, k.bus.trans h.bus⟩
  rw [k.cpu, h.cpu]

/-! ### The instruction that fails -/

/-- Only transfers and exchanges fail, and where they fail they have only chosen their registers. -/
theorem execute_error {i : Instruction} {fault : Fault} (failed : (c.execute i).1 = .error fault) :
    (i = .tfr ∨ i = .exg) ∧ (c.execute i).2 = c.selectPair.2 := by
  have pair (change : Registers → Register → Register → Registers)
      (failed : (c.onPair change).1 = .error fault) : (c.onPair change).2 = c.selectPair.2 := by
    unfold onPair at failed ⊢
    revert failed
    rcases c.selectPair with ⟨chosen, d⟩
    intro failed
    cases chosen with
    | ok registers => cases failed
    | error _ => rfl
  cases i with
  | tfr => exact ⟨.inl rfl, pair transfer failed⟩
  | exg => exact ⟨.inr rfl, pair exchange failed⟩
  | longBranch condition =>
      simp only [execute] at failed
      split at failed
      · cases failed
      · cases failed
  | _ => cases failed

theorem selectRegister_sameState (c : Core) (code : UInt8) :
    SameState (c.selectRegister code).2 c := by
  unfold Core.selectRegister
  split
  · exact .refl c
  · exact ⟨rfl, rfl, rfl, rfl, rfl, rfl, rfl, rfl⟩

theorem selectPair_sameState (silent : c.bus.readHandlers = []) : SameState c.selectPair.2 c := by
  have read : c.operandByte.2 = c := congrArg Prod.snd (readByte_of_silent silent c.cpu.ea)
  rw [selectPair_eq]
  dsimp only
  rw [read]
  exact (selectRegister_sameState _ _).trans (selectRegister_sameState _ _)

theorem mode_of_transfers (transfers : c.fetched.instruction = .tfr ∨ c.fetched.instruction = .exg) :
    c.fetched.mode = .immediate8 := by
  rcases transfers with tfr | exg
  · exact fetched_mode tfr rfl
  · exact fetched_mode exg rfl

/-- Before an instruction is executed only registers and the operand's address have changed. -/
theorem located_beside (silent : c.bus.readHandlers = []) : SameBeside c c.located.2 := by
  have fetched : SameBeside c c.fetchOpcode.2 := by
    rw [fetchOpcode_of_silent silent]
    exact (SameBeside.refl c).setPc _
  exact (fetched.noteUndefined _ _).locate silent _

/-- An instruction that fails is a transfer or an exchange that has only looked at its operand. -/
theorem perform_failed {fault : Fault} (failed : c.perform.1 = .error fault) :
    (c.fetched.instruction = .tfr ∨ c.fetched.instruction = .exg) ∧
      c.perform.2 = c.located.2.selectPair.2 := by
  rw [perform_eq] at failed ⊢
  dsimp only at failed ⊢
  have executed : (c.located.2.execute c.fetched.instruction).1 = .error fault := by
    revert failed
    cases (c.located.2.execute c.fetched.instruction).1 with
    | ok extra => intro failed; cases failed
    | error _ => exact id
  exact execute_error executed

/-- An instruction that fails has changed no more than registers. -/
theorem perform_error (silent : c.bus.readHandlers = []) {fault : Fault}
    (failed : c.perform.1 = .error fault) : SameBeside c c.perform.2 := by
  obtain ⟨_, left⟩ := perform_failed failed
  have located := located_beside silent
  have selected := selectPair_sameState (located.bus.readHandlers.trans silent)
  rw [left]
  refine ⟨?_, selected.bus.trans located.bus⟩
  rw [selected.cpu]
  exact located.cpu

/-- A failing instruction leaves the processor as the step had it before the instruction. -/
theorem conclude_error (silent : c.bus.readHandlers = []) {spent : Nat} {fault : Fault}
    (failed : (c.conclude spent c.perform).1 = .error fault) :
    Untouched c (c.conclude spent c.perform).2 := by
  have beside (fault : Fault) (performed : c.perform.1 = .error fault) :
      SameBeside c c.perform.2 := perform_error silent performed
  revert failed beside
  rcases c.perform with ⟨answer, d⟩
  intro failed beside
  cases answer with
  | ok cycles => cases failed
  | error fault => exact (beside fault rfl).untouched

/-! ### The step -/

theorem setWait_of_running (running : c.cpu.wait = .running) : c.setWait .running = c := by
  unfold setWait
  rw [← running]

theorem releaseSync_of_awake (awake : c.releaseSync.cpu.isWaiting = false) :
    c.cpu.wait ≠ .cwaiWait ∧ Untouched (c.setWait .running) c.releaseSync := by
  unfold releaseSync
  rcases c.releaseSync_awake_iff.mp awake with running | ⟨asleep, latched⟩
  · rw [setWait_of_running running, running]
    exact ⟨WaitState.noConfusion, .refl c⟩
  · rw [asleep, latched]
    exact ⟨WaitState.noConfusion, rfl, rfl, rfl, rfl, rfl, rfl, rfl, rfl⟩

theorem proceed_error (silent : c.bus.readHandlers = []) {spent : Nat} {fault : Fault}
    (failed : (c.proceed spent).1 = .error fault) :
    c.cpu.wait ≠ .cwaiWait ∧ Untouched (c.setWait .running) (c.proceed spent).2 := by
  rw [proceed_eq] at failed ⊢
  by_cases waiting : c.releaseSync.cpu.isWaiting = true
  · rw [if_pos waiting] at failed
    cases failed
  · rw [if_neg waiting] at failed ⊢
    obtain ⟨awake, released⟩ := releaseSync_of_awake (Bool.eq_false_iff.mpr waiting)
    have unanswered := released.bus.readHandlers.trans silent
    exact ⟨awake, released.trans (conclude_error unanswered failed)⟩

/-- No step installs a handler. -/
theorem plain_stable : StepStable fun c => c.bus.Plain where
  setRegs plain _ := plain
  setEa plain _ := plain
  setWait plain _ := plain
  addRecord plain _ _ _ := plain
  readByte plain address := by
    rw [readByte_of_plain plain]
    exact plain
  writeByte {c} plain address value := by
    change (c.bus.cpuWrite address value).Plain
    rw [plain.cpuWrite]
    exact plain
  account plain _ := plain
  applyRequests plain := plain
  dropLine plain _ := plain
  countInterrupt plain := plain

/-- A step fails after an entry by FIRQ or without an admission; the entries of the other lines end
the step. -/
theorem step_error (plain : c.bus.Plain) (quiet : c.bus.requests = []) {fault : Fault}
    (failed : c.step.1 = .error fault) :
    (c.cpu.admission? = none ∧ c.cpu.wait ≠ .cwaiWait ∧ Untouched (c.setWait .running) c.step.2) ∨
      (c.cpu.admission? = some .firq ∧ Untouched (c.enter .firq) c.step.2) := by
  rw [step_eq_finish, applyRequests_of_quiet quiet, admitted] at failed ⊢
  cases admission : c.cpu.admission? with
  | none =>
      rw [admission] at failed
      exact .inl ⟨rfl, proceed_error plain.1 failed⟩
  | some line =>
      rw [admission] at failed
      dsimp only [finish] at failed ⊢
      cases line with
      | nmi => cases failed
      | irq => cases failed
      | firq =>
          rw [if_pos rfl] at failed ⊢
          have entered := plain_stable.enter plain .firq
          obtain ⟨_, left⟩ := proceed_error entered.1 failed
          rw [setWait_of_running (c.enter_wait .firq)] at left
          exact .inr ⟨rfl, left⟩

/-- A failing step is without effect exactly if the processor was running and no interrupt was
admitted. Else it leaves the end of a SYNC wait or the entry by FIRQ, but it counts none of its
cycles. -/
theorem step_error_untouched_iff (plain : c.bus.Plain) (quiet : c.bus.requests = [])
    {fault : Fault} (failed : c.step.1 = .error fault) :
    (Untouched c c.step.2 ↔ c.cpu.admission? = none ∧ c.cpu.wait = .running) ∧
      SameCounts c c.step.2 ∧
      (c.cpu.admission? = none →
        c.cpu.wait ≠ .cwaiWait ∧ Untouched (c.setWait .running) c.step.2) ∧
      ∀ line, c.cpu.admission? = some line → line = .firq ∧ Untouched (c.enter .firq) c.step.2 := by
  have counts : SameCounts c c.step.2 := by
    have counted := c.step_counted
    revert counted failed
    rcases c.step with ⟨answer, d⟩
    rintro rfl
    exact id
  rcases step_error plain quiet failed with ⟨unadmitted, awake, left⟩ | ⟨firq, left⟩
  · refine ⟨⟨?_, ?_⟩, counts, fun _ => ⟨awake, left⟩, ?_⟩
    · intro untouched
      exact ⟨unadmitted, untouched.wait.symm.trans left.wait⟩
    · rintro ⟨_, running⟩
      rw [setWait_of_running running] at left
      exact left
    · intro line admitted
      rw [unadmitted] at admitted
      cases admitted
  · refine ⟨⟨?_, ?_⟩, counts, ?_, ?_⟩
    · intro untouched
      have same := untouched.interrupts
      rw [left.interrupts, (enter_lines c .firq).2] at same
      exact absurd same (Nat.succ_ne_self _)
    · rintro ⟨unadmitted, _⟩
      rw [firq] at unadmitted
      cases unadmitted
    · intro unadmitted
      rw [firq] at unadmitted
      cases unadmitted
    · intro line admitted
      rw [firq] at admitted
      exact ⟨(Option.some.inj admitted).symm, left⟩

/-- A processor about to execute a transfer from A to X. -/
def mismatched (latches : Latches) : Core where
  cpu := { Cpu.zero with regs := { Registers.zero with pc := 0x5000, s := 0x1000 }, latches }
  bus := (Bus.blank.pokeWord Event.firq.vector 0x5000).pokeBytes 0x5000 [0x1F, 0x81]

theorem mismatched_untouched : (mismatched .clear).step.1 = .error (.mismatchedRegisters .a .x) ∧
    Untouched (mismatched .clear) (mismatched .clear).step.2 := by
  have failed : (mismatched .clear).step.1 = .error (.mismatchedRegisters .a .x) := by rfl
  exact ⟨failed, (step_error_untouched_iff ⟨rfl, rfl⟩ rfl failed).1.mpr ⟨rfl, rfl⟩⟩

/-- A transfer that fails as the first instruction of a FIRQ handler leaves the entry. -/
theorem mismatched_keeps_entry : ¬ ∀ c : Core, c.bus.Plain → c.bus.requests = [] →
    ∀ fault, c.step.1 = .error fault → Untouched c c.step.2 := by
  intro effectless
  have failed : (mismatched ⟨false, false, true⟩).step.1 =
      .error (.mismatchedRegisters .a .x) := by rfl
  have untouched := effectless _ ⟨rfl, rfl⟩ rfl _ failed
  have kept := untouched.interrupts
  have entered : (mismatched ⟨false, false, true⟩).step.2.cpu.interrupts = 1 := by rfl
  rw [entered] at kept
  cases kept

end Sim6809.Core
