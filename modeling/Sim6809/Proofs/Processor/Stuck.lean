import Sim6809.Proofs.Board.Setup
import Sim6809.Proofs.Processor.Comparison
import Sim6809.Proofs.Processor.Transfer

/-!
Processors that a fault has stopped. A failing step ends in front of the instruction that failed, and
from there the next step comes back to it: no interrupt can be admitted, since the step has served what
could be served and a FIRQ entry masks the rest. So a processor that no handler disturbs fails again and
again, and changes nothing any more.
-/
namespace Sim6809

/-! ### Handlers that raise no line -/

namespace Bus

variable {b d : Bus}

theorem Unhosted.of_setup (h : d.Unhosted) (same : SameSetup b d) : b.Unhosted :=
  h.of_handlers same.readHandlers same.writeHandlers

/-- A write raises no line, as a device can only acknowledge an interrupt. -/
theorem Unhosted.raised_before (h : b.Unhosted) {address : UInt16} {value : UInt8}
    {line : InterruptLine} (raised : .assert line ∈ (b.cpuWrite address value).requests) :
    .assert line ∈ b.requests := by
  unfold cpuWrite at raised
  split at raised
  · exact raised
  · rename_i handler found
    cases handler with
    | hosted react => exact absurd found h.find?_ne_hosted
    | console => exact raised
    | timerStatus =>
        dsimp only [handleWrite] at raised
        split at raised
        · exact raised
        · rcases List.mem_append.mp raised with waiting | acknowledged
          · exact waiting
          · cases List.mem_singleton.mp acknowledged
    | timerControl => exact raised

end Bus

namespace Core

variable {c d : Core} {fault : Fault}

/-- No waiting request raises a line, and no handler makes one that does. -/
structure Unasserted (c : Core) : Prop where
  bus : c.bus.Unhosted
  requests : ∀ line, .assert line ∉ c.bus.requests

theorem unasserted_stable : StepStable Unasserted where
  setRegs h _ := ⟨h.bus, h.requests⟩
  setEa h _ := ⟨h.bus, h.requests⟩
  setWait h _ := ⟨h.bus, h.requests⟩
  addRecord h _ _ _ := ⟨⟨h.bus.readHandlers, h.bus.devices⟩, h.requests⟩
  readByte h address := by
    rw [readByte_of_silent h.bus.readHandlers]
    exact h
  writeByte {c} h address value :=
    ⟨h.bus.of_setup ((Bus.SameSetup.refl c.bus).cpuWrite address value),
      fun line raised => h.requests line (h.bus.raised_before raised)⟩
  account h _ := ⟨h.bus, h.requests⟩
  applyRequests h := ⟨⟨h.bus.readHandlers, h.bus.devices⟩, fun _ => List.not_mem_nil⟩
  dropLine h _ := ⟨h.bus, h.requests⟩
  countInterrupt h := ⟨h.bus, h.requests⟩

theorem unasserted_roused (unhosted : c.bus.Unhosted) : c.roused.Unasserted :=
  unasserted_stable.roused ⟨⟨unhosted.readHandlers, unhosted.devices⟩, fun _ => List.not_mem_nil⟩

/-! ### No interrupt in front of the instruction -/

theorem nmi_of_admission {cpu : Cpu} (firq : cpu.admission? = some .firq) :
    cpu.latches.isSet .nmi = false := by
  unfold Cpu.admission? at firq
  split at firq
  · cases firq
  · rename_i lowered
    exact Bool.eq_false_iff.mpr lowered

/-- With both interrupts masked only NMI is admitted. -/
theorem admission?_of_masked {cpu : Cpu} {flags : Flags} (masked : cpu.regs.cc = flags.maskInterrupts)
    (nmi : cpu.latches.isSet .nmi = false) : cpu.admission? = none := by
  have nmi : cpu.latches.nmi = false := nmi
  unfold Cpu.admission?
  rw [nmi, masked]
  simp [Flags.maskInterrupts]

/-- A step that begins an instruction has nothing left to serve in front of it. -/
theorem unserved_of_begins? (unhosted : c.bus.Unhosted) (begins : c.begins? = some d) :
    d.serves? .step = none := by
  obtain rfl := eq_roused_of_begins? begins
  rw [serves?_step]
  rcases fast_of_begins? begins with served | served
  · have unadmitted := c.serves?_step.symm.trans served
    rw [roused_of_unserved served]
    unfold releaseSync
    split
    · exact unadmitted
    · exact unadmitted
  · have unasserted := (unasserted_roused unhosted).requests
    rw [roused_of_serves served] at unasserted ⊢
    -- The entry masks IRQ and FIRQ, and NMI would have been served before FIRQ.
    refine admission?_of_masked (c.applyRequests.enter_cc .firq) ?_
    refine Latches.isSet_applyAll_eq_false ?_ (unasserted .nmi)
    rw [(enter_lines c.applyRequests .firq).1, Latches.isSet_served,
      nmi_of_admission (c.serves?_step.symm.trans served)]
    rfl

/-! ### The failing instruction -/

/-- Whether an instruction fails is decided by the memory at the program counter. -/
theorem perform_error_alike (silent : c.bus.readHandlers = []) (silent' : d.bus.readHandlers = [])
    (memory : d.bus.memory = c.bus.memory) (pc : d.regs.pc = c.regs.pc)
    (failed : c.perform.1 = .error fault) : d.perform.1 = .error fault := by
  have transfers := (perform_failed failed).1
  have opcode : d.fetchOpcode.1 = c.fetchOpcode.1 := by
    rw [fetchOpcode_of_silent silent, fetchOpcode_of_silent silent', memory, pc]
  have fetched : d.fetched = c.fetched := by
    unfold Core.fetched
    rw [opcode]
  have transfers' : d.fetched.instruction = .tfr ∨ d.fetched.instruction = .exg := by
    rw [fetched]
    exact transfers
  have postbyte : d.postbyte = c.postbyte := by
    rw [postbyte_of_silent silent transfers, postbyte_of_silent silent' transfers', memory, pc]
  rw [perform_of_transfers transfers] at failed
  rw [perform_of_transfers transfers', source, destination, postbyte, fetched]
  exact failed

/-- A step fails at the instruction that it began, and leaves what was there before it but for the
address of its postbyte. -/
theorem step_left_of_failed (silent : d.bus.readHandlers = []) (begins : c.begins? = some d)
    (failed : d.perform.1 = .error fault) : c.step.1 = .error fault ∧ Untouched d c.step.2 ∧
      c.step.2.cpu.ea = d.regs.pc + 1 := by
  obtain ⟨transfers, left⟩ := perform_failed failed
  have located := located_beside silent
  have selected := selectPair_sameState (located.bus.readHandlers.trans silent)
  have ea : d.perform.2.cpu.ea = d.regs.pc + 1 := by
    rw [left, selected.cpu]
    exact (located_of_transfers transfers).2.1
  rw [step_of_failed begins failed]
  exact ⟨rfl, (perform_error silent failed).untouched, ea⟩

theorem Untouched.regs (h : Untouched c d) : d.regs = c.regs := by
  unfold Core.regs
  rw [h.cpu]

theorem Untouched.serves?_step (h : Untouched c d) : d.serves? .step = c.serves? .step := by
  rw [Core.serves?_step, Core.serves?_step]
  unfold applyRequests Cpu.admission?
  rw [h.cpu, h.bus.requests]

/-! ### The processor that is stuck -/

/-- A processor in front of an instruction that fails, as the failure leaves it: no interrupt comes
before the instruction, and the operand's address is that of its postbyte. -/
structure Stuck (c : Core) (fault : Fault) : Prop where
  unhosted : c.bus.Unhosted
  running : c.cpu.wait = .running
  unserved : c.serves? .step = none
  fails : c.perform.1 = .error fault
  address : c.cpu.ea = c.regs.pc + 1

theorem Stuck.of_sameState (h : c.Stuck fault) (same : SameState d c) : d.Stuck fault where
  unhosted := h.unhosted.of_setup same.bus.setup
  running := (congrArg Cpu.wait same.cpu).trans h.running
  unserved := by
    have applied := (sameState_congruence.applyRequests same).cpu
    rw [serves?_step, applied, ← serves?_step]
    exact h.unserved
  fails := (sameState_congruence.perform same).1.trans h.fails
  address := by
    unfold Core.regs
    rw [same.cpu]
    exact h.address

/-- Every failing step leaves the processor stuck. -/
theorem stuck_of_error (unhosted : c.bus.Unhosted) (failed : c.step.1 = .error fault) :
    c.step.2.Stuck fault := by
  obtain ⟨begins, running, performed⟩ := begins_of_error failed
  have roused := (unasserted_roused unhosted).bus
  obtain ⟨_, untouched, ea⟩ := step_left_of_failed roused.readHandlers begins performed
  have left := roused.of_setup untouched.bus.setup
  -- What was true as the instruction began is true again, since nothing that decides it has changed.
  refine ⟨left, untouched.wait.trans running, ?_, ?_, ?_⟩
  · rw [untouched.serves?_step]
    exact unserved_of_begins? unhosted begins
  · exact perform_error_alike roused.readHandlers left.readHandlers untouched.bus.memory
      (congrArg Registers.pc untouched.regs) performed
  · rw [ea, untouched.regs]

/-- A stuck processor fails again, and only takes the waiting requests. -/
theorem Stuck.step (h : c.Stuck fault) :
    c.step.1 = .error fault ∧ SameState c.step.2 c.applyRequests := by
  have begins := begins?_of_unserved h.running h.unserved
  have silent : c.applyRequests.bus.readHandlers = [] := h.unhosted.readHandlers
  have failed : c.applyRequests.perform.1 = .error fault :=
    perform_error_alike h.unhosted.readHandlers silent rfl rfl h.fails
  obtain ⟨error, untouched, ea⟩ := step_left_of_failed silent begins failed
  refine ⟨error, ?_, untouched.bus⟩
  have address : c.step.2.cpu.ea = c.applyRequests.cpu.ea := ea.trans h.address.symm
  rw [untouched.cpu, address]

/-- Without handlers a step leaves no request. -/
theorem unrequested_stable : StepStable fun c => c.bus.Plain ∧ c.bus.requests = [] where
  setRegs h _ := h
  setEa h _ := h
  setWait h _ := h
  addRecord h _ _ _ := h
  readByte h address := by
    rw [readByte_of_plain h.1]
    exact h
  writeByte {c} h address value := by
    change (c.bus.cpuWrite address value).Plain ∧ (c.bus.cpuWrite address value).requests = []
    rw [h.1.cpuWrite]
    exact h
  account h _ := h
  applyRequests h := ⟨h.1, rfl⟩
  dropLine h _ := h
  countInterrupt h := h

/-- A stuck processor without requests stays as it is. -/
theorem Stuck.trajectory (h : c.Stuck fault) (quiet : c.bus.requests = []) (n : Nat) :
    SameState (c.trajectory (fun _ => .step) n) c := by
  induction n with
  | zero => exact .refl c
  | succ n ih =>
      have again := h.step.2
      rw [applyRequests_of_quiet quiet] at again
      exact (sameState_congruence.step ih).2.trans again

end Core
end Sim6809
