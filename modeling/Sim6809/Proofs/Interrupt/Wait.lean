import Sim6809.Proofs.Interrupt.Admission
import Sim6809.Proofs.Interrupt.Return
import Sim6809.Proofs.Processor.ProgramCounter
import Sim6809.Proofs.Processor.WaitState

/-!
The two waits. CWAI has stacked the registers before it waits: nothing but an interrupt ends its wait,
and the entry only fetches the vector. SYNC has stacked nothing: every asserted line ends its wait, and
an interrupt then pushes its frame as it does out of a running program.
-/
namespace Sim6809

theorem Instruction.begunWait?_some {i : Instruction} {wait : WaitState}
    (h : i.begunWait? = some wait) :
    (i = .cwai ∧ wait = .cwaiWait) ∨ (i = .sync ∧ wait = .syncWait) := by
  unfold begunWait? at h
  split at h
  · exact .inl ⟨rfl, (Option.some.inj h).symm⟩
  · exact .inr ⟨rfl, (Option.some.inj h).symm⟩
  · cases h

theorem Instruction.eq_of_begunWait? {i j : Instruction} {wait : WaitState}
    (first : i.begunWait? = some wait) (second : j.begunWait? = some wait) : i = j := by
  rcases begunWait?_some first with ⟨rfl, rfl⟩ | ⟨rfl, rfl⟩
  · rcases begunWait?_some second with ⟨rfl, _⟩ | ⟨_, other⟩
    · rfl
    · cases other
  · rcases begunWait?_some second with ⟨_, other⟩ | ⟨rfl, _⟩
    · cases other
    · rfl

namespace Core

/-- The processor as a step has it once interrupts are admitted and the wait of SYNC is released. -/
def roused (c : Core) : Core := c.applyRequests.admitted.2.releaseSync

/-- The step executes an instruction. -/
def Executes (c : Core) (i : Instruction) : Prop :=
  ∃ d, c.begins? = some d ∧ d.fetched.instruction = i

variable {c d : Core} {line : InterruptLine}

/-! ### How a wait ends -/

theorem roused_of_serves (served : c.serves? .step = some line) :
    c.roused = c.applyRequests.enter line := by
  have admission := c.serves?_step.symm.trans served
  unfold roused admitted
  rw [admission]
  refine releaseSync_of_ne ?_
  rw [enter_wait]
  exact WaitState.noConfusion

theorem roused_of_unserved (unserved : c.serves? .step = none) :
    c.roused = c.applyRequests.releaseSync := by
  have admission := c.serves?_step.symm.trans unserved
  unfold roused admitted
  rw [admission]

theorem roused_regs_of_unserved (unserved : c.serves? .step = none) : c.roused.regs = c.regs := by
  rw [roused_of_unserved unserved, releaseSync_regs]
  rfl

theorem roused_of_undisturbed (h : c.Undisturbed) : c.roused = c.applyRequests := by
  rw [roused_of_unserved h.unserved, h.releaseSync]

/-- A wait that is disturbed ends before the step's instruction. -/
theorem roused_of_disturbed (h : ¬ c.Undisturbed) : c.roused.cpu.wait = .running := by
  cases served : c.serves? .step with
  | some line =>
      rw [roused_of_serves served]
      exact enter_wait _ line
  | none =>
      have latched : c.cpu.wait = .syncWait ∧ c.applyRequests.cpu.latches.any = true := by
        apply Classical.byContradiction
        intro silent
        apply h
        refine ⟨served, fun sync => ?_⟩
        exact Bool.eq_false_iff.mpr fun any => silent ⟨sync, any⟩
      rw [roused_of_unserved served]
      exact isWaiting_eq_false_iff.mp ((releaseSync_awake_iff _).mpr (.inr latched))

theorem roused_running_iff (waits : c.cpu.wait ≠ .running) :
    c.roused.cpu.wait = .running ↔ ¬ c.Undisturbed := by
  refine ⟨?_, roused_of_disturbed⟩
  intro running undisturbed
  rw [roused_of_undisturbed undisturbed] at running
  exact waits running

theorem undisturbed_iff (waits : c.cpu.wait ≠ .running) :
    c.Undisturbed ↔ c.roused.cpu.wait ≠ .running := by
  rw [Ne, roused_running_iff waits, Classical.not_not]

/-- What the phases of a step keep is kept up to the instruction. -/
theorem StepStable.roused {P : Core → Prop} (h : StepStable P) (p : P c.applyRequests) :
    P c.roused := by
  cases served : c.serves? .step with
  | none =>
      rw [roused_of_unserved served]
      exact h.releaseSync p
  | some line =>
      rw [roused_of_serves served]
      exact h.enter p line

/-! ### How a wait begins -/

theorem begins?_of_fast (fast : c.serves? .step = none ∨ c.serves? .step = some .firq) :
    c.begins? = if c.roused.cpu.isWaiting then none else some c.roused := by
  rw [serves?_step] at fast
  unfold begins? roused admitted
  rcases fast with unserved | firq
  · rw [unserved]
  · rw [firq]

/-- A running processor that serves no interrupt begins the instruction at its program counter. -/
theorem begins?_of_unserved (running : c.cpu.wait = .running) (unserved : c.serves? .step = none) :
    c.begins? = some c.applyRequests := by
  rw [serves?_step] at unserved
  have applied : c.applyRequests.cpu.wait = .running := running
  have released : c.applyRequests.releaseSync = c.applyRequests :=
    releaseSync_of_ne (applied ▸ WaitState.noConfusion)
  have awake : c.applyRequests.cpu.isWaiting = false := isWaiting_eq_false_iff.mpr applied
  unfold begins? admitted
  rw [unserved]
  dsimp only
  rw [released, awake]
  rfl

theorem step_applyRequests (c : Core) : c.applyRequests.step = c.step := by
  have settled : c.applyRequests.applyRequests = c.applyRequests := applyRequests_of_quiet rfl
  rw [step_eq_finish, step_eq_finish, settled]

/-- The entry of NMI and IRQ ends the step. -/
theorem step_of_slow (served : c.serves? .step = some line) (slow : line ≠ .firq) :
    c.begins? = none ∧ c.step.2.cpu.wait = .running := by
  have entered := c.servesByPriority.entry line served
  have admission := c.serves?_step.symm.trans served
  unfold begins? admitted
  rw [entered, admission]
  cases line with
  | firq => exact absurd rfl slow
  | nmi => exact ⟨rfl, enter_wait c.applyRequests .nmi⟩
  | irq => exact ⟨rfl, enter_wait c.applyRequests .irq⟩

/-- Unless the entry of NMI or IRQ ends the step, it begins an instruction or waits. -/
theorem begins_or_waits (fast : c.serves? .step = none ∨ c.serves? .step = some .firq) :
    (c.begins? = some c.roused ∧ c.roused.cpu.wait = .running) ∨
      (c.begins? = none ∧ c.Undisturbed ∧ c.cpu.wait ≠ .running) := by
  have begins := begins?_of_fast fast
  by_cases running : c.roused.cpu.wait = .running
  · rw [isWaiting_eq_false_iff.mpr running] at begins
    exact .inl ⟨begins, running⟩
  · have undisturbed : c.Undisturbed :=
      Classical.byContradiction fun disturbed => running (roused_of_disturbed disturbed)
    rw [if_pos (Bool.of_not_eq_false (mt isWaiting_eq_false_iff.mp running))] at begins
    rw [roused_of_undisturbed undisturbed] at running
    exact .inr ⟨begins, undisturbed, running⟩

/-- A step begins an instruction, or it ends with the entry of an interrupt, or it waits. -/
theorem step_kinds (c : Core) :
    (c.begins? = some c.roused ∧ c.roused.cpu.wait = .running) ∨
      (c.begins? = none ∧ ¬ c.Undisturbed ∧ c.step.2.cpu.wait = .running) ∨
      (c.begins? = none ∧ c.Undisturbed ∧ c.cpu.wait ≠ .running) := by
  cases served : c.serves? .step with
  | none => exact (begins_or_waits (.inl served)).imp_right .inr
  | some line =>
      by_cases firq : line = .firq
      · exact (begins_or_waits (.inr (firq ▸ served))).imp_right .inr
      · obtain ⟨unbegun, awake⟩ := step_of_slow served firq
        refine .inr (.inl ⟨unbegun, ?_, awake⟩)
        intro undisturbed
        rw [undisturbed.unserved] at served
        cases served

/-- A step that comes to an instruction has served no interrupt or FIRQ. -/
theorem fast_of_begins? (begins : c.begins? = some d) :
    c.serves? .step = none ∨ c.serves? .step = some .firq := by
  cases served : c.serves? .step with
  | none => exact .inl rfl
  | some line =>
      by_cases firq : line = .firq
      · exact .inr (congrArg some firq)
      · rw [(step_of_slow served firq).1] at begins
        cases begins

/-- What begins an instruction is the processor behind admission and the end of a SYNC wait. -/
theorem eq_roused_of_begins? (begins : c.begins? = some d) : d = c.roused := by
  rcases c.step_kinds with ⟨begun, _⟩ | ⟨unbegun, _⟩ | ⟨unbegun, _⟩
  · exact Option.some.inj (begins.symm.trans begun)
  · rw [unbegun] at begins
    cases begins
  · rw [unbegun] at begins
    cases begins

/-- A step without an instruction only counts its cycles. -/
theorem step_of_unbegun (unbegun : c.begins? = none) :
    ∃ cycles, c.step = (.ok cycles, c.roused.account cycles) := by
  have waits (fast : c.serves? .step = none ∨ c.serves? .step = some .firq) :
      c.roused.cpu.isWaiting = true := by
    rw [begins?_of_fast fast] at unbegun
    split at unbegun
    · assumption
    · cases unbegun
  cases served : c.serves? .step with
  | none =>
      have waiting := waits (.inl served)
      rw [roused_of_unserved served] at waiting ⊢
      rw [c.servesByPriority.idle served, proceed_eq, if_pos waiting]
      exact ⟨_, rfl⟩
  | some line =>
      have awake : c.roused.cpu.isWaiting = false := by
        rw [isWaiting_eq_false_iff, roused_of_serves served, enter_wait]
      have slow : line ≠ .firq := by
        rintro rfl
        rw [waits (.inr served)] at awake
        cases awake
      rw [c.servesByPriority.entry line served, roused_of_serves served, finish, if_neg slow]
      exact ⟨_, rfl⟩

/-- A step that fails has begun an instruction that fails. -/
theorem begins_of_error {fault : Fault} (failed : c.step.1 = .error fault) :
    c.begins? = some c.roused ∧ c.roused.cpu.wait = .running ∧ c.roused.perform.1 = .error fault := by
  have begun (unbegun : c.begins? = none) : False := by
    obtain ⟨cycles, stepped⟩ := step_of_unbegun unbegun
    rw [stepped] at failed
    cases failed
  rcases c.step_kinds with ⟨begins, running⟩ | ⟨unbegun, _⟩ | ⟨unbegun, _⟩
  · refine ⟨begins, running, ?_⟩
    cases performed : c.roused.perform.1 with
    | ok cycles =>
        rw [step_of_performed begins performed] at failed
        cases failed
    | error other =>
        rw [step_of_failed begins performed] at failed
        exact failed
  · exact absurd unbegun begun
  · exact absurd unbegun begun

/-- It ends with the registers before the instruction. -/
theorem regs_of_error {fault : Fault} (failed : c.step.1 = .error fault) :
    c.step.2.regs = c.roused.regs := by
  obtain ⟨begins, _, performed⟩ := begins_of_error failed
  rw [step_of_failed begins performed]
  rfl

/-- A step that begins an instruction ends in the wait that the instruction begins. -/
theorem step_wait_of_begins? (begins : c.begins? = some d) (running : d.cpu.wait = .running) :
    c.step.2.cpu.wait = d.fetched.instruction.begunWait?.getD .running := by
  obtain ⟨spent, stepped⟩ := step_of_begins? begins
  rw [stepped, conclude_wait, perform_wait, running]

/-- A step ends in a wait exactly if it executes the instruction that begins it, or if it began in the
wait and nothing disturbed that. -/
theorem step_wait_iff {i : Instruction} {wait : WaitState} (begun : i.begunWait? = some wait) :
    c.step.2.cpu.wait = wait ↔ c.Executes i ∨ (c.cpu.wait = wait ∧ c.Undisturbed) := by
  have stopped : wait ≠ .running := by
    rcases Instruction.begunWait?_some begun with ⟨_, rfl⟩ | ⟨_, rfl⟩
    · exact WaitState.noConfusion
    · exact WaitState.noConfusion
  -- A step begins an instruction, enters a handler, or stays in its wait.
  rcases c.step_kinds with ⟨begins, running⟩ | ⟨unbegun, disturbed, awake⟩ |
    ⟨unbegun, undisturbed, waits⟩
  · rw [step_wait_of_begins? begins running]
    constructor
    · intro same
      cases reached : c.roused.fetched.instruction.begunWait? with
      | none =>
          rw [reached] at same
          exact absurd same.symm stopped
      | some other =>
          rw [reached] at same
          have same : other = wait := same
          exact .inl ⟨c.roused, begins, Instruction.eq_of_begunWait? (same ▸ reached) begun⟩
    · rintro (⟨d, begun', executed⟩ | ⟨rfl, undisturbed⟩)
      · have reached : c.roused = d := Option.some.inj (begins.symm.trans begun')
        rw [reached, executed, begun]
        rfl
      · exact absurd undisturbed ((roused_running_iff stopped).mp running)
  · rw [awake]
    constructor
    · intro same
      exact absurd same.symm stopped
    · rintro (⟨d, begins, _⟩ | ⟨_, undisturbed⟩)
      · rw [unbegun] at begins
        cases begins
      · exact absurd undisturbed disturbed
  · rw [step_of_undisturbed waits undisturbed]
    constructor
    · intro same
      exact .inr ⟨same, undisturbed⟩
    · rintro (⟨d, begins, _⟩ | ⟨same, _⟩)
      · rw [unbegun] at begins
        cases begins
      · exact same

/-- SYNC waits with the program counter behind it, and leaves the other registers alone. -/
theorem asleep_of_sync (begins : c.begins? = some d) (sync : d.fetched.instruction = .sync) :
    c.step.2.regs = { d.regs with pc := d.regs.pc + 1 } ∧ c.step.2.cpu.wait = .syncWait := by
  obtain ⟨spent, stepped⟩ := step_of_begins? begins
  have performed : d.perform =
      (.ok (d.fetched.cycles + d.located.1 + 0), d.located.2.setWait .syncWait) := by
    rw [perform_eq, sync]
    rfl
  have short : d.fetchOpcode.1.1 = .unprefixed := Opcode.unprefixed_of_waits _ _ (.inr sync)
  have regs := d.located_regs_of_inherent (fetched_mode sync rfl)
  rw [short] at regs
  rw [stepped, performed]
  exact ⟨regs, rfl⟩

/-! ### Entry out of a wait -/

/-- Out of a CWAI wait the bus sees nothing of an entry but the fetch of its vector. -/
theorem enter_of_cwai (asleep : c.cpu.wait = .cwaiWait) (line : InterruptLine) :
    (c.enter line).regs = { c.regs with
        cc := c.regs.cc.maskInterrupts
        pc := (c.readWord line.event.vector).1 } ∧
      (c.enter line).bus.memory = (c.readWord line.event.vector).2.bus.memory := by
  have frame : c.pushFrame line = c := by
    unfold pushFrame
    rw [asleep]
  rw [enter_eq, frame]
  cases line with
  | nmi => exact ⟨rfl, rfl⟩
  | irq => exact ⟨rfl, rfl⟩
  | firq => exact ⟨rfl, rfl⟩

/-- A push does not look at the wait state. -/
theorem pushRegisters_setWait (c : Core) (wait : WaitState) (stack : StackPointer)
    (rs : List Register) :
    (c.setWait wait).pushRegisters stack rs = (c.pushRegisters stack rs).setWait wait := by
  induction rs with
  | nil => rfl
  | cons register rs ih =>
      change ((c.setWait wait).pushRegisters stack rs).pushRegister stack register =
        ((c.pushRegisters stack rs).pushRegister stack register).setWait wait
      rw [ih]
      unfold pushRegister
      split
      · rfl
      · rfl

/-- Out of a SYNC wait an interrupt is entered as out of a running program. -/
theorem enter_of_sync (asleep : c.cpu.wait = .syncWait) (line : InterruptLine) :
    c.enter line = (c.setWait .running).enter line := by
  have entire : (c.setWait .running).pushEntire = c.pushEntire.setWait .running :=
    pushRegisters_setWait (c.setFlags { c.regs.cc with entire := true }) .running .s entireFrame
  have fast : (c.setWait .running).pushFast = c.pushFast.setWait .running :=
    pushRegisters_setWait (c.setFlags { c.regs.cc with entire := false }) .running .s fastFrame
  have frame : (c.setWait .running).pushFrame line = (c.pushFrame line).setWait .running := by
    unfold pushFrame
    rw [asleep, entire, fast]
    cases line with
    | nmi => rfl
    | irq => rfl
    | firq => rfl
  rw [enter_eq, enter_eq, frame]
  generalize c.pushFrame line = pushed
  rfl

/-! ### The two waits -/

/-- A step that begins in a CWAI wait. -/
structure CwaiStep (c : Core) : Prop where
  /-- Only an interrupt that is admitted ends the wait; one that is masked does not. -/
  ends_iff : c.roused.cpu.wait = .running ↔ ∃ line, c.serves? .step = some line
  idle : c.serves? .step = none → c.step = (.ok 1, c.applyRequests.account 1)
  entry (line : InterruptLine) : c.serves? .step = some line →
    c.step = finish (some (line, 7), c.applyRequests.enter line)
  /-- The entry stacks nothing: S stays, and the memory is that behind the fetch of the vector. -/
  regs (line : InterruptLine) : (c.applyRequests.enter line).regs = { c.regs with
    cc := c.regs.cc.maskInterrupts
    pc := (c.applyRequests.readWord line.event.vector).1 }
  memory (line : InterruptLine) : (c.applyRequests.enter line).bus.memory =
    (c.applyRequests.readWord line.event.vector).2.bus.memory
  unwritten (line : InterruptLine) : c.bus.Plain →
    (c.applyRequests.enter line).bus.memory = c.bus.memory

theorem cwaiStep (asleep : c.cpu.wait = .cwaiWait) : c.CwaiStep := by
  have waits : c.cpu.wait ≠ .running := asleep ▸ WaitState.noConfusion
  have awake : ¬ c.cpu.wait = .syncWait := asleep ▸ WaitState.noConfusion
  have still : c.applyRequests.cpu.wait = .cwaiWait := asleep
  refine ⟨?_, ?_, ?_, ?_, ?_, ?_⟩
  · rw [roused_running_iff waits]
    constructor
    · intro disturbed
      cases served : c.serves? .step with
      | none => exact absurd ⟨served, fun sync => absurd sync awake⟩ disturbed
      | some line => exact ⟨line, rfl⟩
    · rintro ⟨line, served⟩ undisturbed
      rw [undisturbed.unserved] at served
      cases served
  · intro unserved
    exact step_of_undisturbed waits ⟨unserved, fun sync => absurd sync awake⟩
  · intro line served
    rw [c.servesByPriority.entry line served, asleep]
    rfl
  · intro line
    exact (enter_of_cwai still line).1
  · intro line
    exact (enter_of_cwai still line).2
  · intro line plain
    rw [(enter_of_cwai still line).2, readWord_of_plain (c := c.applyRequests) plain]
    rfl

/-- A step that begins in a SYNC wait. -/
structure SyncStep (c : Core) : Prop where
  /-- Every asserted line ends the wait. -/
  ends_iff : c.roused.cpu.wait = .running ↔ c.applyRequests.cpu.latches.any = true
  idle : c.applyRequests.cpu.latches.any = false → c.step = (.ok 1, c.applyRequests.account 1)
  /-- An interrupt that is admitted is entered as if the processor were running. -/
  entry (line : InterruptLine) : c.serves? .step = some line → c.step =
    finish (some (line, entryCycles .running line), (c.applyRequests.setWait .running).enter line)
  full (line : InterruptLine) : c.bus.Plain → line ≠ .firq →
    (c.applyRequests.enter line).Holds (c.marked true) entireFrame
  fast : c.bus.Plain → (c.applyRequests.enter .firq).Holds (c.marked false) fastFrame
  /-- Without one the step itself executes the instruction at the program counter. -/
  released : c.serves? .step = none → c.applyRequests.cpu.latches.any = true →
    c.roused = (c.applyRequests.addRecord .debug
        "SYNC released by masked interrupt request").setWait .running ∧
      c.begins? = some c.roused ∧ c.step = c.roused.conclude 0 c.roused.perform ∧
      c.step.2.cpu.latches = c.applyRequests.cpu.latches

theorem syncStep (asleep : c.cpu.wait = .syncWait) : c.SyncStep := by
  have waits : c.cpu.wait ≠ .running := asleep ▸ WaitState.noConfusion
  have awake : c.applyRequests.cpu.wait ≠ .cwaiWait := asleep ▸ WaitState.noConfusion
  have still : c.applyRequests.cpu.wait = .syncWait := asleep
  -- Every latched line disturbs SYNC, also a masked one.
  have silent_iff : c.Undisturbed ↔ c.applyRequests.cpu.latches.any = false := by
    refine ⟨fun undisturbed => undisturbed.quiet asleep, ?_⟩
    intro silent
    refine ⟨?_, fun _ => silent⟩
    cases served : c.serves? .step with
    | none => rfl
    | some line =>
        have raised := (c.applyRequests.cpu.latches.any_iff).mpr ⟨line, isSet_of_serves served⟩
        rw [silent] at raised
        cases raised
  refine ⟨?_, ?_, ?_, ?_, ?_, ?_⟩
  · rw [roused_running_iff waits, silent_iff, Bool.not_eq_false]
  · intro silent
    exact step_of_undisturbed waits (silent_iff.mpr silent)
  · intro line served
    rw [c.servesByPriority.entry line served, enter_of_sync still, asleep]
    cases line with
    | nmi => rfl
    | irq => rfl
    | firq => rfl
  · intro line plain slow
    exact enter_holds_entire (c := c.applyRequests) plain awake slow
  · intro plain
    exact enter_holds_fast (c := c.applyRequests) plain awake
  · intro unserved latched
    have roused := roused_of_unserved unserved
    have running : c.roused.cpu.wait = .running := by
      rw [roused_running_iff waits, silent_iff, latched]
      exact Bool.noConfusion
    have awake : c.roused.cpu.isWaiting = false := isWaiting_eq_false_iff.mpr running
    have begins := begins?_of_fast (.inl unserved)
    rw [awake] at begins
    refine ⟨?_, begins, ?_, ?_⟩
    · rw [roused, releaseSync, still, latched]
      rfl
    · rw [c.servesByPriority.idle unserved, proceed_eq, ← roused, awake]
      rfl
    · rw [(step_lines c).1, unserved]
      rfl

/-- The waits of SYNC and CWAI. While nothing disturbs a wait its steps take one cycle each and
change nothing but the counters, apart from the lines that others change; once undisturbed, a wait
that is left alone lasts. How a wait ends is told by `CwaiStep` and `SyncStep`. SYNC waits with the
program counter behind it. A step ends in a wait exactly if it executes the instruction that begins
the wait, or began in the wait and did not end it. -/
theorem waits_until_disturbed :
    (∀ (c : Core) (run : Nat → Stimulus) (n : Nat), c.cpu.wait ≠ .running →
      (∀ k < n, run k = .step → (c.trajectory run k).Undisturbed) →
      IdledFor c (c.trajectory run n) (Stimulus.stepCount run n) (c.settled run n) ∧
        ∀ k < n, run k = .step → (c.trajectory run k).step.1 = .ok 1) ∧
    (∀ c : Core, c.cpu.wait ≠ .running → c.Undisturbed → ∀ n,
      IdledFor c (c.trajectory (fun _ => .step) (n + 1)) (n + 1) c.bus.requests) ∧
    (∀ c : Core, c.cpu.wait = .cwaiWait → c.CwaiStep) ∧
    (∀ c : Core, c.cpu.wait = .syncWait → c.SyncStep) ∧
    (∀ (c d : Core) (run : Nat → Stimulus) (n : Nat),
      c.begins? = some d → d.fetched.instruction = .sync →
      (∀ k < n, run k = .step → (c.step.2.trajectory run k).Undisturbed) →
      (c.step.2.trajectory run n).regs = { d.regs with pc := d.regs.pc + 1 } ∧
        (c.step.2.trajectory run n).cpu.wait = .syncWait) ∧
    (∀ c : Core, c.step.2.cpu.wait = .syncWait ↔
      c.Executes .sync ∨ (c.cpu.wait = .syncWait ∧ c.roused.cpu.wait ≠ .running)) ∧
    (∀ c : Core, c.step.2.cpu.wait = .cwaiWait ↔
      c.Executes .cwai ∨ (c.cpu.wait = .cwaiWait ∧ c.roused.cpu.wait ≠ .running)) := by
  refine ⟨?_, ?_, fun c => cwaiStep, fun c => syncStep, ?_, ?_, ?_⟩
  · intro c run n waits undisturbed
    refine ⟨idledFor_trajectory waits undisturbed, ?_⟩
    intro k below stepping
    have idled := idledFor_trajectory waits fun j earlier =>
      undisturbed j (Nat.lt_trans earlier below)
    rw [step_of_undisturbed (idled.wait ▸ waits) (undisturbed k below stepping)]
  · intro c waits undisturbed n
    exact (idledFor_alone waits undisturbed n).1
  · intro c d run n begins sync undisturbed
    obtain ⟨regs, asleep⟩ := asleep_of_sync begins sync
    have idled := idledFor_trajectory (asleep ▸ WaitState.noConfusion) undisturbed
    exact ⟨idled.regs.trans regs, idled.wait.trans asleep⟩
  · intro c
    rw [step_wait_iff (i := .sync) rfl]
    exact or_congr_right (and_congr_right fun asleep =>
      undisturbed_iff (asleep ▸ WaitState.noConfusion))
  · intro c
    rw [step_wait_iff (i := .cwai) rfl]
    exact or_congr_right (and_congr_right fun asleep =>
      undisturbed_iff (asleep ▸ WaitState.noConfusion))

/-- A processor before SYNC and NOP that masks both interrupts. -/
def drowsy : Core where
  cpu := { Cpu.zero with
    regs := { Registers.zero with pc := 0x2000, cc := Flags.clear.maskInterrupts } }
  bus := Bus.blank.pokeBytes 0x2000 [0x13, 0x12]

theorem drowsy_released :
    let asleep := drowsy.step.2
    let raised := asleep.setLine .irq true
    drowsy.Executes .sync ∧
      IdledFor asleep (asleep.trajectory (fun _ => .step) 9) 9 [] ∧
      (asleep.trajectory (fun _ => .step) 9).regs = { drowsy.regs with pc := 0x2001 } ∧
      raised.step = raised.roused.conclude 0 raised.roused.perform ∧
      raised.step.2.regs.pc = 0x2002 ∧ raised.step.2.cpu.latches.irq = true ∧
      ((wrapping .clear).step.2.setLine .irq true).roused.cpu.wait = .running := by
  intro asleep raised
  obtain ⟨_, alone, out_of_cwai, out_of_sync, begun, ends_in_sync, _⟩ := waits_until_disturbed
  have waits : asleep.cpu.wait = .syncWait := by rfl
  have executed : drowsy.Executes .sync := by
    rcases (ends_in_sync drowsy).mp waits with executed | ⟨already, _⟩
    · exact executed
    · cases already
  have idled := alone asleep (waits ▸ WaitState.noConfusion) ⟨rfl, fun _ => rfl⟩ 8
  have behind : asleep.regs = { drowsy.regs with pc := 0x2001 } :=
    (begun drowsy drowsy.roused (fun _ => .step) 0 rfl rfl nofun).1
  obtain ⟨_, _, executes, latched⟩ := (out_of_sync raised waits).released rfl rfl
  have admitted := (out_of_cwai ((wrapping .clear).step.2.setLine .irq true) rfl).ends_iff
  refine ⟨executed, idled, idled.regs.trans behind, executes, by decide +kernel, ?_, ?_⟩
  · rw [latched]
    rfl
  · exact admitted.mpr ⟨.irq, rfl⟩

end Core
end Sim6809
