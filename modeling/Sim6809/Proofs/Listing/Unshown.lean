import Sim6809.Proofs.Listing.Trace
import Sim6809.Proofs.Processor.Sends

/-!
Steps without a trace line. A step shows no line if it fails or if the processor goes on waiting, and then
it should leave the registers alone. It does not in two cases: the end of one wait may execute the
instruction that begins another, and a step that fails keeps the entry of FIRQ before it.
-/
namespace Sim6809

namespace Core

variable {c d : Core} {fault : Fault}

/-! ### What precedes the instruction -/

/-- FIRQ is served only while its mask is clear, and its entry sets the mask. -/
theorem firqMask_of_serves (served : c.serves? .step = some .firq) :
    c.regs.cc.firqMask = false ∧ c.roused.regs.cc.firqMask = true := by
  refine ⟨(c.servesByPriority.firq.mp served).2.2.2, ?_⟩
  rw [roused_of_serves served, enter_cc]
  rfl

theorem pushFrame_firq_s (c : Core) :
    (c.pushFrame .firq).regs.s = c.regs.s ∨ (c.pushFrame .firq).regs.s = c.regs.s - 3 := by
  have fast : c.pushFast.regs.s = c.regs.s - 3 := by
    unfold pushFast
    rw [pushRegisters_eq _ (by decide)]
    rfl
  unfold pushFrame
  cases c.cpu.wait with
  | cwaiWait => exact .inl rfl
  | running => exact .inr fast
  | syncWait => exact .inr fast

/-- Before the instruction of a step S has moved by the frame of FIRQ or not at all. -/
theorem roused_s (begins : c.begins? = some d) :
    c.roused.regs.s = c.regs.s ∨ c.roused.regs.s = c.regs.s - 3 := by
  rcases fast_of_begins? begins with served | served
  · exact .inl (congrArg Registers.s (roused_regs_of_unserved served))
  · rw [roused_of_serves served]
    exact c.applyRequests.pushFrame_firq_s

/-! ### Registers that have changed -/

/-- CWAI pushes the registers. -/
theorem step_s_of_cwai (begins : c.begins? = some d) (cwai : d.fetched.instruction = .cwai) :
    c.step.2.regs.s = d.regs.s - 12 := by
  have located := (d.located_of_immediate8 (fetched_mode cwai rfl)).2.2
  have ok : (d.located.2.execute d.fetched.instruction).1 = .ok 0 := by
    rw [cwai]
    rfl
  have pushed : (d.located.2.execute .cwai).2.regs.s = d.located.2.regs.s - 12 := by
    change d.located.2.waitForInterrupt.regs.s = _
    unfold waitForInterrupt pushEntire
    dsimp only
    rw [pushRegisters_eq _ (by decide)]
    rfl
  rw [(step_of_ok begins ok).2.1, cwai, pushed, located]

/-- A step that executes the instruction which begins a wait has changed a register. -/
theorem regs_of_begun_wait (executed : c.Executes .cwai ∨ c.Executes .sync) :
    c.step.2.regs ≠ c.regs := by
  intro same
  rcases executed with ⟨d, begins, cwai⟩ | ⟨d, begins, sync⟩
  · have lower := step_s_of_cwai begins cwai
    have before := roused_s begins
    rw [same, eq_roused_of_begins? begins] at lower
    -- S is lower by the frame of CWAI, and perhaps by that of FIRQ too.
    rcases before with kept | entered
    · rw [kept] at lower
      have nothing : (0 : UInt16) = 12 := (UInt16.sub_right_inj _).mp ((UInt16.sub_zero _).trans lower)
      exact absurd nothing (by decide)
    · rw [entered, Memory.sub_sub_eq] at lower
      have nothing : (0 : UInt16) = 3 + 12 :=
        (UInt16.sub_right_inj _).mp ((UInt16.sub_zero _).trans lower)
      exact absurd nothing (by decide)
  · have regs := (asleep_of_sync begins sync).1
    rw [same, eq_roused_of_begins? begins] at regs
    rcases fast_of_begins? begins with served | served
    · rw [roused_regs_of_unserved served] at regs
      have moved : c.regs.pc = c.regs.pc + 1 := congrArg Registers.pc regs
      exact absurd (UInt16.left_eq_add.mp moved) (by decide)
    · obtain ⟨clear, set⟩ := firqMask_of_serves served
      have kept : c.regs.cc.firqMask = c.roused.regs.cc.firqMask := congrArg (·.cc.firqMask) regs
      rw [clear, set] at kept
      cases kept

/-- A step that fails has changed a register exactly if it has entered FIRQ. -/
theorem regs_of_error_iff (failed : c.step.1 = .error fault) :
    c.step.2.regs ≠ c.regs ↔ c.serves? .step = some .firq := by
  rw [regs_of_error failed]
  constructor
  · intro changed
    rcases fast_of_begins? (begins_of_error failed).1 with served | served
    · exact absurd (roused_regs_of_unserved served) changed
    · exact served
  · intro served same
    obtain ⟨clear, set⟩ := firqMask_of_serves served
    rw [same, clear] at set
    cases set

end Core

namespace Monitor

/-! ### Steps that show nothing -/

/-- What a step shows: the text of the operation that it tells and the registers that it leaves, unless it
fails or the processor goes on waiting. -/
def shownByStep (m : Monitor) : List (String × Registers) :=
  match m.step with
  | (.error _, _) => []
  | (.ok _, after) =>
    if m.cpu.isWaiting && after.cpu.isWaiting then [] else [(m.upcomingText, after.core.regs)]

/-- A step changes registers and shows nothing: out of a wait it executes an instruction that begins one,
or it fails in the handler of FIRQ that it has entered. -/
inductive Hides (m : Monitor) : Prop
  | again : m.cpu.isWaiting = true → m.core.Executes .cwai ∨ m.core.Executes .sync → Hides m
  | failing {fault : Fault} : m.core.step.1 = .error fault →
      m.core.serves? .step = some .firq → Hides m

variable {m : Monitor} {op? : Option Operation}

theorem step_cpu (m : Monitor) : m.step.2.core.cpu = m.core.step.2.cpu := m.step_core.2.1.cpu

theorem shownByStep_of_ok (ok : m.step.1 = .ok op?) : m.shownByStep =
    if m.cpu.isWaiting && m.core.step.2.cpu.isWaiting then []
    else [(m.upcomingText, m.core.step.2.regs)] := by
  have answered : m.step = (.ok op?, m.step.2) := Prod.ext ok rfl
  unfold shownByStep
  rw [answered]
  unfold Monitor.cpu Core.regs
  rw [← m.step_cpu]

theorem shownByStep_of_error {fault : Fault} (failed : m.step.1 = .error fault) :
    m.shownByStep = [] := by
  have answered : m.step = (.error fault, m.step.2) := Prod.ext failed rfl
  unfold shownByStep
  rw [answered]

/-- A step that ends in a wait has changed a register exactly if it has executed the instruction that
begins the wait. -/
theorem regs_of_waits (after : m.core.step.2.cpu.isWaiting = true) :
    m.core.step.2.regs ≠ m.core.regs ↔ m.core.Executes .cwai ∨ m.core.Executes .sync := by
  refine ⟨?_, Core.regs_of_begun_wait⟩
  intro changed
  rcases m.core.step_kinds with ⟨begins, running⟩ | ⟨_, _, awake⟩ | ⟨_, undisturbed, asleep⟩
  · have wait := Core.step_wait_of_begins? begins running
    cases begun : m.core.roused.fetched.instruction.begunWait? with
    | none =>
        rw [begun] at wait
        rw [Core.isWaiting_eq_false_iff.mpr wait] at after
        cases after
    | some wait =>
        rcases Instruction.begunWait?_some begun with ⟨cwai, _⟩ | ⟨sync, _⟩
        · exact .inl ⟨_, begins, cwai⟩
        · exact .inr ⟨_, begins, sync⟩
  · rw [Core.isWaiting_eq_false_iff.mpr awake] at after
    cases after
  · rw [Core.step_of_undisturbed asleep undisturbed] at changed
    exact absurd rfl changed

/-- An instruction that begins a wait is executed by a step that succeeds and ends in the wait. -/
theorem step_of_begun_wait {c : Core} (executed : c.Executes .cwai ∨ c.Executes .sync) :
    (∃ cycles, c.step.1 = .ok cycles) ∧ c.step.2.cpu.isWaiting = true := by
  have begun {i : Instruction} {wait : WaitState} (begins : i.begunWait? = some wait)
      (succeeds : ∀ d : Core, (d.execute i).1 = .ok 0) (executed : c.Executes i) :
      (∃ cycles, c.step.1 = .ok cycles) ∧ c.step.2.cpu.wait = wait := by
    have asleep := (Core.step_wait_iff begins).mpr (.inl executed)
    obtain ⟨d, reached, rfl⟩ := executed
    exact ⟨⟨_, (Core.step_of_ok reached (succeeds d.located.2)).1⟩, asleep⟩
  unfold Cpu.isWaiting
  rcases executed with cwai | sync
  · obtain ⟨ok, asleep⟩ := begun (i := .cwai) rfl (fun _ => rfl) cwai
    rw [asleep]
    exact ⟨ok, rfl⟩
  · obtain ⟨ok, asleep⟩ := begun (i := .sync) rfl (fun _ => rfl) sync
    rw [asleep]
    exact ⟨ok, rfl⟩

/-- The steps that hide something are no others than these. -/
theorem hides_iff :
    m.Hides ↔ m.shownByStep = [] ∧ m.step.2.core.regs ≠ m.core.regs := by
  have regs : m.step.2.core.regs = m.core.step.2.regs := congrArg Cpu.regs m.step_cpu
  have answer := m.step_core.1
  rw [regs]
  cases stepped : m.core.step.1 with
  | error fault =>
      rw [stepped] at answer
      rw [shownByStep_of_error answer, Core.regs_of_error_iff stepped]
      constructor
      · rintro (⟨_, executed⟩ | ⟨_, served⟩)
        · obtain ⟨⟨cycles, ok⟩, _⟩ := step_of_begun_wait executed
          rw [stepped] at ok
          cases ok
        · exact ⟨rfl, served⟩
      · rintro ⟨_, served⟩
        exact .failing stepped served
  | ok cycles =>
      rw [stepped] at answer
      rw [shownByStep_of_ok answer]
      cases waits : m.cpu.isWaiting && m.core.step.2.cpu.isWaiting with
      | true =>
          obtain ⟨before, after⟩ := (Bool.and_eq_true _ _).mp waits
          rw [if_pos rfl, regs_of_waits after]
          constructor
          · rintro (⟨_, executed⟩ | ⟨failed, _⟩)
            · exact ⟨rfl, executed⟩
            · rw [stepped] at failed
              cases failed
          · rintro ⟨_, executed⟩
            exact .again before executed
      | false =>
          rw [if_neg Bool.false_ne_true]
          constructor
          · rintro (⟨before, executed⟩ | ⟨failed, _⟩)
            · rw [before, (step_of_begun_wait executed).2] at waits
              cases waits
            · rw [stepped] at failed
              cases failed
          · rintro ⟨shown, _⟩
            cases shown

end Monitor
end Sim6809
