import Sim6809.Proofs.Interrupt.Stimulus
import Sim6809.Proofs.Run.Outcome

/-!
Breakpoints. A run looks at the program counter between steps, and only while the processor does not
wait. A step that enters a FIRQ handler or ends a SYNC wait goes on with an instruction, so the run
has executed that instruction before it looks at an address again.
-/
namespace Sim6809

namespace Core

/-- The step fetches and executes the instruction at an address. -/
def BeginsAt (c : Core) (address : UInt16) : Prop :=
  ∃ d, c.begins? = some d ∧ d.regs.pc = address

variable {c : Core} {address : UInt16}

/-- Where a step begins an instruction once its admission is done. -/
theorem released_iff (c : Core) (address : UInt16) :
    (∃ d, (if c.releaseSync.cpu.isWaiting then none else some c.releaseSync) = some d ∧
      d.regs.pc = address) ↔
    c.regs.pc = address ∧
      (c.cpu.wait = .running ∨ (c.cpu.wait = .syncWait ∧ c.cpu.latches.any = true)) := by
  rw [← releaseSync_awake_iff]
  split
  · rename_i waiting
    rw [waiting]
    simp
  · rename_i awake
    rw [Bool.eq_false_iff.mpr awake, ← releaseSync_regs]
    simp

/-- A step begins an instruction at the program counter, or in the handler that FIRQ enters. -/
theorem beginsAt_iff : c.BeginsAt address ↔
    (c.serves? .step = some .firq ∧ (c.applyRequests.enter .firq).regs.pc = address) ∨
      (c.serves? .step = none ∧ c.regs.pc = address ∧ (c.cpu.wait = .running ∨
        (c.cpu.wait = .syncWait ∧ c.applyRequests.cpu.latches.any = true))) := by
  rw [serves?_step]
  unfold BeginsAt begins? admitted
  cases c.applyRequests.cpu.admission? with
  | none =>
      have begins := released_iff c.applyRequests address
      constructor
      · intro begun
        exact .inr ⟨rfl, begins.mp begun⟩
      · rintro (⟨firq, _⟩ | ⟨_, begun⟩)
        · cases firq
        · exact begins.mpr begun
  | some line =>
      cases line with
      | nmi => simp
      | irq => simp
      | firq =>
          have begins := released_iff (c.applyRequests.enter .firq) address
          constructor
          · intro begun
            exact .inl ⟨rfl, (begins.mp begun).1⟩
          · rintro (⟨_, target⟩ | ⟨unserved, _⟩)
            · exact begins.mpr ⟨target, .inl (enter_wait _ .firq)⟩
            · cases unserved

end Core

/-- A fault is what a run looks for last. -/
theorem StopReason.eq_fault_of_rank {fault : Fault} {reason : StopReason}
    (last : (StopReason.fault fault).rank ≤ reason.rank) : ∃ other, reason = .fault other := by
  cases reason with
  | fault other => exact ⟨other, rfl⟩
  | _ => simp [rank] at last

namespace RunControl

/-- A run makes the step behind a number of steps, be it one that fails. -/
structure Makes (control : RunControl) (b : Board) (steps : Nat) : Prop where
  quiet : control.Quiet b steps
  unended : ∀ reason, control.Ends steps (b.afterSteps steps) reason →
    ∃ fault, reason = .fault fault

variable {control : RunControl} {b d : Board} {steps : Nat}

/-- The steps that a finished run has made are those that it counts and the one that failed. -/
theorem makes_iff {outcome : RunOutcome}
    (endsFirst : control.EndsFirst b outcome.steps outcome.reason) :
    control.Makes b steps ↔ steps < outcome.steps ∨
      (steps = outcome.steps ∧ ∃ fault, outcome.reason = .fault fault) := by
  constructor
  · intro makes
    rcases Nat.lt_trichotomy steps outcome.steps with earlier | rfl | later
    · exact .inl earlier
    · exact .inr ⟨rfl, makes.unended _ endsFirst.ends⟩
    · exact absurd endsFirst.ends (makes.quiet _ later _)
  · rintro (earlier | ⟨rfl, fault, failed⟩)
    · refine ⟨fun i below => endsFirst.quiet i (Nat.lt_trans below earlier), ?_⟩
      intro reason ends
      exact absurd ends (endsFirst.quiet steps earlier reason)
    · refine ⟨endsFirst.quiet, ?_⟩
      intro reason ends
      exact StopReason.eq_fault_of_rank (failed ▸ endsFirst.first reason ends)

theorem Makes.not_at_breakpoint (makes : control.Makes b steps) (later : 0 < steps)
    (running : (b.afterSteps steps).cpu.wait = .running) :
    (b.afterSteps steps).pc ∉ control.breakpoints := by
  intro listed
  have breaks := (control.breaksAt_iff _).mpr ⟨running, listed⟩
  obtain ⟨fault, same⟩ := makes.unended _ (endsFirst_breakpoint makes.quiet later breaks).ends
  cases same

/-- A run stops at every breakpoint that it comes to between two steps. Any step but its first begins
an instruction at a breakpoint exactly if the step enters a FIRQ handler there, or ends without an
interrupt a SYNC wait there. -/
theorem breakpoints_hold_between_steps (control : RunControl) (b : Board) {steps : Nat}
    (later : 0 < steps) {address : UInt16} (listed : address ∈ control.breakpoints) :
    let here := b.afterSteps steps
    (control.Quiet b steps → here.cpu.wait = .running → here.pc = address →
      control.EndsFirst b steps (.breakpoint address)) ∧
    (control.Makes b steps → (here.monitor.core.BeginsAt address ↔
      (here.monitor.core.serves? .step = some .firq ∧
        (here.monitor.core.applyRequests.enter .firq).regs.pc = address) ∨
      (here.monitor.core.serves? .step = none ∧ here.cpu.wait = .syncWait ∧
        here.monitor.core.applyRequests.cpu.latches.any = true ∧ here.pc = address))) := by
  intro here
  refine ⟨?_, ?_⟩
  · rintro quiet running rfl
    exact endsFirst_breakpoint quiet later ((control.breaksAt_iff _).mpr ⟨running, listed⟩)
  · intro makes
    rw [Core.beginsAt_iff]
    constructor
    · rintro (entered | ⟨unserved, target, running | ⟨asleep, released⟩⟩)
      · exact .inl entered
      · have target : here.pc = address := target
        exact absurd (target ▸ listed) (makes.not_at_breakpoint later running)
      · exact .inr ⟨unserved, asleep, released, target⟩
    · rintro (entered | ⟨unserved, asleep, released, target⟩)
      · exact .inl entered
      · exact .inr ⟨unserved, target, .inr ⟨asleep, released⟩⟩

/-- A board with masked interrupts and a program at $2000; the vector of FIRQ points to $5000. -/
def staged (program : List UInt8) (latches : Latches) : Board :=
  let b := Board.new 1000
  b.setMonitor (b.monitor.setCore {
    cpu :=
      { Cpu.zero with
        regs := { Registers.zero with pc := 0x2000, s := 0x1000, cc := Flags.clear.maskInterrupts }
        latches }
    bus := (b.bus.pokeWord Event.firq.vector 0x5000).pokeBytes 0x2000 program })

/-- A masked IRQ ends the wait of SYNC, and the same step passes the breakpoint behind it. -/
theorem sync_passes_breakpoint : ((staged [0x13, 0x12] ⟨false, true, false⟩).afterSteps
    1).monitor.core.BeginsAt 0x2001 := by
  have ran : (Board.runWithin 3 (.unasked (some 2) [0x2001])
      (staged [0x13, 0x12] ⟨false, true, false⟩)).map Prod.fst = some ⟨.limit, 2, 0⟩ := by rfl
  obtain ⟨⟨outcome, d⟩, returned, rfl⟩ := Option.map_eq_some_iff.mp ran
  obtain ⟨questions, _, finished⟩ := Board.finished_of_ran returned
  have makes := (makes_iff finished.endsFirst).mpr (.inl (by decide : 1 < 2))
  apply ((breakpoints_hold_between_steps _ _ Nat.one_pos List.mem_cons_self).2 makes).mpr
  exact .inr ⟨by rfl, by rfl, by rfl, by rfl⟩

/-- Once ANDCC has cleared the mask, the step that enters the FIRQ handler passes its breakpoint. -/
theorem firq_passes_breakpoint : ¬ ∀ (control : RunControl) (b : Board) (steps : Nat),
    control.Makes b steps → 0 < steps → ∀ address ∈ control.breakpoints,
      ¬ (b.afterSteps steps).monitor.core.BeginsAt address := by
  intro holds
  have ran : (Board.runWithin 4 (.unasked (some 3) [0x5000])
      (staged [0x1C, 0xBF] ⟨false, false, true⟩)).map Prod.fst = some ⟨.limit, 3, 0⟩ := by rfl
  obtain ⟨⟨outcome, d⟩, returned, rfl⟩ := Option.map_eq_some_iff.mp ran
  obtain ⟨questions, _, finished⟩ := Board.finished_of_ran returned
  have makes := (makes_iff finished.endsFirst).mpr (.inl (by decide : 1 < 3))
  apply holds _ _ _ makes Nat.one_pos 0x5000 List.mem_cons_self
  exact ⟨_, rfl, rfl⟩

end RunControl
end Sim6809
