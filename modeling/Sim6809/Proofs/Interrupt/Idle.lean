import Sim6809.Proofs.Interrupt.Stimulus

/-!
Idle waiting. A step out of a wait that nothing ends carries out the queue and counts itself, with one
cycle. So a wait keeps everything but the counters and the lines for as long as it lasts.
-/
namespace Sim6809

/-- The steps among the first stimuli of a run. -/
def Stimulus.stepCount (run : Nat → Stimulus) : Nat → Nat
  | 0 => 0
  | n + 1 => stepCount run n + if run n = .step then 1 else 0

namespace Core

/-- Nothing ends a wait in the next step: once the queue is carried out no interrupt is admitted,
and if the wait is that of SYNC no line is asserted either. -/
structure Undisturbed (c : Core) : Prop where
  unserved : c.serves? .step = none
  quiet : c.cpu.wait = .syncWait → c.applyRequests.cpu.latches.any = false

/-- The requests that have taken effect in the first stimuli of a run, the oldest first. -/
def settled (c : Core) (run : Nat → Stimulus) : Nat → List LineRequest
  | 0 => []
  | n + 1 => c.settled run n ++ (c.trajectory run n).carriedOut (run n)

/-- A processor has come from another by steps that only waited, while some requests took effect.
Besides the latches and the counters nothing has changed, the queue of the bus apart. -/
structure IdledFor (c d : Core) (steps : Nat) (requests : List LineRequest) : Prop where
  cpu : d.cpu = { c.cpu with
    latches := c.cpu.latches.applyAll requests
    cycles := c.cpu.cycles + steps
    executed := c.cpu.executed + steps }
  bus : d.bus = { c.bus with requests := d.bus.requests }

variable {c d e : Core} {steps n : Nat} {requests : List LineRequest} {run : Nat → Stimulus}

/-! ### One step -/

theorem Undisturbed.releaseSync (h : c.Undisturbed) :
    c.applyRequests.releaseSync = c.applyRequests := by
  by_cases asleep : c.cpu.wait = .syncWait
  · unfold Core.releaseSync
    rw [h.quiet asleep, Bool.and_false]
    rfl
  · exact releaseSync_of_ne asleep

theorem step_of_undisturbed (waits : c.cpu.wait ≠ .running) (h : c.Undisturbed) :
    c.step = (.ok 1, c.applyRequests.account 1) := by
  have waiting : c.applyRequests.cpu.isWaiting = true := bne_iff_ne.mpr waits
  have unadmitted := c.serves?_step.symm.trans h.unserved
  rw [step_eq_finish, admitted, unadmitted]
  change c.applyRequests.proceed 0 = _
  rw [proceed_eq, h.releaseSync, if_pos waiting]

/-! ### Runs -/

theorem IdledFor.refl (c : Core) : IdledFor c c 0 [] := ⟨rfl, rfl⟩

theorem IdledFor.wait (h : IdledFor c d steps requests) : d.cpu.wait = c.cpu.wait := by
  rw [h.cpu]

theorem IdledFor.regs (h : IdledFor c d steps requests) : d.regs = c.regs := by
  unfold Core.regs
  rw [h.cpu]

theorem IdledFor.trans {early late : List LineRequest} {m : Nat} (first : IdledFor c d m early)
    (second : IdledFor d e n late) : IdledFor c e (m + n) (early ++ late) where
  cpu := by
    rw [second.cpu, first.cpu, Latches.applyAll_append, ← Nat.add_assoc, ← Nat.add_assoc]
  bus := by
    rw [second.bus, first.bus]

theorem idledFor_after (waits : c.cpu.wait ≠ .running) (stimulus : Stimulus)
    (undisturbed : stimulus = .step → c.Undisturbed) :
    IdledFor c (c.after stimulus) (if stimulus = .step then 1 else 0)
      (c.carriedOut stimulus) := by
  cases stimulus with
  | change request => exact ⟨rfl, rfl⟩
  | queue request => exact ⟨rfl, rfl⟩
  | step =>
      change IdledFor c c.step.2 1 c.bus.requests
      rw [step_of_undisturbed waits (undisturbed rfl)]
      exact ⟨rfl, rfl⟩

/-- A run whose steps nothing disturbs leaves everything as it was, but for the lines that it changes
and the counters of its steps. -/
theorem idledFor_trajectory (waits : c.cpu.wait ≠ .running)
    (undisturbed : ∀ k < n, run k = .step → (c.trajectory run k).Undisturbed) :
    IdledFor c (c.trajectory run n) (Stimulus.stepCount run n) (c.settled run n) := by
  induction n with
  | zero => exact .refl c
  | succ n ih =>
      have before := ih fun k below => undisturbed k (Nat.lt_succ_of_lt below)
      exact before.trans (idledFor_after (before.wait ▸ waits) (run n) (undisturbed n n.lt_succ_self))

/-- Out of an undisturbed wait no step is disturbed unless others change a line. -/
theorem IdledFor.undisturbed (h : IdledFor c d steps c.bus.requests) (empty : d.bus.requests = [])
    (undisturbed : c.Undisturbed) : d.Undisturbed := by
  have latches : d.applyRequests.cpu.latches = c.applyRequests.cpu.latches := by
    rw [applyRequests_latches, empty, h.cpu]
    rfl
  have admission : d.serves? .step = c.serves? .step := by
    have regs : d.applyRequests.cpu.regs = c.applyRequests.cpu.regs := by
      change d.cpu.regs = c.cpu.regs
      rw [h.cpu]
    rw [serves?_step, serves?_step]
    unfold Cpu.admission?
    rw [latches, regs]
  refine ⟨admission.trans undisturbed.unserved, ?_⟩
  rw [h.wait, latches]
  exact undisturbed.quiet

/-- Left alone, an undisturbed wait lasts. -/
theorem idledFor_alone (waits : c.cpu.wait ≠ .running) (undisturbed : c.Undisturbed) (n : Nat) :
    IdledFor c (c.trajectory (fun _ => .step) (n + 1)) (n + 1) c.bus.requests ∧
      (c.trajectory (fun _ => .step) (n + 1)).bus.requests = [] := by
  -- The first step carries out what waits in the queue, and the steps after it find it empty.
  induction n with
  | zero =>
      have first := idledFor_after waits .step fun _ => undisturbed
      have stepped := step_of_undisturbed waits undisturbed
      refine ⟨first, ?_⟩
      change c.step.2.bus.requests = []
      rw [stepped]
      rfl
  | succ n ih =>
      obtain ⟨idled, empty⟩ := ih
      have asleep := idled.wait ▸ waits
      have still := idled.undisturbed empty undisturbed
      have stepped := step_of_undisturbed asleep still
      have next := idled.trans (idledFor_after asleep .step fun _ => still)
      refine ⟨?_, ?_⟩
      · rw [carriedOut, empty, List.append_nil] at next
        exact next
      · change (c.trajectory (fun _ => .step) (n + 1)).step.2.bus.requests = []
        rw [stepped]
        rfl

end Core
end Sim6809
