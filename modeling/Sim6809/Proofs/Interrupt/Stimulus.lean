import Sim6809.Proofs.Processor.Step

/-!
Runs of a processor. Between its steps others raise and drop the interrupt lines, at once or through
the queue of the bus, in any order. A run is an endless sequence of such stimuli; its beginnings are
the finite runs.
-/
namespace Sim6809

/-- What can happen to a processor: a step, a change of a line at once, or a request that waits in
the queue of its bus for the next step. -/
inductive Stimulus
  | step
  | change (request : LineRequest)
  | queue (request : LineRequest)
  deriving DecidableEq, Repr

namespace Core

/-- The processor after a stimulus. A failing step counts: the processor is then what the failure
left. -/
def after (c : Core) : Stimulus → Core
  | .step => c.step.2
  | .change request => c.setLine request.line request.level
  | .queue request => { c with bus := c.bus.requestLine request }

/-- The processor after as many stimuli of a run as given. -/
def trajectory (c : Core) (run : Nat → Stimulus) : Nat → Core
  | 0 => c
  | n + 1 => (c.trajectory run n).after (run n)

/-- The line whose interrupt a stimulus serves; only steps serve one. -/
def serves? (c : Core) : Stimulus → Option InterruptLine
  | .step => c.applyRequests.admitted.1.map Prod.fst
  | .change _ | .queue _ => none

/-- The requests that take effect on the latches: a step first carries out the whole queue. -/
def carriedOut (c : Core) : Stimulus → List LineRequest
  | .step => c.bus.requests
  | .change request => [request]
  | .queue _ => []

/-- The requests that a stimulus makes. Those in the queue after a step were all put there by
handlers that ran in it, as it began by emptying the queue. -/
def made (c : Core) : Stimulus → List LineRequest
  | .step => c.step.2.bus.requests
  | .change request => [request]
  | .queue request => [request]

theorem serves?_step (c : Core) : c.serves? .step = c.applyRequests.cpu.admission? := by
  unfold serves? admitted
  cases c.applyRequests.cpu.admission? with
  | none => rfl
  | some line => rfl

theorem entryCost_of_unserved {c : Core} (unserved : c.serves? .step = none) : c.entryCost = 0 := by
  unfold entryCost
  rw [Option.map_eq_none_iff.mp unserved]
  rfl

/-- The latches after the queue is carried out. -/
theorem applyRequests_latches (c : Core) :
    c.applyRequests.cpu.latches = c.cpu.latches.applyAll c.bus.requests := rfl

end Core

namespace Latches

/-- The latches once a line is served: NMI stays until it is deasserted. -/
def served (latches : Latches) : Option InterruptLine → Latches
  | some .irq => latches.set .irq false
  | some .firq => latches.set .firq false
  | _ => latches

theorem isSet_served (latches : Latches) (line? : Option InterruptLine) (line : InterruptLine) :
    (latches.served line?).isSet line =
      (latches.isSet line && (line == .nmi || line? != some line)) := by
  obtain ⟨nmi, irq, firq⟩ := latches
  cases line? with
  | none => cases line <;> simp [served, isSet]
  | some other => cases other <;> cases line <;> simp [served, isSet, set]

theorem isSet_apply (latches : Latches) (request : LineRequest) (line : InterruptLine) :
    (latches.apply request).isSet line =
      if line = request.line then request.level else latches.isSet line :=
  latches.isSet_set request.line line request.level

/-- A line that no request raises stays down. -/
theorem isSet_applyAll_eq_false {latches : Latches} {requests : List LineRequest}
    {line : InterruptLine} (down : latches.isSet line = false)
    (quiet : .assert line ∉ requests) : (latches.applyAll requests).isSet line = false := by
  induction requests generalizing latches with
  | nil => exact down
  | cons request requests ih =>
      have first : request ≠ .assert line := fun same => quiet (same ▸ List.mem_cons_self)
      apply ih _ fun later => quiet (List.mem_cons_of_mem _ later)
      rw [isSet_apply]
      split
      · cases request with
        | assert raised => simp_all [LineRequest.line]
        | deassert dropped => rfl
      · exact down

/-- A line that no request drops stays up. -/
theorem isSet_applyAll_eq_true {latches : Latches} {requests : List LineRequest}
    {line : InterruptLine} (up : latches.isSet line = true)
    (kept : .deassert line ∉ requests) : (latches.applyAll requests).isSet line = true := by
  induction requests generalizing latches with
  | nil => exact up
  | cons request requests ih =>
      have first : request ≠ .deassert line := fun same => kept (same ▸ List.mem_cons_self)
      apply ih _ fun later => kept (List.mem_cons_of_mem _ later)
      rw [isSet_apply]
      split
      · cases request with
        | assert raised => rfl
        | deassert dropped => simp_all [LineRequest.line]
      · exact up

end Latches
end Sim6809
