import Sim6809.Proofs.Board.Acknowledgement
import Sim6809.Proofs.Processor.Stuck
import Sim6809.Proofs.Run.Resume

/-!
Boards after a fault. The processor is stuck in front of the instruction that failed, and the timer sees
nothing of a failing step, so every run that may make a step ends with the same fault before it has made
one.
-/
namespace Sim6809.Board

variable {control : RunControl} {b d : Board} {fault : Fault}

/-- A board whose last step or run ended with a fault, with no handlers but those of devices. -/
inductive Faulted (fault : Fault) : Board → Prop
  | step {b : Board} : b.bus.Unhosted → b.step.1 = .error fault → Faulted fault b.step.2
  | run {b d : Board} {control : RunControl} {outcome : RunOutcome} : b.bus.Unhosted →
      b.run? control = some (outcome, d) → outcome.reason = .fault fault → Faulted fault d

/-- Runs one after the other, with their outcomes; nothing if one of them never ends. -/
def runs? (b : Board) : List RunControl → Option (List RunOutcome × Board)
  | [] => some ([], b)
  | control :: rest => (b.run? control).bind fun (outcome, after) =>
    (after.runs? rest).map fun (outcomes, last) => (outcome :: outcomes, last)

/-! ### Steps that fail -/

theorem core_of_error (failed : b.step.1 = .error fault) : b.monitor.core.step.1 = .error fault := by
  rw [b.step_core.1] at failed
  cases result : b.monitor.core.step.1 with
  | ok cycles =>
      rw [result] at failed
      cases failed
  | error other =>
      rw [result] at failed
      exact congrArg Except.error (Except.error.inj failed)

/-- A failing step leaves the devices alone. -/
theorem step_of_error (failed : b.step.1 = .error fault) :
    Core.SameState b.step.2.monitor.core b.monitor.core.step.2 ∧ b.step.2.timer = b.timer ∧
      b.step.2.monitor.symbols = b.monitor.symbols ∧ b.step.2.ticking = b.ticking := by
  obtain ⟨_, core, symbols⟩ := b.monitor.step_core
  revert failed core symbols
  dsimp only [step]
  rcases b.monitor.step with ⟨result, m⟩
  intro failed core symbols
  cases result with
  | ok op => cases failed
  | error other => exact ⟨core, rfl, symbols, rfl⟩

theorem stuck_of_step (unhosted : b.bus.Unhosted) (failed : b.step.1 = .error fault) :
    b.step.2.monitor.core.Stuck fault :=
  (Core.stuck_of_error unhosted (core_of_error failed)).of_sameState (step_of_error failed).1

theorem Faulted.stuck (h : Faulted fault b) : b.monitor.core.Stuck fault := by
  cases h with
  | step unhosted failed => exact stuck_of_step unhosted failed
  | @run start _ control outcome unhosted ran reason =>
      obtain ⟨ended, left⟩ := (returns_of_run? ran).endsFirst
      rw [reason] at ended left
      have reached := unhosted.of_setup (start.afterSteps_setup outcome.steps).bus
      have recorded : Core.SameState ((start.afterSteps outcome.steps).left (.fault fault)).monitor.core
          (start.afterSteps outcome.steps).step.2.monitor.core :=
        ⟨rfl, rfl, rfl, rfl, rfl, rfl, rfl, rfl⟩
      exact (stuck_of_step reached ended.ends).of_sameState (left.same.core.trans recorded)

/-- A board that is stuck fails again. It changes no more once its processor has taken the requests that
the entry of an interrupt may have made. -/
theorem step_of_stuck (stuck : b.monitor.core.Stuck fault) : b.step.1 = .error fault ∧
    b.step.2.monitor.core.Stuck fault ∧ (b.bus.requests = [] → Alike b.step.2 b) := by
  obtain ⟨again, same⟩ := stuck.step
  have failed : b.step.1 = .error fault := by
    rw [b.step_core.1, again]
    rfl
  obtain ⟨core, timer, symbols, ticking⟩ := step_of_error failed
  refine ⟨failed, stuck_of_step stuck.unhosted failed, fun quiet => ?_⟩
  rw [Core.applyRequests_of_quiet quiet] at same
  exact ⟨⟨core.trans same, timer, symbols⟩, ticking⟩

/-! ### Runs -/

/-- A run from a board that fails at once makes no step. -/
theorem run?_of_error (failed : b.step.1 = .error fault) (unlimited : control.limit ≠ some 0) :
    ∃ after, b.run? control = some (⟨.fault fault, 0, 0⟩, after) ∧ Alike after b.step.2 := by
  have below : control.limitReached 0 = false := by
    apply Bool.eq_false_iff.mpr
    intro reached
    obtain ⟨limit, limited, met⟩ := (control.limitReached_iff b 0).mp reached
    rw [Nat.le_zero.mp met] at limited
    exact unlimited limited
  have stepped : b.step = (.error fault, b.step.2) := Prod.ext failed rfl
  have ended : round control 0 0 b = .inl (⟨.fault fault, 0, 0⟩, b.left (.fault fault)) := by
    unfold round
    rw [below, stepped]
    rfl
  have left : Alike (b.left (.fault fault)) b.step.2 :=
    ⟨⟨⟨rfl, rfl, rfl, rfl, rfl, rfl, rfl, rfl⟩, rfl, rfl⟩, rfl⟩
  rw [run?, goOn, ended]
  exact ⟨_, rfl, (logOutcome_alike _ _).trans left⟩

theorem runs?_of_stuck (stuck : b.monitor.core.Stuck fault) {controls : List RunControl}
    (unlimited : ∀ control ∈ controls, control.limit ≠ some 0) :
    ∃ after, b.runs? controls = some (controls.map fun _ => ⟨.fault fault, 0, 0⟩, after) ∧
      (b.bus.requests = [] → Alike after b) := by
  induction controls generalizing b with
  | nil => exact ⟨b, rfl, fun _ => ⟨⟨.refl _, rfl, rfl⟩, rfl⟩⟩
  | cons control rest ih =>
      obtain ⟨failed, left, settled⟩ := step_of_stuck stuck
      obtain ⟨next, ran, alike⟩ := run?_of_error failed (unlimited control List.mem_cons_self)
      obtain ⟨after, again, kept⟩ := ih (left.of_sameState alike.same.core) fun other member =>
        unlimited other (List.mem_cons_of_mem control member)
      refine ⟨after, ?_, fun quiet => ?_⟩
      · rw [runs?, ran, Option.bind_some]
        dsimp only
        rw [again]
        rfl
      · have same := alike.trans (settled quiet)
        exact (kept (same.same.core.bus.requests.trans quiet)).trans same

/-- A fault is a fixed point. On a bus without handlers each further step of a processor that has failed
fails with the same fault and leaves the processor and memory as the first one did. A board after a
fault reports that fault from every run with a limit above zero or none, without a step and however
often it is run; it stays as it is unless its devices have made requests in the step that failed. -/
theorem fault_stays (fault : Fault) :
    (∀ c : Core, c.bus.Plain → c.step.1 = .error fault → ∀ n,
      (c.step.2.trajectory (fun _ => .step) n).step.1 = .error fault ∧
        Core.SameState (c.step.2.trajectory (fun _ => .step) n) c.step.2) ∧
    ∀ b, Faulted fault b → ∀ controls : List RunControl,
      (∀ control ∈ controls, control.limit ≠ some 0) →
      ∃ after, b.runs? controls = some (controls.map fun _ => ⟨.fault fault, 0, 0⟩, after) ∧
        (b.bus.requests = [] → Alike after b) := by
  refine ⟨?_, fun b faulted controls unlimited => runs?_of_stuck faulted.stuck unlimited⟩
  intro c plain failed n
  have stuck := Core.stuck_of_error plain.unhosted failed
  have quiet : c.step.2.bus.requests = [] := by
    rw [← c.step_applyRequests]
    exact (Core.unrequested_stable.step (c := c.applyRequests) ⟨plain, rfl⟩).2
  have same := stuck.trajectory quiet n
  exact ⟨(Core.sameState_congruence.step same).1.trans stuck.step.1, same⟩

/-- A new board with a NOP and a transfer from A to X at its program counter. -/
def faulting : Board :=
  let b := Board.new 1000
  b.setBus (b.bus.pokeBytes 0x0000 [0x12, 0x1F, 0x81])

/-- The board reports its fault after one step and then without any. So does a processor that admits a
FIRQ whose handler begins with such a transfer. -/
theorem faulting_stays : ∃ d, faulting.run? (.unasked (some 9) []) =
      some (⟨.fault (.mismatchedRegisters .a .x), 1, 0⟩, d) ∧
    (∃ after, d.runs? [.unasked none [], .unasked (some 1) [0x0001]] =
      some ([⟨.fault (.mismatchedRegisters .a .x), 0, 0⟩,
        ⟨.fault (.mismatchedRegisters .a .x), 0, 0⟩], after)) ∧
    ((Core.mismatched ⟨false, false, true⟩).step.2.trajectory (fun _ => .step) 5).step.1 =
      .error (.mismatchedRegisters .a .x) := by
  obtain ⟨core, board⟩ := fault_stays (.mismatchedRegisters .a .x)
  have ran : (faulting.run? (.unasked (some 9) [])).map Prod.fst =
      some ⟨.fault (.mismatchedRegisters .a .x), 1, 0⟩ := by
    rw [run?_of_limit _ rfl]
    decide +kernel
  obtain ⟨⟨outcome, d⟩, first, rfl⟩ := Option.map_eq_some_iff.mp ran
  have poked (b : Board) (h : b.bus.Unhosted) :
      (b.setBus (b.bus.pokeBytes 0x0000 [0x12, 0x1F, 0x81])).bus.Unhosted :=
    ⟨h.readHandlers, h.devices⟩
  have unhosted : faulting.bus.Unhosted := poked _ (new_unhosted 1000)
  obtain ⟨after, again, _⟩ := board d (.run unhosted first rfl)
    [.unasked none [], .unasked (some 1) [0x0001]] (by simp [RunControl.unasked])
  have failed : (Core.mismatched ⟨false, false, true⟩).step.1 =
      .error (.mismatchedRegisters .a .x) := by rfl
  exact ⟨d, first, ⟨after, again⟩, (core _ ⟨rfl, rfl⟩ failed 5).1⟩

end Sim6809.Board
