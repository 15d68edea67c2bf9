import Sim6809.Proofs.Processor.RegisterMask
import Sim6809.Proofs.Run.Outcome

/-!
The clock. Each step that succeeds takes at least one cycle and at most thirty, and the two counters
add up the cycles that the steps of a run return and the steps that returned some. The timer of a
board is given what its processor returned. The counters are numbers without a greatest value. They
stand for counters of 64 bits, in whose range they stay for as many steps as a run can be long.
-/
namespace Sim6809

/-! ### The cost of an instruction -/

/-- The most cycles that an addressing mode adds to those of an opcode. -/
def AddressMode.mostCycles : AddressMode → Nat
  | indexed => 8
  | _ => 0

/-- The most cycles that an instruction adds to those of its opcode and its mode. -/
def Instruction.mostCycles : Instruction → Nat
  | longBranch _ => 1
  | push _ | pull _ => 12
  | rti => 9
  | _ => 0

/-- The costliest entries of the opcode map are the software interrupts and CWAI. -/
theorem Opcode.cycles_bounded (page : Page) (byte : UInt8) : 1 ≤ (lookup page byte).cycles ∧
    (lookup page byte).cycles + (lookup page byte).mode.mostCycles +
      (lookup page byte).instruction.mostCycles ≤ 20 := by
  have all : ∀ n : Fin 256, 1 ≤ (lookup page (.ofFin n)).cycles ∧
      (lookup page (.ofFin n)).cycles + (lookup page (.ofFin n)).mode.mostCycles +
        (lookup page (.ofFin n)).instruction.mostCycles ≤ 20 := by
    cases page <;> decide +kernel
  exact all byte.toFin

namespace Core

variable {c : Core}

theorem locate_cycles_le (c : Core) (mode : AddressMode) :
    (c.locate mode).1 ≤ mode.mostCycles := by
  cases mode with
  | indexed =>
      have postbyte (p : IndexedPostbyte) (d : Core) (address : UInt16) :
          (d.resolve address p).1 = p.cycles := by
        unfold resolve
        split
        · rfl
        · rfl
      change c.locateIndexed.1 ≤ 8
      rw [locateIndexed_eq]
      dsimp only
      rw [postbyte]
      exact IndexedPostbyte.cycles_le _
  | _ => exact Nat.le_refl 0

theorem execute_cycles_le {i : Instruction} {extra : Nat} (ok : (c.execute i).1 = .ok extra) :
    extra ≤ i.mostCycles := by
  have transferred (change : Registers → Register → Register → Registers)
      (ok : (c.onPair change).1 = .ok extra) : extra = 0 := by
    unfold onPair at ok
    revert ok
    rcases c.selectPair with ⟨chosen, d⟩
    cases chosen with
    | ok pair =>
        rintro ⟨⟩
        rfl
    | error fault => rintro ⟨⟩
  have masked (stack : StackPointer) : frameBytes (stack.selected c.operandByte.1) ≤ 12 := by
    rw [Registers.frameBytes_selected]
    exact maskBytes_le _
  cases i with
  | tfr => exact Nat.le_of_eq (transferred _ ok)
  | exg => exact Nat.le_of_eq (transferred _ ok)
  | push stack =>
      cases ok
      exact masked stack
  | pull stack =>
      cases ok
      exact masked stack
  | longBranch condition =>
      simp only [execute] at ok
      split at ok
      · cases ok
        -- A long branch takes one cycle more where it branches, unless it always does.
        change (if condition = .ra then 0 else 1) ≤ 1
        split
        · exact Nat.zero_le 1
        · exact Nat.le_refl 1
      · cases ok
        exact Nat.zero_le 1
  | rti =>
      cases ok
      change (if c.pullFrame.1 then 9 else 0) ≤ 9
      split
      · exact Nat.le_refl 9
      · exact Nat.zero_le 9
  | _ =>
      cases ok
      exact Nat.zero_le _

theorem perform_cycles {cycles : Nat} (ok : c.perform.1 = .ok cycles) :
    1 ≤ cycles ∧ cycles ≤ 20 := by
  obtain ⟨least, most⟩ := Opcode.cycles_bounded c.fetchOpcode.1.1 c.fetchOpcode.1.2
  have mode := (c.fetchOpcode.2.noteUndefined c.fetchOpcode.1 c.regs.pc).locate_cycles_le
    c.fetched.mode
  rw [perform_eq] at ok
  cases executed : (c.located.2.execute c.fetched.instruction).1 with
  | error fault =>
      rw [executed] at ok
      cases ok
  | ok extra =>
      have added := execute_cycles_le executed
      rw [executed] at ok
      have total : c.fetched.cycles + c.located.1 + extra = cycles := Except.ok.inj ok
      change 1 ≤ c.fetched.cycles at least
      change c.fetched.cycles + c.fetched.mode.mostCycles + c.fetched.instruction.mostCycles ≤ 20
        at most
      change c.located.1 ≤ c.fetched.mode.mostCycles at mode
      exact ⟨by omega, by omega⟩

/-! ### The cost of a step -/

/-- A wait takes a cycle, and an instruction takes those of its own. -/
theorem proceed_cycles {spent cycles : Nat} (ok : (c.proceed spent).1 = .ok cycles) :
    spent + 1 ≤ cycles ∧ cycles ≤ spent + 20 := by
  rw [proceed_eq] at ok
  split at ok
  · obtain rfl := Except.ok.inj ok
    exact ⟨Nat.le_refl _, by omega⟩
  · cases performed : c.releaseSync.perform with
    | mk answer d =>
        rw [performed] at ok
        cases answer with
        | error fault => cases ok
        | ok own =>
            have bounds := perform_cycles (congrArg Prod.fst performed)
            obtain rfl := Except.ok.inj ok
            exact ⟨by omega, by omega⟩

theorem entryCycles_bounded (wait : WaitState) (line : InterruptLine) :
    1 ≤ entryCycles wait line ∧ entryCycles wait line ≤ 19 ∧ entryCycles wait .firq ≤ 10 := by
  cases wait <;> cases line <;> decide

/-- The longest step enters a FIRQ handler that begins with a software interrupt. -/
theorem step_cycles {cycles : Nat} (ok : c.step.1 = .ok cycles) : 1 ≤ cycles ∧ cycles ≤ 30 := by
  rw [step_eq_finish] at ok
  unfold admitted at ok
  cases served : c.applyRequests.cpu.admission? with
  | none =>
      rw [served] at ok
      obtain ⟨least, most⟩ := proceed_cycles ok
      exact ⟨by omega, by omega⟩
  | some line =>
      rw [served] at ok
      obtain ⟨least, most, fast⟩ := entryCycles_bounded c.applyRequests.cpu.wait line
      dsimp only [finish] at ok
      -- A FIRQ entry goes on with an instruction of the handler; the other entries end the step.
      split at ok
      · rename_i firq
        subst firq
        obtain ⟨behind, within⟩ := proceed_cycles ok
        exact ⟨by omega, by omega⟩
      · obtain rfl := Except.ok.inj ok
        exact ⟨least, by omega⟩

/-- What a step returns, and what it does to the two counters. -/
structure KeepsAccount (c : Core) : Prop where
  counted (cycles : Nat) : c.step.1 = .ok cycles →
    c.step.2.cpu.cycles = c.cpu.cycles + cycles ∧ c.step.2.cpu.executed = c.cpu.executed + 1 ∧
      1 ≤ cycles ∧ cycles ≤ 30
  uncounted (fault : Fault) : c.step.1 = .error fault →
    c.step.2.cpu.cycles = c.cpu.cycles ∧ c.step.2.cpu.executed = c.cpu.executed

theorem keepsAccount (c : Core) : c.KeepsAccount := by
  have stepped := c.step_counted
  refine ⟨?_, ?_⟩
  · intro cycles ok
    obtain ⟨least, most⟩ := step_cycles ok
    revert stepped ok
    rcases c.step with ⟨answer, d⟩
    rintro counted rfl
    exact ⟨counted.1, counted.2, least, most⟩
  · intro fault failed
    revert stepped failed
    rcases c.step with ⟨answer, d⟩
    rintro same rfl
    exact same

end Core

/-! ### Runs -/

namespace Cpu

/-- The counters of a processor since an earlier one, in which as many steps succeeded as there are
numbers, each of the cycles of one of them. -/
structure CountedFrom (start later : Cpu) (returned : List Nat) : Prop where
  cycles : later.cycles = start.cycles + returned.sum
  executed : later.executed = start.executed + returned.length

theorem CountedFrom.refl (cpu : Cpu) : CountedFrom cpu cpu [] := ⟨rfl, rfl⟩

theorem CountedFrom.trans {a b c : Cpu} {early late : List Nat} (h : CountedFrom a b early)
    (k : CountedFrom b c late) : CountedFrom a c (early ++ late) where
  cycles := by rw [k.cycles, h.cycles, List.sum_append, Nat.add_assoc]
  executed := by rw [k.executed, h.executed, List.length_append, Nat.add_assoc]

theorem CountedFrom.cycles_le {a b : Cpu} {returned : List Nat} (h : CountedFrom a b returned) :
    a.cycles ≤ b.cycles := by
  rw [h.cycles]
  exact Nat.le_add_right _ _

end Cpu

namespace Core

open Cpu (CountedFrom)

theorem step_countedFrom (c : Core) : CountedFrom c.cpu c.step.2.cpu c.step.1.toOption.toList := by
  cases answer : c.step.1 with
  | ok cycles =>
      obtain ⟨clock, steps, -⟩ := c.keepsAccount.counted cycles answer
      exact ⟨clock, steps⟩
  | error fault =>
      obtain ⟨clock, steps⟩ := c.keepsAccount.uncounted fault answer
      exact ⟨clock, steps⟩

/-- The cycles that a stimulus returns; only a step that succeeds returns some. -/
def returned? (c : Core) : Stimulus → Option Nat
  | .step => c.step.1.toOption
  | .change _ | .queue _ => none

/-- What the stimuli of a run return from one on and before another. -/
def returned (c : Core) (run : Nat → Stimulus) (m : Nat) : Nat → List Nat
  | 0 => []
  | n + 1 => c.returned run m n ++ ((c.trajectory run (m + n)).returned? (run (m + n))).toList

theorem after_countedFrom (c : Core) (stimulus : Stimulus) :
    CountedFrom c.cpu (c.after stimulus).cpu (c.returned? stimulus).toList := by
  cases stimulus with
  | step => exact c.step_countedFrom
  | change request => exact ⟨rfl, rfl⟩
  | queue request => exact ⟨rfl, rfl⟩

theorem trajectory_countedFrom (c : Core) (run : Nat → Stimulus) (m n : Nat) :
    CountedFrom (c.trajectory run m).cpu (c.trajectory run (m + n)).cpu (c.returned run m n) := by
  induction n with
  | zero => exact .refl _
  | succ n ih => exact ih.trans ((c.trajectory run (m + n)).after_countedFrom (run (m + n)))

end Core

namespace Board

open Cpu (CountedFrom)

/-- What the steps of a board return from one on and before another. -/
def returned (b : Board) (m : Nat) : Nat → List Nat
  | 0 => []
  | n + 1 => b.returned m n ++ (b.afterSteps (m + n)).monitor.core.step.1.toOption.toList

theorem afterSteps_countedFrom (b : Board) (m n : Nat) : CountedFrom (b.afterSteps m).cpu
    (b.afterSteps (m + n)).cpu (b.returned m n) := by
  induction n with
  | zero => exact .refl _
  | succ n ih =>
      have stepped := (b.afterSteps (m + n)).monitor.core.step_countedFrom
      have same := (b.afterSteps (m + n)).step_core.2
      rw [← same] at stepped
      exact ih.trans stepped

/-- A board's step and its timer. The cycles that have passed are told by a subtraction, which never
falls below zero and gives what the processor returned. -/
structure FeedsTimer (b : Board) : Prop where
  never_back : b.cpu.cycles ≤ b.monitor.step.2.cpu.cycles
  fed (cycles : Nat) : b.monitor.core.step.1 = .ok cycles →
    b.monitor.step.2.cpu.cycles - b.cpu.cycles = cycles ∧
      b.step = (.ok b.monitor.upcoming?, if b.ticking then
        (b.setMonitor b.monitor.step.2).advanceTimer cycles else b.setMonitor b.monitor.step.2)
  unfed (fault : Fault) : b.monitor.core.step.1 = .error fault →
    b.step = (.error fault, b.setMonitor b.monitor.step.2)

theorem feedsTimer (b : Board) : b.FeedsTimer := by
  obtain ⟨answer, core, -⟩ := b.monitor.step_core
  have counted := b.monitor.core.step_countedFrom
  rw [← core.cpu] at counted
  have passed : b.monitor.step.2.cpu.cycles =
      b.cpu.cycles + b.monitor.core.step.1.toOption.toList.sum := counted.cycles
  refine ⟨counted.cycles_le, ?_, ?_⟩
  · intro cycles ok
    have elapsed : b.monitor.step.2.cpu.cycles - b.cpu.cycles = cycles := by
      rw [passed, ok, Nat.add_sub_cancel_left]
      exact Nat.add_zero cycles
    refine ⟨elapsed, ?_⟩
    rw [ok] at answer
    rw [← elapsed]
    unfold step
    revert answer
    rcases b.monitor.step with ⟨result, m⟩
    rintro rfl
    rfl
  · intro fault failed
    rw [failed] at answer
    unfold step
    revert answer
    rcases b.monitor.step with ⟨result, m⟩
    rintro rfl
    rfl

/-- On any bus a step that succeeds returns one to thirty cycles, and the counters grow by these
cycles and by one step; a step that fails leaves both. So in a run, whatever happens to the interrupt
lines between its steps, the cycles grow by the sum of what the steps return and never fall, and the
executed steps grow by those that succeed. It is the same for the steps of a board, whose timer is given
exactly the cycles that its processor returned. -/
theorem steps_accounted :
    (∀ c : Core, c.KeepsAccount) ∧
    (∀ (c : Core) (run : Nat → Stimulus) (m n : Nat),
      CountedFrom (c.trajectory run m).cpu (c.trajectory run (m + n)).cpu (c.returned run m n) ∧
        (c.trajectory run m).cpu.cycles ≤ (c.trajectory run (m + n)).cpu.cycles) ∧
    (∀ b : Board, b.FeedsTimer) ∧
    ∀ (b : Board) (m n : Nat),
      CountedFrom (b.afterSteps m).cpu (b.afterSteps (m + n)).cpu (b.returned m n) ∧
        (b.afterSteps m).cpu.cycles ≤ (b.afterSteps (m + n)).cpu.cycles := by
  refine ⟨Core.keepsAccount, ?_, feedsTimer, ?_⟩
  · intro c run m n
    have counted := c.trajectory_countedFrom run m n
    exact ⟨counted, counted.cycles_le⟩
  · intro b m n
    have counted := b.afterSteps_countedFrom m n
    exact ⟨counted, counted.cycles_le⟩

/-- A board on whose next step the processor enters a FIRQ handler and executes SWI2 there. -/
def longest : Board :=
  let b := (Board.new 7).setBus ((Board.new 7).bus.pokeBytes 0x5000 [0x10, 0x3F])
  let core := { b.monitor.core with
    bus := b.bus.pokeWord Event.firq.vector 0x5000
    cpu := { Cpu.zero with latches := ⟨false, false, true⟩ } }
  b.setMonitor (b.monitor.setCore core)

theorem longest_accounted : longest.monitor.core.step.1 = .ok 30 ∧
    longest.monitor.core.step.2.cpu.cycles = 30 ∧
      longest.monitor.step.2.cpu.cycles - longest.cpu.cycles = 30 ∧
        (longest.afterSteps 1).cpu.executed = 1 := by
  obtain ⟨single, -, fed, runs⟩ := steps_accounted
  have ok : longest.monitor.core.step.1 = .ok 30 := by rfl
  have counted := (single longest.monitor.core).counted 30 ok
  have passed := (runs longest 0 1).1.executed
  have one : (longest.returned 0 1).length = 1 := by rfl
  rw [one] at passed
  exact ⟨ok, counted.1, ((fed longest).fed 30 ok).1, passed⟩

/-! ### The range of the counters -/

/-- The counters of a board have grown by no more than a number of steps makes them grow. -/
structure CountedWithin (b d : Board) (steps : Nat) : Prop where
  cycles : d.cpu.cycles ≤ b.cpu.cycles + 30 * steps
  executed : d.cpu.executed ≤ b.cpu.executed + steps
  interrupts : d.cpu.interrupts ≤ b.cpu.interrupts + steps
  fired : d.timer.fired ≤ b.timer.fired + steps

/-- Counters of 64 bits can hold what those of the board count. -/
structure CountersFit (b : Board) : Prop where
  cycles : b.cpu.cycles < UInt64.size
  executed : b.cpu.executed < UInt64.size
  interrupts : b.cpu.interrupts < UInt64.size
  fired : b.timer.fired < UInt64.size

theorem CountedWithin.trans {b d e : Board} {m n : Nat} (h : CountedWithin b d m)
    (k : CountedWithin d e n) : CountedWithin b e (m + n) := by
  obtain ⟨cycles, executed, interrupts, fired⟩ := h
  obtain ⟨cycles', executed', interrupts', fired'⟩ := k
  exact ⟨by omega, by omega, by omega, by omega⟩

theorem fired_advance_le (t : Timer) (bus : Bus) (cycles : UInt64) :
    (t.advance bus cycles).2.1.fired ≤ t.fired + 1 := by
  dsimp only [Timer.advance]
  split
  · exact Nat.le_succ _
  · split
    · exact Nat.le_succ _
    · exact Nat.le_refl _

theorem step_countedWithin (b : Board) : CountedWithin b b.step.2 1 := by
  have cpu := b.step_core.2
  have account := b.monitor.core.keepsAccount
  have fed := b.feedsTimer
  have interrupts : b.step.2.cpu.interrupts ≤ b.cpu.interrupts + 1 := by
    rw [cpu, b.monitor.core.servesByPriority.count]
    apply Nat.add_le_add_left
    split
    · exact Nat.le_refl 1
    · exact Nat.zero_le 1
  cases stepped : b.monitor.core.step.1 with
  | error fault =>
      obtain ⟨cycles, executed⟩ := account.uncounted fault stepped
      have fired : b.step.2.timer.fired = b.timer.fired := by
        rw [fed.unfed fault stepped]
        rfl
      rw [← cpu] at cycles executed
      exact ⟨Nat.le_add_right_of_le (Nat.le_of_eq cycles),
        Nat.le_add_right_of_le (Nat.le_of_eq executed), interrupts,
        Nat.le_add_right_of_le (Nat.le_of_eq fired)⟩
  | ok spent =>
      obtain ⟨cycles, executed, _, most⟩ := account.counted spent stepped
      have fired : b.step.2.timer.fired ≤ b.timer.fired + 1 := by
        rw [(fed.fed spent stepped).2]
        dsimp only
        split
        · exact fired_advance_le _ _ _
        · exact Nat.le_succ _
      rw [← cpu] at cycles executed
      refine ⟨?_, Nat.le_of_eq executed, interrupts, fired⟩
      rw [cycles]
      exact Nat.add_le_add_left most _

theorem afterSteps_countedWithin (b : Board) (n : Nat) : CountedWithin b (b.afterSteps n) n := by
  induction n with
  | zero => exact ⟨Nat.le_refl _, Nat.le_refl _, Nat.le_refl _, Nat.le_refl _⟩
  | succ n ih => exact ih.trans (b.afterSteps n).step_countedWithin

/-- No counter of a new board overflows in six hundred quadrillion steps. -/
theorem new_countersFit (period : UInt64) {n : Nat} (short : 30 * n < UInt64.size) :
    ((Board.new period).afterSteps n).CountersFit := by
  obtain ⟨cycles, executed, interrupts, fired⟩ := (Board.new period).afterSteps_countedWithin n
  have zero : (Board.new period).cpu.cycles = 0 ∧ (Board.new period).cpu.executed = 0 ∧
      (Board.new period).cpu.interrupts = 0 ∧ (Board.new period).timer.fired = 0 :=
    ⟨rfl, rfl, rfl, rfl⟩
  obtain ⟨no_cycles, no_steps, no_interrupts, no_firings⟩ := zero
  exact ⟨by omega, by omega, by omega, by omega⟩

end Board
end Sim6809
