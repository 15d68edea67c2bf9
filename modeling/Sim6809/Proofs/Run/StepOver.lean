import Sim6809.Proofs.Interrupt.Wait
import Sim6809.Proofs.Run.Breakpoint
import Sim6809.Proofs.Run.Resume

/-!
Stepping over a call. The run stops when it comes back to the instruction behind the call, at whatever
depth of the stack. While only calls and returns move S, the depth is the number of calls that have not
returned, so the stepped call has returned unless a deeper one goes back to the same place first.
-/
namespace Sim6809

namespace Core

/-- The return address that a step pushes, if it executes a call. -/
def called? (c : Core) : Option UInt16 :=
  match c.begins? with
  | some d => if d.fetched.instruction.isCall then some d.located.2.regs.pc else none
  | none => none

/-- The step executes RTS. -/
def returns (c : Core) : Bool :=
  match c.begins? with
  | some d => d.fetched.instruction == .rts
  | none => false

/-- The step moves S by nothing but a call or RTS: it enters no interrupt, the addressing of a call
leaves S alone, and so does every other instruction. -/
def movesStackByCalls (c : Core) : Bool :=
  c.serves? .step == none &&
    match c.begins? with
    | some d =>
      if d.fetched.instruction.isCall then d.located.2.regs.s == d.regs.s
      else d.fetched.instruction == .rts || c.step.2.regs.s == c.regs.s
    | none => true

/-- The return addresses of the calls that have not returned, the latest call first, after a step from
those before it. Each RTS is counted as the return of the latest call. -/
def callsAfter (c : Core) (calls : List UInt16) : List UInt16 :=
  match c.called? with
  | some address => address :: calls
  | none => if c.returns then calls.tail else calls

variable {c d : Core}

/-! ### Steps -/

/-- A call is no return. -/
theorem returns_of_called {address : UInt16} (called : c.called? = some address) :
    c.returns = false := by
  unfold called? at called
  unfold returns
  cases begins : c.begins? with
  | none => rfl
  | some d =>
      rw [begins] at called
      obtain ⟨call, -⟩ := Option.ite_none_right_eq_some.mp called
      apply beq_false_of_ne
      intro rts
      rw [rts] at call
      cases call

/-- What a step does to S that moves it by calls and returns only. -/
theorem step_s_of_moves (moves : c.movesStackByCalls = true) : c.step.2.regs.s =
    if c.called?.isSome then c.regs.s - 2 else if c.returns then c.regs.s + 2 else c.regs.s := by
  obtain ⟨unserved, moves⟩ := (Bool.and_eq_true _ _).mp moves
  have regs := roused_regs_of_unserved (eq_of_beq unserved)
  unfold called? returns
  cases begins : c.begins? with
  | none =>
      obtain ⟨cycles, stepped⟩ := step_of_unbegun begins
      rw [stepped]
      exact congrArg Registers.s regs
  | some d =>
      rw [begins] at moves
      rw [← eq_roused_of_begins? begins] at regs
      dsimp only at moves ⊢
      by_cases call : d.fetched.instruction.isCall = true
      · simp only [if_pos call] at moves ⊢
        have executed := d.located.2.execute_of_isCall call
        have moved : d.located.2.call.regs.s = d.located.2.regs.s - 2 := rfl
        rw [(step_of_ok begins (congrArg Prod.fst executed)).2.1, executed, moved, eq_of_beq moves,
          regs]
        rfl
      · simp only [if_neg call] at moves ⊢
        by_cases rts : d.fetched.instruction = .rts
        · simp only [beq_iff_eq.mpr rts]
          have inherent := d.located_regs_of_inherent (fetched_mode rts rfl)
          have ok : (d.located.2.execute d.fetched.instruction).1 = .ok 0 := by
            rw [rts]
            rfl
          have pulled : (d.located.2.execute .rts).2.regs.s = d.located.2.regs.s + 2 := rfl
          rw [(step_of_ok begins ok).2.1, rts, pulled, inherent, regs]
          rfl
        · simp only [beq_false_of_ne rts] at moves ⊢
          exact eq_of_beq moves

/-- A step moves S down by two for a call and up by two for a return. -/
theorem step_s_add_calls (moves : c.movesStackByCalls = true) :
    c.step.2.regs.s + .ofNat (2 * c.called?.isSome.toNat) =
      c.regs.s + .ofNat (2 * c.returns.toNat) := by
  rw [step_s_of_moves moves]
  cases called : c.called? with
  | some address =>
      rw [returns_of_called called]
      exact (UInt16.sub_add_cancel c.regs.s 2).trans (UInt16.add_zero c.regs.s).symm
  | none =>
      cases c.returns with
      | true => exact UInt16.add_zero (c.regs.s + 2)
      | false => rfl

/-- While there is a call for every return, S and the calls that have not returned move together. -/
theorem step_s_add_open {calls : List UInt16} (moves : c.movesStackByCalls = true)
    (latest : c.returns = true → calls ≠ []) :
    c.step.2.regs.s + .ofNat (2 * (c.callsAfter calls).length) =
      c.regs.s + .ofNat (2 * calls.length) := by
  rw [step_s_of_moves moves]
  unfold callsAfter
  cases c.called? with
  | some address =>
      simp only [Option.isSome_some, if_pos, List.length_cons, Nat.mul_add, UInt16.ofNat_add]
      grind
  | none =>
      cases returns : c.returns with
      | true =>
          obtain ⟨address, rest, rfl⟩ := List.exists_cons_of_ne_nil (latest returns)
          simp only [Option.isSome_none, Bool.false_eq_true, if_false, if_pos, List.tail_cons,
            List.length_cons, Nat.mul_add, UInt16.ofNat_add]
          grind
      | false => rfl

end Core

namespace Board

/-! ### Depth -/

/-- How many of the first steps of a board execute a call. -/
def callCount (b : Board) (n : Nat) : Nat :=
  (List.range n).countP fun i => (b.afterSteps i).monitor.core.called?.isSome

/-- How many of the first steps of a board execute RTS. -/
def returnCount (b : Board) (n : Nat) : Nat :=
  (List.range n).countP fun i => (b.afterSteps i).monitor.core.returns

/-- The return addresses of the calls in the first steps of a board that have not returned. -/
def openCalls (b : Board) : Nat → List UInt16
  | 0 => []
  | n + 1 => (b.afterSteps n).monitor.core.callsAfter (b.openCalls n)

/-- Only calls and RTS move S in the first steps of a board. -/
def MovesStackByCalls (b : Board) (n : Nat) : Prop :=
  ∀ i < n, (b.afterSteps i).monitor.core.movesStackByCalls = true

/-- In the first steps of a board every RTS goes back behind the latest call that has not returned. -/
def ReturnsInOrder (b : Board) (n : Nat) : Prop :=
  ∀ i < n, (b.afterSteps i).monitor.core.returns = true →
    (b.openCalls i).head? = some (b.afterSteps (i + 1)).pc

/-- The last of the first steps of a board executes RTS. -/
def EndsByReturn (b : Board) (n : Nat) : Prop :=
  ∃ i, n = i + 1 ∧ (b.afterSteps i).monitor.core.returns = true

/-- Of the first steps of a board none but the very first calls with this return address. -/
def CallsOnce (b : Board) (n : Nat) (address : UInt16) : Prop :=
  ∀ i < n, 0 < i → (b.afterSteps i).monitor.core.called? ≠ some address

variable {b d : Board} {n : Nat} {address : UInt16}

theorem afterSteps_succ_s (b : Board) (n : Nat) :
    (b.afterSteps (n + 1)).cpu.regs.s = (b.afterSteps n).monitor.core.step.2.regs.s :=
  congrArg (fun cpu : Cpu => cpu.regs.s) (b.afterSteps n).step_core.2

theorem callCount_succ : b.callCount (n + 1) =
    b.callCount n + (b.afterSteps n).monitor.core.called?.isSome.toNat := by
  unfold callCount
  rw [List.range_succ, List.countP_append, List.countP_singleton]
  cases (b.afterSteps n).monitor.core.called?.isSome <;> rfl

theorem returnCount_succ : b.returnCount (n + 1) =
    b.returnCount n + (b.afterSteps n).monitor.core.returns.toNat := by
  unfold returnCount
  rw [List.range_succ, List.countP_append, List.countP_singleton]
  cases (b.afterSteps n).monitor.core.returns <;> rfl

/-- S has moved down by two for each call and up by two for each return. -/
theorem afterSteps_s_add_calls (moves : b.MovesStackByCalls n) :
    (b.afterSteps n).cpu.regs.s + .ofNat (2 * b.callCount n) =
      b.cpu.regs.s + .ofNat (2 * b.returnCount n) := by
  induction n with
  | zero => rfl
  | succ n ih =>
      have step := Core.step_s_add_calls (moves n n.lt_succ_self)
      have before := ih fun i below => moves i (Nat.lt_succ_of_lt below)
      change (b.afterSteps n).monitor.core.regs.s + _ = _ at before
      rw [afterSteps_succ_s, callCount_succ, returnCount_succ]
      simp only [Nat.mul_add, UInt16.ofNat_add]
      grind

/-- S is two below where it was for each call that has not returned. -/
theorem afterSteps_s_add_open (moves : b.MovesStackByCalls n) (ordered : b.ReturnsInOrder n) :
    (b.afterSteps n).cpu.regs.s + .ofNat (2 * (b.openCalls n).length) = b.cpu.regs.s := by
  induction n with
  | zero => exact UInt16.add_zero b.cpu.regs.s
  | succ n ih =>
      have before := ih (fun i below => moves i (Nat.lt_succ_of_lt below))
        fun i below => ordered i (Nat.lt_succ_of_lt below)
      rw [afterSteps_succ_s]
      refine (Core.step_s_add_open (moves n n.lt_succ_self) ?_).trans before
      intro returns none_open
      have latest := ordered n n.lt_succ_self returns
      rw [none_open] at latest
      cases latest

theorem CallsOnce.before (once : b.CallsOnce (n + 1) address) : b.CallsOnce n address :=
  fun i below => once i (Nat.lt_succ_of_lt below)

/-- Where no later call has the return address of the first step's, only the bottommost of the calls
that have not returned can have it. -/
theorem not_mem_dropLast_openCalls (once : b.CallsOnce n address) :
    address ∉ (b.openCalls n).dropLast := by
  induction n with
  | zero => exact List.not_mem_nil
  | succ n ih =>
      have before := ih once.before
      unfold openCalls Core.callsAfter
      cases called : (b.afterSteps n).monitor.core.called? with
      | some other =>
          -- A call goes on top of the others, and does not have the address in question.
          cases n with
          | zero => exact List.not_mem_nil
          | succ n =>
              have fresh : other ≠ address := by
                rintro rfl
                exact once (n + 1) (n + 1).lt_succ_self n.succ_pos called
              cases calls : b.openCalls (n + 1) with
              | nil => exact List.not_mem_nil
              | cons latest rest =>
                  rw [calls] at before
                  exact List.not_mem_cons_of_ne_of_not_mem fresh.symm before
      | none =>
          dsimp only
          split
          · rw [← List.tail_dropLast]
            exact fun inside => before (List.mem_of_mem_tail inside)
          · exact before

/-- What has not returned was called. -/
theorem exists_called_of_mem (listed : address ∈ b.openCalls n) :
    ∃ i < n, (b.afterSteps i).monitor.core.called? = some address := by
  induction n with
  | zero => cases listed
  | succ n ih =>
      have earlier (inside : address ∈ b.openCalls n) :
          ∃ i < n + 1, (b.afterSteps i).monitor.core.called? = some address := by
        obtain ⟨i, below, called⟩ := ih inside
        exact ⟨i, Nat.lt_succ_of_lt below, called⟩
      unfold openCalls Core.callsAfter at listed
      cases called : (b.afterSteps n).monitor.core.called? with
      | some other =>
          rw [called] at listed
          rcases List.mem_cons.mp listed with rfl | inside
          · exact ⟨n, n.lt_succ_self, called⟩
          · exact earlier inside
      | none =>
          rw [called] at listed
          dsimp only at listed
          split at listed
          · exact earlier (List.mem_of_mem_tail listed)
          · exact earlier listed

/-- So a return to it is the return of the first step's call. -/
theorem openCalls_of_returned (ordered : b.ReturnsInOrder n) (ended : b.EndsByReturn n)
    (once : b.CallsOnce n (b.afterSteps n).pc) :
    b.monitor.core.called? = some (b.afterSteps n).pc ∧ b.openCalls n = [] := by
  obtain ⟨i, rfl, returns⟩ := ended
  obtain ⟨rest, calls⟩ := List.head?_eq_some_iff.mp (ordered i i.lt_succ_self returns)
  have inner := not_mem_dropLast_openCalls once.before
  have uncalled : (b.afterSteps i).monitor.core.called? = none := by
    cases called : (b.afterSteps i).monitor.core.called? with
    | none => rfl
    | some other => cases (Core.returns_of_called called).symm.trans returns
  refine ⟨?_, ?_⟩
  · obtain ⟨j, below, called⟩ := exists_called_of_mem (calls ▸ List.mem_cons_self)
    cases j with
    | zero => exact called
    | succ j => exact absurd called (once (j + 1) (Nat.lt_succ_of_lt below) j.succ_pos)
  · rw [calls] at inner
    unfold openCalls Core.callsAfter
    rw [uncalled, if_pos returns, calls]
    cases rest with
    | nil => rfl
    | cons next rest => exact absurd List.mem_cons_self inner

/-- Twice as many bytes are the same word exactly for the same number modulo the half of all words. -/
theorem ofNat_two_mul_inj {m n : Nat} :
    UInt16.ofNat (2 * m) = UInt16.ofNat (2 * n) ↔ m % 0x8000 = n % 0x8000 := by
  rw [← UInt16.toNat_inj, UInt16.toNat_ofNat', UInt16.toNat_ofNat']
  omega

/-- A step over a call that ends behind it leaves the processor as that many steps do. -/
theorem stepOver?_ended {limit : Option Nat} {breakpoints : List UInt16} {outcome : RunOutcome}
    (ran : b.stepOver? limit breakpoints = some (outcome, d))
    (reached : outcome.reason = .breakpoint address) :
    d.cpu = (b.afterSteps outcome.steps).cpu ∧ (b.afterSteps outcome.steps).pc = address := by
  have told : Alike (b.setMonitor (b.monitor.addComplaints [b.monitor.disassemble b.pc])) b :=
    ⟨⟨b.monitor.addComplaints_sameState _, rfl, rfl⟩, rfl⟩
  obtain ⟨ended, left⟩ := (returns_of_run? ran).endsFirst
  have ends := ended.ends.alike (told.afterSteps outcome.steps)
  rw [reached] at ends left
  exact ⟨left.same.core.cpu.trans (told.afterSteps outcome.steps).same.core.cpu, ends.2.2.1⟩

/-- After a step over a call that ended with a return behind it, and in which only calls and returns
moved S: S is where it was exactly if there were as many returns as calls, the stepped one among them.
If besides each return went behind the latest call that had not returned, S is short by two for each
call that is open; and unless a later call has the same return address, it is the call of the first
step that has returned and none is open. -/
theorem stepOver?_depth (b d : Board) (limit : Option Nat) (breakpoints : List UInt16)
    (outcome : RunOutcome) (ran : b.stepOver? limit breakpoints = some (outcome, d))
    (reached : outcome.reason = .breakpoint (b.monitor.disassemble b.pc).next)
    (moves : b.MovesStackByCalls outcome.steps) (ended : b.EndsByReturn outcome.steps) :
    (d.cpu.regs.s = b.cpu.regs.s ↔
      b.callCount outcome.steps % 0x8000 = b.returnCount outcome.steps % 0x8000) ∧
    (b.ReturnsInOrder outcome.steps →
      d.cpu.regs.s + .ofNat (2 * (b.openCalls outcome.steps).length) = b.cpu.regs.s ∧
      (b.CallsOnce outcome.steps (b.monitor.disassemble b.pc).next →
        b.monitor.core.called? = some (b.monitor.disassemble b.pc).next ∧
          b.openCalls outcome.steps = [] ∧ d.cpu.regs.s = b.cpu.regs.s)) := by
  obtain ⟨cpu, here⟩ := stepOver?_ended ran reached
  rw [cpu, ← here]
  refine ⟨?_, ?_⟩
  · have counted := afterSteps_s_add_calls moves
    rw [← ofNat_two_mul_inj]
    constructor
    · intro restored
      rw [restored] at counted
      exact (UInt16.add_right_inj _).mp counted
    · intro balanced
      rw [balanced] at counted
      exact (UInt16.add_left_inj _).mp counted
  · intro ordered
    have depth := afterSteps_s_add_open moves ordered
    refine ⟨depth, ?_⟩
    intro once
    obtain ⟨called, none_open⟩ := openCalls_of_returned ordered ended once
    rw [none_open] at depth
    exact ⟨called, none_open, (UInt16.add_zero _).symm.trans depth⟩

/-- BSR over NOP to RTS. -/
def plainCall : Board := RunControl.staged [0x8D, 0x01, 0x12, 0x39] .clear

theorem plainCall_returns : ∃ d, plainCall.stepOver? (some 4) [] =
    some (⟨.breakpoint 0x2002, 2, 0⟩, d) ∧ d.cpu.regs.s = 0x1000 := by
  have ran : (plainCall.stepOver? (some 4) []).map Prod.fst =
      some ⟨.breakpoint 0x2002, 2, 0⟩ := by
    have limited : (plainCall.stepOverControl (some 4) []).limit = some 4 := by rfl
    rw [stepOver?, run?_of_limit _ limited]
    decide +kernel
  obtain ⟨⟨outcome, d⟩, returned, rfl⟩ := Option.map_eq_some_iff.mp ran
  have moves : plainCall.MovesStackByCalls 2 := by
    unfold MovesStackByCalls
    decide +kernel
  have ordered : plainCall.ReturnsInOrder 2 := by
    unfold ReturnsInOrder
    decide +kernel
  have once : plainCall.CallsOnce 2 (plainCall.monitor.disassemble plainCall.pc).next := by
    unfold CallsOnce
    decide +kernel
  have depth := stepOver?_depth _ d (some 4) [] _ returned rfl moves ⟨1, rfl, by rfl⟩
  exact ⟨d, returned, ((depth.2 ordered).2 once).2.2⟩

/-- BSR over RTS to COMB; the first time BNE goes back to BSR from there, the second time RTS follows. -/
def recursiveCall : Board :=
  RunControl.staged [0x8D, 0x01, 0x39, 0x53, 0x26, 0xFA, 0x39] .clear

/-- The deeper call returns first, and then the run has stopped. -/
theorem recursiveCall_stops_deeper : ¬ ∀ (b d : Board) (limit : Option Nat) (outcome : RunOutcome),
    b.cpu.isWaiting = false → (b.monitor.disassemble b.pc).instruction.isCall = true →
    b.stepOver? limit [] = some (outcome, d) →
    outcome.reason = .breakpoint (b.monitor.disassemble b.pc).next →
    b.MovesStackByCalls outcome.steps → b.EndsByReturn outcome.steps →
    d.cpu.regs.s = b.cpu.regs.s := by
  intro holds
  have ran : (recursiveCall.stepOver? (some 9) []).map (fun r => (r.1, r.2.cpu.regs.s)) =
      some (⟨.breakpoint 0x2002, 7, 0⟩, 0x0FFE) := by
    have limited : (recursiveCall.stepOverControl (some 9) []).limit = some 9 := by rfl
    rw [stepOver?, run?_of_limit _ limited]
    decide +kernel
  obtain ⟨⟨outcome, d⟩, returned, ended⟩ := Option.map_eq_some_iff.mp ran
  obtain ⟨rfl, short⟩ := Prod.mk.inj ended
  have moves : recursiveCall.MovesStackByCalls 7 := by
    unfold MovesStackByCalls
    decide +kernel
  have restored := holds _ d (some 9) _ rfl (by rfl) returned rfl moves
    ⟨6, rfl, by decide +kernel⟩
  rw [short] at restored
  cases restored

end Board
end Sim6809
