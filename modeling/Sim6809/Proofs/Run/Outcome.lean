import Mathlib.Data.Nat.Basic
import Sim6809.Proofs.Board.Replay
import Sim6809.Proofs.Processor.Account
import Sim6809.Proofs.Run.Fuel

/-!
The outcome of a run. A run looks at each board that it comes to for a breakpoint, its limit, a request
to stop and a fault, in this order, and ends at the first board with such a reason. It asks whether to
stop at the positive multiples of its interval, once at each that it comes to.
-/
namespace Sim6809

/-- The place of a reason in the order in which a run looks for them. -/
def StopReason.rank : StopReason → Nat
  | breakpoint _ => 0
  | limit => 1
  | requested => 2
  | fault _ => 3

theorem StopReason.rank_le_fault (reason : StopReason) (fault : Fault) :
    reason.rank ≤ (StopReason.fault fault).rank := by
  cases reason with
  | fault other => exact Nat.le_refl 3
  | _ => simp [rank]

namespace RunControl

/-- There is a reason to end a run that has come to a board by a number of steps. -/
def Ends (control : RunControl) (steps : Nat) (b : Board) : StopReason → Prop
  | .breakpoint address =>
    0 < steps ∧ b.cpu.wait = .running ∧ b.pc = address ∧ address ∈ control.breakpoints
  | .limit => ∃ limit, control.limit = some limit ∧ limit ≤ steps
  | .requested => 0 < steps ∧ interval ∣ steps ∧ control.stop (steps / interval) = true
  | .fault fault => b.step.1 = .error fault

/-- No reason came up before a number of steps. -/
def Quiet (control : RunControl) (b : Board) (steps : Nat) : Prop :=
  ∀ i, i < steps → ∀ reason, ¬ control.Ends i (b.afterSteps i) reason

/-- The first reason to end a run, by the steps before it and then by its place in the order. -/
structure EndsFirst (control : RunControl) (b : Board) (steps : Nat) (reason : StopReason) :
    Prop where
  ends : control.Ends steps (b.afterSteps steps) reason
  first : ∀ other, control.Ends steps (b.afterSteps steps) other → reason.rank ≤ other.rank
  quiet : control.Quiet b steps

/-- A run that has come to a board by a number of steps and has not ended with the last of them. -/
structure Going (control : RunControl) (b : Board) (steps : Nat) : Prop where
  quiet : control.Quiet b steps
  unbroken : ∀ address, ¬ control.Ends steps (b.afterSteps steps) (.breakpoint address)

/-- The numbers of steps, below a given one, at which a run asks whether to stop. -/
def questionsBefore (steps : Nat) : List Nat := (List.range steps).filter asksAt

end RunControl

/-- The numbers of steps at which a run that ended so asked whether to stop. -/
def RunOutcome.questions (outcome : RunOutcome) : List Nat :=
  if outcome.reason.rank < StopReason.requested.rank then
    RunControl.questionsBefore outcome.steps
  else RunControl.questionsBefore (outcome.steps + 1)

namespace Board

/-- The board as a run leaves it that ended there: a fault leaves what the failing step left. -/
def left (b : Board) : StopReason → Board
  | .fault fault => b.step.2.setMonitor (b.step.2.monitor.addRecord .warn
      ("fault at $" ++ Hex.word b.step.2.pc ++ ": " ++ fault.message))
  | _ => b

/-- The loop of a run, with the numbers of steps at which it asked in place of their count. -/
def notedRun (control : RunControl) : Nat → Nat → List Nat → Board →
    Option (RunOutcome × Board × List Nat)
  | 0, _, _, _ => none
  | fuel + 1, steps, questions, b =>
    if control.limitReached steps then some (⟨.limit, steps, questions.length⟩, b, questions)
    else
      let asks := RunControl.asksAt steps
      let questions := if asks then questions ++ [steps] else questions
      if asks && control.stop questions.length then
        some (⟨.requested, steps, questions.length⟩, b, questions)
      else
        match b.step with
        | (.error fault, b) =>
          let text := "fault at $" ++ Hex.word b.pc ++ ": " ++ fault.message
          some (⟨.fault fault, steps, questions.length⟩,
            b.setMonitor (b.monitor.addRecord .warn text), questions)
        | (.ok _, b) =>
          if control.breaksAt b then
            some (⟨.breakpoint b.pc, steps + 1, questions.length⟩, b, questions)
          else notedRun control fuel (steps + 1) questions b

/-- To note the questions down is no part of a run. -/
theorem notedRun_outcome (control : RunControl) (fuel steps : Nat) (questions : List Nat)
    (b : Board) : (notedRun control fuel steps questions b).map (fun r => (r.1, r.2.1)) =
      continueRun control fuel steps questions.length b := by
  induction fuel generalizing steps questions b with
  | zero => rfl
  | succ fuel ih =>
      have count : questions.length + (RunControl.asksAt steps).toNat =
          (if RunControl.asksAt steps then questions ++ [steps] else questions).length := by
        cases RunControl.asksAt steps with
        | true =>
            rw [if_pos rfl, List.length_append]
            rfl
        | false => rfl
      unfold notedRun continueRun round
      dsimp only
      rw [count]
      -- The runs agree on when they ask; what follows is the same in both.
      generalize (if RunControl.asksAt steps then questions ++ [steps] else questions) = asked
      split
      · rfl
      · split
        · rfl
        · rcases b.step with ⟨answer, next⟩
          cases answer with
          | error fault => rfl
          | ok op =>
              dsimp only
              split
              · rfl
              · exact ih _ _ _

end Board

namespace RunControl

/-! ### What the loop looks at -/

variable (control : RunControl) (b : Board) (steps : Nat)

theorem limitReached_iff : control.limitReached steps = true ↔ control.Ends steps b .limit := by
  unfold limitReached Ends
  cases control.limit with
  | none => simp
  | some limit => simp

theorem asksAt_iff : asksAt steps = true ↔ 0 < steps ∧ interval ∣ steps := by
  unfold asksAt
  simp [Nat.pos_iff_ne_zero, Nat.dvd_iff_mod_eq_zero]

theorem breaksAt_iff : control.breaksAt b = true ↔
    b.cpu.wait = .running ∧ b.pc ∈ control.breakpoints := by
  unfold breaksAt Cpu.isWaiting
  simp

theorem questionsBefore_succ : questionsBefore (steps + 1) =
    if asksAt steps then questionsBefore steps ++ [steps] else questionsBefore steps := by
  unfold questionsBefore
  rw [List.range_succ, List.filter_append]
  cases asked : asksAt steps with
  | true => simp [asked]
  | false => simp [asked]

theorem length_questionsBefore : (questionsBefore (steps + 1)).length = steps / interval := by
  induction steps with
  | zero => rfl
  | succ steps ih =>
      rw [questionsBefore_succ, Nat.succ_div, ← ih]
      by_cases asked : interval ∣ steps + 1
      · rw [if_pos ((asksAt_iff _).mpr ⟨steps.succ_pos, asked⟩), if_pos asked]
        exact List.length_append
      · rw [if_neg fun asks => asked ((asksAt_iff _).mp asks).2, if_neg asked]
        rfl

theorem mem_questionsBefore {i : Nat} :
    i ∈ questionsBefore steps ↔ i < steps ∧ 0 < i ∧ interval ∣ i := by
  unfold questionsBefore
  rw [List.mem_filter, List.mem_range, asksAt_iff]

theorem requested_iff :
    (asksAt steps && control.stop (questionsBefore (steps + 1)).length) = true ↔
      control.Ends steps b .requested := by
  rw [Bool.and_eq_true, asksAt_iff, length_questionsBefore, and_assoc]
  rfl

/-! ### The first reason -/

variable {control : RunControl} {b : Board} {steps : Nat}

/-- At one board there are no two reasons of one rank. -/
theorem Ends.unique {reason other : StopReason} (h : control.Ends steps b reason)
    (k : control.Ends steps b other) (rank : reason.rank = other.rank) : reason = other := by
  cases reason with
  | breakpoint address =>
      cases other with
      | breakpoint address' => exact congrArg _ (h.2.2.1.symm.trans k.2.2.1)
      | _ => cases rank
  | limit =>
      cases other with
      | limit => rfl
      | _ => cases rank
  | requested =>
      cases other with
      | requested => rfl
      | _ => cases rank
  | fault fault =>
      cases other with
      | fault fault' => exact congrArg _ (Except.error.inj (h.symm.trans k))
      | _ => cases rank

theorem EndsFirst.unique {steps' : Nat} {reason reason' : StopReason}
    (h : control.EndsFirst b steps reason) (k : control.EndsFirst b steps' reason') :
    steps = steps' ∧ reason = reason' := by
  have same : steps = steps' := by
    rcases Nat.lt_trichotomy steps steps' with earlier | same | later
    · exact absurd h.ends (k.quiet steps earlier reason)
    · exact same
    · exact absurd k.ends (h.quiet steps' later reason')
  subst same
  have rank := Nat.le_antisymm (h.first reason' k.ends) (k.first reason h.ends)
  exact ⟨rfl, h.ends.unique k.ends rank⟩

theorem going_zero (control : RunControl) (b : Board) : control.Going b 0 where
  quiet i below := absurd below i.not_lt_zero
  unbroken _ ends := absurd ends.1 (Nat.lt_irrefl 0)

/-- Whether there is a reason is told by the processor and by the answer of the next step. -/
theorem Ends.of_same {d : Board} {reason : StopReason} (ends : control.Ends steps b reason)
    (cpu : b.cpu = d.cpu) (answer : b.step.1 = d.step.1) : control.Ends steps d reason := by
  cases reason with
  | breakpoint address =>
      obtain ⟨later, running, target, listed⟩ := ends
      have pc : b.pc = d.pc := congrArg (fun cpu : Cpu => cpu.regs.pc) cpu
      exact ⟨later, cpu ▸ running, pc.symm.trans target, listed⟩
  | limit => exact ends
  | requested => exact ends
  | fault fault => exact answer.symm.trans ends

/-- A run ends as another one does whose processor and answers are the same until then. -/
theorem EndsFirst.of_same {d : Board} {reason : StopReason} (h : control.EndsFirst b steps reason)
    (cpu : ∀ i ≤ steps, (b.afterSteps i).cpu = (d.afterSteps i).cpu)
    (answer : ∀ i ≤ steps, (b.afterSteps i).step.1 = (d.afterSteps i).step.1) :
    control.EndsFirst d steps reason := by
  have back {i : Nat} (reached : i ≤ steps) {why : StopReason}
      (ends : control.Ends i (d.afterSteps i) why) : control.Ends i (b.afterSteps i) why :=
    ends.of_same (cpu i reached).symm (answer i reached).symm
  refine ⟨h.ends.of_same (cpu _ (Nat.le_refl _)) (answer _ (Nat.le_refl _)), ?_, ?_⟩
  · intro other ends
    exact h.first other (back (Nat.le_refl _) ends)
  · intro i below why ends
    exact h.quiet i below why (back (Nat.le_of_lt below) ends)

/-- A run that goes on ends for a reason that no limit and no request precedes. -/
theorem Going.endsFirst (h : control.Going b steps) {reason : StopReason}
    (ends : control.Ends steps (b.afterSteps steps) reason)
    (limit : control.Ends steps (b.afterSteps steps) .limit →
      reason.rank ≤ StopReason.limit.rank)
    (requested : control.Ends steps (b.afterSteps steps) .requested →
      reason.rank ≤ StopReason.requested.rank) : control.EndsFirst b steps reason := by
  refine ⟨ends, ?_, h.quiet⟩
  intro other ends
  cases other with
  | breakpoint address => exact absurd ends (h.unbroken address)
  | limit => exact limit ends
  | requested => exact requested ends
  | fault fault => exact reason.rank_le_fault fault

/-- A run that looks for every reason in vain has come one step further. -/
theorem Going.quiet_succ (h : control.Going b steps)
    (unlimited : ¬ control.Ends steps (b.afterSteps steps) .limit)
    (unrequested : ¬ control.Ends steps (b.afterSteps steps) .requested)
    {op : Option Operation} (succeeded : (b.afterSteps steps).step.1 = .ok op) :
    control.Quiet b (steps + 1) := by
  intro i below reason ends
  rcases Nat.lt_succ_iff_lt_or_eq.mp below with earlier | rfl
  · exact h.quiet i earlier reason ends
  · cases reason with
    | breakpoint address => exact h.unbroken address ends
    | limit => exact unlimited ends
    | requested => exact unrequested ends
    | fault fault => cases succeeded.symm.trans ends

/-- Without a limit and a request only a fault ends the run before its next step. -/
theorem Going.step_or_fault (h : control.Going b steps)
    (unlimited : ¬ control.Ends steps (b.afterSteps steps) .limit)
    (unrequested : ¬ control.Ends steps (b.afterSteps steps) .requested) :
    (∃ fault, (b.afterSteps steps).step.1 = .error fault ∧
      control.EndsFirst b steps (.fault fault)) ∨
    (∃ op, (b.afterSteps steps).step.1 = .ok op ∧ control.Quiet b (steps + 1)) := by
  cases answer : (b.afterSteps steps).step.1 with
  | error fault =>
      have first : control.EndsFirst b steps (.fault fault) :=
        h.endsFirst answer (fun ends => absurd ends unlimited) fun ends => absurd ends unrequested
      exact .inl ⟨fault, rfl, first⟩
  | ok op => exact .inr ⟨op, rfl, h.quiet_succ unlimited unrequested answer⟩

/-- A board at a breakpoint ends the run, unless it is the first board or its processor waits. -/
theorem endsFirst_breakpoint (quiet : control.Quiet b steps) (later : 0 < steps)
    (breaks : control.breaksAt (b.afterSteps steps) = true) :
    control.EndsFirst b steps (.breakpoint (b.afterSteps steps).pc) := by
  obtain ⟨running, listed⟩ := (control.breaksAt_iff _).mp breaks
  exact ⟨⟨later, running, rfl, listed⟩, fun _ _ => Nat.zero_le _, quiet⟩

theorem going_succ (quiet : control.Quiet b (steps + 1))
    (unbroken : ¬ control.breaksAt (b.afterSteps (steps + 1)) = true) :
    control.Going b (steps + 1) := by
  refine ⟨quiet, ?_⟩
  rintro address ⟨_, running, rfl, listed⟩
  exact unbroken ((control.breaksAt_iff _).mpr ⟨running, listed⟩)

end RunControl

namespace Board

/-! ### The loop -/

variable {control : RunControl} {b d : Board}

/-- What the loop tells of a run that began with a board: where it ended and where it asked, or that
it has gone on for a number of steps. -/
def Told (control : RunControl) (b : Board) (steps : Nat) :
    Option (RunOutcome × Board × List Nat) → Prop
  | none => control.Going b steps
  | some (outcome, d, questions) =>
    control.EndsFirst b outcome.steps outcome.reason ∧
      d = (b.afterSteps outcome.steps).left outcome.reason ∧
      questions = outcome.questions ∧ outcome.asked = questions.length

theorem notedRun_told (fuel : Nat) {steps : Nat} (going : control.Going b steps) :
    Told control b (steps + fuel) (notedRun control fuel steps
      (RunControl.questionsBefore steps) (b.afterSteps steps)) := by
  -- By induction on the fuel: each round either finds the first reason or goes one step on.
  induction fuel generalizing steps with
  | zero => exact going
  | succ fuel ih =>
      unfold notedRun
      dsimp only
      rw [← RunControl.questionsBefore_succ]
      split
      · rename_i limit
        have limit := (control.limitReached_iff (b.afterSteps steps) steps).mp limit
        exact ⟨going.endsFirst limit (fun _ => Nat.le_refl _) fun _ => Nat.le_succ _,
          rfl, rfl, rfl⟩
      · rename_i unlimited
        have unlimited := mt (control.limitReached_iff (b.afterSteps steps) steps).mpr unlimited
        split
        · rename_i requested
          have requested := (control.requested_iff (b.afterSteps steps) steps).mp requested
          exact ⟨going.endsFirst requested (fun ends => absurd ends unlimited) fun _ =>
            Nat.le_refl _, rfl, rfl, rfl⟩
        · rename_i unrequested
          have unrequested := mt (control.requested_iff (b.afterSteps steps) steps).mpr unrequested
          rcases going.step_or_fault unlimited unrequested with
            ⟨fault, failed, ended⟩ | ⟨op, ok, quiet⟩
          · have stepped : (b.afterSteps steps).step = (.error fault, b.afterSteps (steps + 1)) :=
              Prod.ext failed rfl
            rw [stepped]
            exact ⟨ended, rfl, rfl, rfl⟩
          · have stepped : (b.afterSteps steps).step = (.ok op, b.afterSteps (steps + 1)) :=
              Prod.ext ok rfl
            rw [stepped]
            dsimp only
            split
            · rename_i breaks
              have ended := RunControl.endsFirst_breakpoint quiet steps.succ_pos breaks
              exact ⟨ended, rfl, rfl, rfl⟩
            · rename_i unbroken
              rw [← Nat.succ_add_eq_add_succ]
              exact ih (RunControl.going_succ quiet unbroken)

/-! ### The steps of a board -/

/-- A board steps its processor; its devices do not reach into it. -/
theorem step_core (b : Board) :
    b.step.1 = b.monitor.core.step.1.map (fun _ => b.monitor.upcoming?) ∧
      b.step.2.cpu = b.monitor.core.step.2.cpu := by
  obtain ⟨answer, core, _⟩ := b.monitor.step_core
  exact ⟨b.step_answer.trans answer,
    step_keeps (P := fun d => d.cpu = b.monitor.core.step.2.cpu) core.cpu fun _ _ same => same⟩

theorem step_executed (b : Board) : b.step.2.cpu.executed =
    match b.step.1 with
    | .ok _ => b.cpu.executed + 1
    | .error _ => b.cpu.executed := by
  obtain ⟨answer, cpu⟩ := b.step_core
  have counted := b.monitor.core.step_counted
  rw [answer, cpu]
  revert counted
  rcases b.monitor.core.step with ⟨result, c⟩
  intro counted
  cases result with
  | error fault => exact counted.2
  | ok cycles => exact counted.2

theorem succeeds_of_quiet {steps : Nat} (quiet : control.Quiet b steps) {i : Nat}
    (below : i < steps) : ∃ op, (b.afterSteps i).step.1 = .ok op := by
  cases answer : (b.afterSteps i).step.1 with
  | ok op => exact ⟨op, rfl⟩
  | error fault => exact absurd answer (quiet i below (.fault fault))

theorem afterSteps_executed {steps : Nat} (quiet : control.Quiet b steps) :
    (b.afterSteps steps).cpu.executed = b.cpu.executed + steps := by
  induction steps with
  | zero => rfl
  | succ steps ih =>
      obtain ⟨op, succeeded⟩ := succeeds_of_quiet quiet steps.lt_succ_self
      have counted := (b.afterSteps steps).step_executed
      rw [succeeded] at counted
      have before := ih fun i below => quiet i (Nat.lt_succ_of_lt below)
      exact counted.trans (congrArg (· + 1) before)

/-- Only successful steps are counted: a failing one leaves the count. -/
theorem left_executed {steps : Nat} {reason : StopReason}
    (ends : control.Ends steps b reason) : (b.left reason).cpu.executed = b.cpu.executed := by
  cases reason with
  | fault fault =>
      have failed : b.step.1 = .error fault := ends
      have counted := b.step_executed
      rw [failed] at counted
      exact counted
  | _ => rfl

/-! ### Finished runs -/

/-- The run ends with the outcome and the board if it is given enough fuel. -/
def Returns (b : Board) (control : RunControl) (outcome : RunOutcome) (d : Board) : Prop :=
  ∃ fuel, runWithin fuel control b = some (outcome, d)

/-- A run with the numbers of steps at which it asked whether to stop. -/
def notedWithin (fuel : Nat) (control : RunControl) (b : Board) :
    Option (RunOutcome × Board × List Nat) :=
  (notedRun control fuel 0 [] b).map fun (outcome, b, questions) =>
    (outcome, b.logOutcome outcome, questions)

theorem notedWithin_outcome (fuel : Nat) (control : RunControl) (b : Board) :
    (notedWithin fuel control b).map (fun r => (r.1, r.2.1)) = runWithin fuel control b := by
  have loop : (notedRun control fuel 0 [] b).map (fun r => (r.1, r.2.1)) =
      continueRun control fuel 0 0 b := notedRun_outcome control fuel 0 [] b
  unfold notedWithin runWithin
  rw [← loop, Option.map_map, Option.map_map]
  rfl

/-- What is true of a run that has ended. -/
structure Finished (control : RunControl) (b : Board) (outcome : RunOutcome) (d : Board)
    (questions : List Nat) : Prop where
  endsFirst : control.EndsFirst b outcome.steps outcome.reason
  succeeded : ∀ i, i < outcome.steps → ∃ op, (b.afterSteps i).step.1 = .ok op
  board : d = ((b.afterSteps outcome.steps).left outcome.reason).logOutcome outcome
  executed : d.cpu.executed = b.cpu.executed + outcome.steps
  asked : outcome.asked = questions.length
  inOrder : questions.Pairwise (· < ·)
  mem_questions : ∀ i, i ∈ questions ↔
    0 < i ∧ RunControl.interval ∣ i ∧ i ≤ outcome.steps ∧
      ∀ reason, control.Ends i (b.afterSteps i) reason → StopReason.requested.rank ≤ reason.rank

theorem questionsBefore_inOrder (steps : Nat) :
    (RunControl.questionsBefore steps).Pairwise (· < ·) :=
  List.Pairwise.filter _ List.pairwise_lt_range

theorem mem_questions_iff {outcome : RunOutcome}
    (endsFirst : control.EndsFirst b outcome.steps outcome.reason) (i : Nat) :
    i ∈ outcome.questions ↔ 0 < i ∧ RunControl.interval ∣ i ∧ i ≤ outcome.steps ∧
      ∀ reason, control.Ends i (b.afterSteps i) reason →
        StopReason.requested.rank ≤ reason.rank := by
  -- No reason came up at an earlier question, so only the last one is to be looked at.
  have earlier (below : i < outcome.steps) (reason : StopReason)
      (ends : control.Ends i (b.afterSteps i) reason) :
      StopReason.requested.rank ≤ reason.rank := absurd ends (endsFirst.quiet i below reason)
  unfold RunOutcome.questions
  split
  · rename_i preempted
    rw [RunControl.mem_questionsBefore]
    constructor
    · rintro ⟨below, positive, multiple⟩
      exact ⟨positive, multiple, Nat.le_of_lt below, earlier below⟩
    · rintro ⟨positive, multiple, reached, unpreempted⟩
      refine ⟨Nat.lt_of_le_of_ne reached ?_, positive, multiple⟩
      rintro rfl
      exact absurd (unpreempted _ endsFirst.ends) (Nat.not_le.mpr preempted)
  · rename_i unpreempted
    rw [RunControl.mem_questionsBefore]
    constructor
    · rintro ⟨reached, positive, multiple⟩
      refine ⟨positive, multiple, Nat.lt_succ_iff.mp reached, ?_⟩
      rcases Nat.lt_succ_iff_lt_or_eq.mp reached with below | rfl
      · exact earlier below
      · intro reason ends
        exact Nat.le_trans (Nat.not_lt.mp unpreempted) (endsFirst.first reason ends)
    · rintro ⟨positive, multiple, reached, _⟩
      exact ⟨Nat.lt_succ_iff.mpr reached, positive, multiple⟩

theorem finished_of_told {outcome : RunOutcome} {questions : List Nat}
    (told : Told control b steps (some (outcome, d, questions))) :
    Finished control b outcome (d.logOutcome outcome) questions := by
  obtain ⟨endsFirst, rfl, rfl, asked⟩ := told
  refine ⟨endsFirst, fun i below => succeeds_of_quiet endsFirst.quiet below, rfl, ?_, asked, ?_,
    mem_questions_iff endsFirst⟩
  · exact (left_executed endsFirst.ends).trans (afterSteps_executed endsFirst.quiet)
  · unfold RunOutcome.questions
    split
    · exact questionsBefore_inOrder _
    · exact questionsBefore_inOrder _

/-- A run that returns has ended for the first reason. -/
theorem finished_of_ran {fuel : Nat} {outcome : RunOutcome}
    (ran : runWithin fuel control b = some (outcome, d)) : ∃ questions,
      notedWithin fuel control b = some (outcome, d, questions) ∧
        Finished control b outcome d questions := by
  have told := notedRun_told fuel (RunControl.going_zero control b)
  rw [← notedWithin_outcome] at ran
  obtain ⟨⟨ended, e, questions⟩, noted, same⟩ := Option.map_eq_some_iff.mp ran
  obtain ⟨rfl, rfl⟩ := Prod.mk.inj same
  refine ⟨questions, noted, ?_⟩
  obtain ⟨⟨last, f, asked⟩, loop, same⟩ := Option.map_eq_some_iff.mp noted
  obtain ⟨rfl, rfl, rfl⟩ : last = ended ∧ f.logOutcome last = e ∧ asked = questions := by
    cases same
    exact ⟨rfl, rfl, rfl⟩
  have loop : notedRun control fuel 0 (RunControl.questionsBefore 0) (b.afterSteps 0) = _ := loop
  rw [loop] at told
  exact finished_of_told told

/-- A run for which a reason ever comes up returns. -/
theorem returns_of_ends {steps : Nat} {reason : StopReason}
    (ends : control.Ends steps (b.afterSteps steps) reason) :
    ∃ outcome d, b.Returns control outcome d := by
  cases ran : runWithin (steps + 1) control b with
  | some result => exact ⟨result.1, result.2, steps + 1, ran⟩
  | none =>
      have told := notedRun_told (steps + 1) (RunControl.going_zero control b)
      rw [← notedWithin_outcome, Option.map_eq_none_iff] at ran
      have loop : notedRun control (steps + 1) 0 (RunControl.questionsBefore 0) (b.afterSteps 0) =
          none := Option.map_eq_none_iff.mp ran
      rw [loop] at told
      exact absurd ends (told.quiet steps (by omega) reason)

/-- A run ends at the first board with a reason to end it, and for the first of its reasons there: its
steps are counted, the board is left as they left it, and its questions were put at the multiples of
the interval that it came to without a reason of lower rank. A run ends whenever a reason comes up, and
without fuel as it does with enough of it. -/
theorem runs_to_first_reason (control : RunControl) (b : Board) :
    (∀ fuel outcome d, runWithin fuel control b = some (outcome, d) →
      ∃ questions, notedWithin fuel control b = some (outcome, d, questions) ∧
        Finished control b outcome d questions) ∧
    ((∃ outcome d, b.Returns control outcome d) ↔
      ∃ steps reason, control.Ends steps (b.afterSteps steps) reason) ∧
    ∀ outcome d, b.run? control = some (outcome, d) ↔ b.Returns control outcome d := by
  refine ⟨fun fuel outcome d ran => finished_of_ran ran, ⟨?_, ?_⟩, fun _ _ => run?_eq_some_iff⟩
  · rintro ⟨outcome, d, fuel, ran⟩
    obtain ⟨questions, _, finished⟩ := finished_of_ran ran
    exact ⟨outcome.steps, outcome.reason, finished.endsFirst.ends⟩
  · rintro ⟨steps, reason, ends⟩
    exact returns_of_ends ends

/-- With breakpoints at both of its first two boards a run only stops at the second. -/
theorem runs_to_breakpoint_behind_first : ∃ outcome d,
    runWithin 5 (.unasked (some 1) [0x0000, 0x0002]) (.new 1000) = some (outcome, d) ∧
      outcome.reason = .breakpoint 0x0002 ∧ d.cpu.executed = 1 := by
  have ran : (runWithin 5 (.unasked (some 1) [0x0000, 0x0002]) (.new 1000)).map Prod.fst =
      some ⟨.breakpoint 0x0002, 1, 0⟩ := by rfl
  obtain ⟨⟨outcome, d⟩, returned, rfl⟩ := Option.map_eq_some_iff.mp ran
  obtain ⟨questions, _, finished⟩ := (runs_to_first_reason _ _).1 _ _ _ returned
  exact ⟨_, d, returned, rfl, finished.executed⟩

end Board
end Sim6809
