import Sim6809.Proofs.Run.Outcome

/-!
Stopping and resuming. A run that goes on from where another one was stopped, with what is left of its
limit, ends as the run would have ended that is not stopped: for the same reason, after the same
steps in all, and with an equal board.
-/
namespace Sim6809

namespace Board

/-- Equal boards, but for the log and the trace, whose timers both tick or both do not. -/
structure Alike (b d : Board) : Prop where
  same : SameState b d
  ticking : b.ticking = d.ticking

namespace Alike

variable {b d e : Board}

theorem symm (h : Alike b d) : Alike d b :=
  ⟨⟨h.same.core.symm, h.same.timer.symm, h.same.symbols.symm⟩, h.ticking.symm⟩

theorem trans (h : Alike b d) (k : Alike d e) : Alike b e :=
  ⟨⟨h.same.core.trans k.same.core, h.same.timer.trans k.same.timer,
    h.same.symbols.trans k.same.symbols⟩, h.ticking.trans k.ticking⟩

/-- What either log is told does not matter. -/
theorem addRecord (h : Alike b d) {level level' : Level} {text text' : String} :
    Alike (b.setMonitor (b.monitor.addRecord level text))
      (d.setMonitor (d.monitor.addRecord level' text')) :=
  ⟨⟨⟨h.same.core.cpu, h.same.core.bus.addRecord⟩, h.same.timer, h.same.symbols⟩, h.ticking⟩

theorem step (h : Alike b d) : b.step.1 = d.step.1 ∧ Alike b.step.2 d.step.2 := by
  obtain ⟨answer, same, ticking⟩ := step_alike h.same h.ticking
  exact ⟨answer, same, ticking⟩

theorem afterSteps (h : Alike b d) (n : Nat) : Alike (b.afterSteps n) (d.afterSteps n) := by
  obtain ⟨same, ticking⟩ := afterSteps_alike h.same h.ticking n
  exact ⟨same, ticking⟩

theorem left (h : Alike b d) (reason : StopReason) : Alike (b.left reason) (d.left reason) := by
  cases reason with
  | fault fault => exact h.step.2.addRecord
  | _ => exact h

end Alike

theorem logOutcome_alike (b : Board) (outcome : RunOutcome) : Alike (b.logOutcome outcome) b :=
  ⟨⟨⟨rfl, rfl, rfl, rfl, rfl, rfl, rfl, rfl⟩, rfl, rfl⟩, rfl⟩

end Board

namespace RunControl

variable {control : RunControl} {b d m : Board} {limit : Option Nat} {breakpoints : List UInt16}
variable {steps before : Nat} {reason : StopReason}

/-- Equal boards end runs for the same reasons. -/
theorem Ends.alike (ends : control.Ends steps b reason) (h : Board.Alike b d) :
    control.Ends steps d reason :=
  ends.of_same h.same.core.cpu h.step.1

/-- The run that goes on after some steps counts its own, and has that much less of the limit. Only
its first board is not looked at for breakpoints again. -/
theorem ends_add_iff (later : steps = 0 → ∀ address, reason ≠ .breakpoint address) :
    (unasked limit breakpoints).Ends (before + steps) b reason ↔
      (unasked (limit.map (· - before)) breakpoints).Ends steps b reason := by
  cases reason with
  | breakpoint address =>
      have positive : 0 < steps := Nat.pos_of_ne_zero fun first => later first address rfl
      constructor
      · rintro ⟨_, rest⟩
        exact ⟨positive, rest⟩
      · rintro ⟨_, rest⟩
        exact ⟨Nat.add_pos_right before positive, rest⟩
  | limit =>
      cases limit with
      | none => simp [Ends, unasked]
      | some limit => simp [Ends, unasked, Nat.add_comm]
  | requested => simp [Ends, unasked]
  | fault fault => exact Iff.rfl

/-! ### A run that goes on -/

section GoesOn

variable (going : (unasked limit breakpoints).Going b before)
  (alike : Board.Alike m (b.afterSteps before))
include going alike

theorem ends_resumed_iff : (unasked limit breakpoints).Ends (before + steps)
      (b.afterSteps (before + steps)) reason ↔
    (unasked (limit.map (· - before)) breakpoints).Ends steps (m.afterSteps steps) reason := by
  by_cases again : steps = 0 ∧ ∃ address, reason = .breakpoint address
  · obtain ⟨rfl, address, rfl⟩ := again
    constructor
    · intro ends
      exact absurd ends (going.unbroken address)
    · intro ends
      exact absurd ends.1 (Nat.lt_irrefl 0)
  · have later : steps = 0 → ∀ address, reason ≠ .breakpoint address :=
      fun first address same => again ⟨first, address, same⟩
    have here : Board.Alike (m.afterSteps steps) (b.afterSteps (before + steps)) := by
      rw [Board.afterSteps_add]
      exact alike.afterSteps steps
    rw [ends_add_iff later]
    exact ⟨fun ends => ends.alike here.symm, fun ends => ends.alike here⟩

theorem endsFirst_resumed_iff : (unasked limit breakpoints).EndsFirst b (before + steps) reason ↔
    (unasked (limit.map (· - before)) breakpoints).EndsFirst m steps reason := by
  have resumed {i : Nat} {other : StopReason} :
      (unasked limit breakpoints).Ends (before + i) (b.afterSteps (before + i)) other ↔
        (unasked (limit.map (· - before)) breakpoints).Ends i (m.afterSteps i) other :=
    ends_resumed_iff going alike
  constructor
  · intro h
    refine ⟨resumed.mp h.ends, fun other ends => h.first other (resumed.mpr ends), ?_⟩
    intro i below other ends
    exact h.quiet (before + i) (Nat.add_lt_add_left below before) other (resumed.mpr ends)
  · intro h
    refine ⟨resumed.mpr h.ends, fun other ends => h.first other (resumed.mp ends), ?_⟩
    intro i below other ends
    rcases Nat.lt_or_ge i before with earlier | later
    · exact going.quiet i earlier other ends
    · obtain ⟨j, rfl⟩ := Nat.exists_eq_add_of_le later
      exact h.quiet j (Nat.lt_of_add_lt_add_left below) other (resumed.mp ends)

omit alike

/-- The run that is not stopped ends no earlier than it has come. -/
theorem EndsFirst.later (h : (unasked limit breakpoints).EndsFirst b steps reason) :
    ∃ rest, steps = before + rest := by
  rcases Nat.lt_or_ge steps before with earlier | later
  · exact absurd h.ends (going.quiet steps earlier reason)
  · exact Nat.exists_eq_add_of_le later

end GoesOn

/-- Where a run ended by its limit or a request, any run goes on that has no reason of its own to end
before. -/
theorem EndsFirst.goesOn (h : control.EndsFirst b steps reason)
    (unbroken : 0 < reason.rank) {other : RunControl}
    (fewer : ∀ i x why, other.Ends i x why → control.Ends i x why) : other.Going b steps where
  quiet i below why ends := h.quiet i below why (fewer i _ why ends)
  unbroken _ ends :=
    absurd (h.first _ (fewer steps _ _ ends)) (Nat.not_le.mpr unbroken)

/-- A run never makes more steps than its limit. -/
theorem EndsFirst.steps_of_limit {n : Nat} (h : control.EndsFirst b steps .limit)
    (limited : control.limit = some n) : steps = n := by
  obtain ⟨limit, same, reached⟩ := h.ends
  obtain rfl : limit = n := Option.some.inj (same.symm.trans limited)
  rcases Nat.lt_or_eq_of_le reached with passed | met
  · exact absurd ⟨limit, limited, Nat.le_refl _⟩ (h.quiet limit passed .limit)
  · exact met.symm

end RunControl

namespace Board

variable {control : RunControl} {b d m : Board} {limit : Option Nat} {breakpoints : List UInt16}
variable {steps before : Nat} {reason : StopReason} {outcome : RunOutcome}

theorem Returns.endsFirst (h : b.Returns control outcome d) :
    control.EndsFirst b outcome.steps outcome.reason ∧
      Alike d ((b.afterSteps outcome.steps).left outcome.reason) := by
  obtain ⟨fuel, ran⟩ := h
  obtain ⟨questions, _, finished⟩ := finished_of_ran ran
  have left := logOutcome_alike ((b.afterSteps outcome.steps).left outcome.reason) outcome
  exact ⟨finished.endsFirst, finished.board ▸ left⟩

theorem returns_of_endsFirst (h : control.EndsFirst b steps reason) :
    ∃ outcome d, b.Returns control outcome d ∧ outcome.reason = reason ∧ outcome.steps = steps := by
  obtain ⟨outcome, d, returned⟩ := returns_of_ends h.ends
  obtain ⟨length, why⟩ := returned.endsFirst.1.unique h
  exact ⟨outcome, d, returned, why, length⟩

/-- Two finished runs that differ in nothing but the steps that the first had made when the second
began. -/
structure EndAlike (before : Nat) (whole : RunOutcome) (e : Board) (rest : RunOutcome) (d : Board) :
    Prop where
  reason : whole.reason = rest.reason
  steps : whole.steps = before + rest.steps
  board : Alike e d

/-- Whether a run goes on from where it has come or is begun anew there makes no difference. -/
theorem endAlike_of_going (going : (RunControl.unasked limit breakpoints).Going b before)
    (alike : Alike m (b.afterSteps before)) {whole rest : RunOutcome} {e : Board}
    (first : b.Returns (.unasked limit breakpoints) whole e)
    (second : m.Returns (.unasked (limit.map (· - before)) breakpoints) rest d) :
    EndAlike before whole e rest d := by
  obtain ⟨ended, left⟩ := first.endsFirst
  obtain ⟨ended', left'⟩ := second.endsFirst
  obtain ⟨length, why⟩ :=
    ended.unique ((RunControl.endsFirst_resumed_iff going alike).mpr ended')
  have here : Alike (b.afterSteps whole.steps) (m.afterSteps rest.steps) := by
    rw [length, afterSteps_add]
    exact (alike.afterSteps rest.steps).symm
  refine ⟨why, length, left.trans (.trans ?_ left'.symm)⟩
  rw [why]
  exact here.left rest.reason

theorem returns_resumed_iff (going : (RunControl.unasked limit breakpoints).Going b before)
    (alike : Alike m (b.afterSteps before)) :
    (∃ whole e, b.Returns (.unasked limit breakpoints) whole e) ↔
      ∃ rest d, m.Returns (.unasked (limit.map (· - before)) breakpoints) rest d := by
  constructor
  · rintro ⟨whole, e, returned⟩
    obtain ⟨ended, _⟩ := returned.endsFirst
    obtain ⟨steps, length⟩ := ended.later going
    rw [length, RunControl.endsFirst_resumed_iff going alike] at ended
    obtain ⟨rest, d, resumed, _⟩ := returns_of_endsFirst ended
    exact ⟨rest, d, resumed⟩
  · rintro ⟨rest, d, returned⟩
    obtain ⟨ended, _⟩ := returned.endsFirst
    rw [← RunControl.endsFirst_resumed_iff going alike] at ended
    obtain ⟨whole, e, resumed, _⟩ := returns_of_endsFirst ended
    exact ⟨whole, e, resumed⟩

/-- A run that is ended by requests, piece by piece, and goes on after each with what is left of its
limit. The pieces' steps are added up. -/
inductive InPieces (breakpoints : List UInt16) :
    Option Nat → Board → StopReason → Nat → Board → Prop
  | last {limit : Option Nat} {b d : Board} {outcome : RunOutcome} {stop : Nat → Bool} :
      b.Returns ⟨limit, breakpoints, stop⟩ outcome d → outcome.reason ≠ .requested →
      InPieces breakpoints limit b outcome.reason outcome.steps d
  | stopped {limit : Option Nat} {b m d : Board} {outcome : RunOutcome} {stop : Nat → Bool}
      {reason : StopReason} {steps : Nat} :
      b.Returns ⟨limit, breakpoints, stop⟩ outcome m → outcome.reason = .requested →
      InPieces breakpoints (limit.map (· - outcome.steps)) m reason steps d →
      InPieces breakpoints limit b reason (outcome.steps + steps) d

/-- A run without requests has no other reasons to end. -/
theorem ends_of_unasked {stop : Nat → Bool} (i : Nat) (x : Board) (why : StopReason)
    (ends : (RunControl.unasked limit breakpoints).Ends i x why) :
    RunControl.Ends ⟨limit, breakpoints, stop⟩ i x why := by
  cases why with
  | requested => cases ends.2.2
  | _ => exact ends

/-- After a request the run goes on. -/
theorem going_of_requested {stop : Nat → Bool}
    (returned : b.Returns ⟨limit, breakpoints, stop⟩ outcome m)
    (requested : outcome.reason = .requested) :
    (RunControl.unasked limit breakpoints).Going b outcome.steps ∧
      Alike m (b.afterSteps outcome.steps) := by
  obtain ⟨ended, left⟩ := returned.endsFirst
  rw [requested] at ended left
  exact ⟨ended.goesOn (by decide) ends_of_unasked, left⟩

/-- A run that no request ended would have ended so without any questions. -/
theorem endsFirst_unasked {stop : Nat → Bool} (unrequested : reason ≠ .requested)
    (h : RunControl.EndsFirst ⟨limit, breakpoints, stop⟩ b steps reason) :
    (RunControl.unasked limit breakpoints).EndsFirst b steps reason := by
  refine ⟨?_, fun other ends => h.first other (ends_of_unasked _ _ _ ends),
    fun i below why ends => h.quiet i below why (ends_of_unasked _ _ _ ends)⟩
  have ends := h.ends
  cases reason with
  | requested => exact absurd rfl unrequested
  | _ => exact ends

/-- A run in pieces ends as the run without questions. -/
theorem InPieces.returns (h : InPieces breakpoints limit b reason steps d) :
    ∃ whole e, b.Returns (.unasked limit breakpoints) whole e ∧ whole.reason = reason ∧
      whole.steps = steps ∧ Alike e d := by
  induction h with
  | @last limit b d outcome stop returned unrequested =>
      obtain ⟨ended, left⟩ := returned.endsFirst
      obtain ⟨whole, e, resumed, why, length⟩ :=
        returns_of_endsFirst (endsFirst_unasked unrequested ended)
      obtain ⟨_, left'⟩ := resumed.endsFirst
      rw [why, length] at left'
      exact ⟨whole, e, resumed, why, length, left'.trans left.symm⟩
  | @stopped limit b m d outcome stop reason steps returned requested _ ih =>
      obtain ⟨going, alike⟩ := going_of_requested returned requested
      obtain ⟨rest, d', resumed, why, length, same⟩ := ih
      obtain ⟨whole, e, first⟩ := (returns_resumed_iff going alike).mpr ⟨rest, d', resumed⟩
      have ended := endAlike_of_going going alike first resumed
      refine ⟨whole, e, first, ended.reason.trans why, ?_, ended.board.trans same⟩
      rw [ended.steps, length]

theorem returns_of_run? (ran : b.run? control = some (outcome, d)) :
    b.Returns control outcome d := run?_eq_some_iff.mp ran

/-- A run with a limit ends. -/
theorem exists_run? (b : Board) (limit : Nat) (breakpoints : List UInt16) :
    ∃ outcome d, b.run? (.unasked (some limit) breakpoints) = some (outcome, d) :=
  b.exists_of_limit rfl

/-- A run whose limit ended it goes on with a further limit as it would have from the start. -/
theorem run?_add_limit {n j : Nat} (ran : b.run? (.unasked (some n) breakpoints) = some (outcome, m))
    (limited : outcome.reason = .limit) : ∃ whole e rest d,
      b.run? (.unasked (some (n + j)) breakpoints) = some (whole, e) ∧
      m.run? (.unasked (some j) breakpoints) = some (rest, d) ∧ EndAlike n whole e rest d := by
  obtain ⟨ended, left⟩ := (returns_of_run? ran).endsFirst
  rw [limited] at ended left
  have length : outcome.steps = n := ended.steps_of_limit rfl
  rw [length] at ended left
  -- A reason of the longer run is one of the shorter, whose limit it reaches first.
  have going : (RunControl.unasked (some (n + j)) breakpoints).Going b n := by
    apply ended.goesOn (by decide)
    intro i x why ends
    cases why with
    | limit =>
        obtain ⟨further, same, reached⟩ := ends
        obtain rfl : n + j = further := Option.some.inj same
        exact ⟨n, rfl, Nat.le_of_add_right_le reached⟩
    | _ => exact ends
  obtain ⟨whole, e, first⟩ := b.exists_run? (n + j) breakpoints
  obtain ⟨rest, d, second⟩ := m.exists_run? j breakpoints
  have rested : m.Returns (.unasked ((some (n + j)).map (· - n)) breakpoints) rest d := by
    rw [Option.map_some, Nat.add_sub_cancel_left]
    exact returns_of_run? second
  exact ⟨whole, e, rest, d, first, second,
    endAlike_of_going going left (returns_of_run? first) rested⟩

/-- A request comes after a positive multiple of the interval, and before the limit. -/
theorem steps_of_requested (returned : b.Returns control outcome m)
    (requested : outcome.reason = .requested) :
    (0 < outcome.steps ∧ RunControl.interval ∣ outcome.steps) ∧
      ∀ n, control.limit = some n → outcome.steps < n := by
  obtain ⟨ended, _⟩ := returned.endsFirst
  rw [requested] at ended
  refine ⟨⟨ended.ends.1, ended.ends.2.1⟩, ?_⟩
  intro n limited
  by_contra reached
  have first := ended.first .limit ⟨n, limited, Nat.not_lt.mp reached⟩
  exact absurd first (by decide)

/-- To stop a run and go on makes no difference: not after a run that its limit ended, not after one
that a request ended, and not any number of times. -/
theorem resumed_runs_end_alike (b : Board) (breakpoints : List UInt16) :
    (∀ n j outcome m, b.run? (.unasked (some n) breakpoints) = some (outcome, m) →
      outcome.reason = .limit → ∃ whole e rest d,
        b.run? (.unasked (some (n + j)) breakpoints) = some (whole, e) ∧
        m.run? (.unasked (some j) breakpoints) = some (rest, d) ∧ EndAlike n whole e rest d) ∧
    (∀ limit stop outcome m, b.Returns ⟨limit, breakpoints, stop⟩ outcome m →
      outcome.reason = .requested →
        ((0 < outcome.steps ∧ RunControl.interval ∣ outcome.steps) ∧
          ∀ n, limit = some n → outcome.steps < n) ∧
        ((∃ whole e, b.Returns (.unasked limit breakpoints) whole e) ↔ ∃ rest d,
          m.Returns (.unasked (limit.map (· - outcome.steps)) breakpoints) rest d) ∧
        ∀ whole e rest d, b.Returns (.unasked limit breakpoints) whole e →
          m.Returns (.unasked (limit.map (· - outcome.steps)) breakpoints) rest d →
          EndAlike outcome.steps whole e rest d) ∧
    (∀ limit reason steps d, InPieces breakpoints limit b reason steps d →
      ∃ whole e, b.Returns (.unasked limit breakpoints) whole e ∧ whole.reason = reason ∧
        whole.steps = steps ∧ Alike e d) := by
  refine ⟨?_, ?_, ?_⟩
  · intro n j outcome m ran limited
    exact run?_add_limit ran limited
  · intro limit stop outcome m returned requested
    obtain ⟨going, alike⟩ := going_of_requested returned requested
    exact ⟨steps_of_requested returned requested, returns_resumed_iff going alike,
      fun whole e rest d first second => endAlike_of_going going alike first second⟩
  · intro limit reason steps d pieces
    exact pieces.returns

/-- A run of one step and then of another one ends at the breakpoint behind the second. -/
theorem resumed_at_breakpoint : ∃ (m : Board) (rest : RunOutcome) (d : Board),
    m.run? (.unasked (some 7) [0x0004]) = some (rest, d) ∧
      rest.reason = .breakpoint 0x0004 ∧ rest.steps = 1 := by
  have ran : ((Board.new 1000).run? (.unasked (some 1) [0x0004])).map Prod.fst =
      some ⟨.limit, 1, 0⟩ := by
    rw [run?_of_limit _ rfl]
    rfl
  have longer : ((Board.new 1000).run? (.unasked (some 8) [0x0004])).map Prod.fst =
      some ⟨.breakpoint 0x0004, 2, 0⟩ := by
    rw [run?_of_limit _ rfl]
    rfl
  obtain ⟨⟨outcome, m⟩, first, rfl⟩ := Option.map_eq_some_iff.mp ran
  obtain ⟨whole, e, rest, d, run, resumed, ended⟩ :=
    (resumed_runs_end_alike (.new 1000) [0x0004]).1 1 7 _ m first rfl
  rw [run] at longer
  obtain rfl : whole = ⟨.breakpoint 0x0004, 2, 0⟩ := Option.some.inj longer
  exact ⟨m, rest, d, resumed, ended.reason.symm, Nat.add_left_cancel ended.steps.symm⟩

end Board
end Sim6809
