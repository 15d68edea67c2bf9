import Sim6809.Board.Run

/-!
Runs with fuel. A run is followed for as many rounds as its fuel allows, so that it can be computed and
reasoned about by induction on the fuel. A run ends exactly if some fuel lets it end, and a run with a
limit does with fuel for one step more.
-/
namespace Sim6809.Board

/-- Goes on with a run for as many rounds as the fuel allows; nothing if the run has not ended by
then. -/
def continueRun (control : RunControl) : Nat → Nat → Nat → Board → Option (RunOutcome × Board)
  | 0, _, _, _ => none
  | fuel + 1, steps, asked, b =>
    match round control steps asked b with
    | .inl ended => some ended
    | .inr (asked, b) => continueRun control fuel (steps + 1) asked b

/-- Runs until something ends the run; nothing if the fuel is used up before. -/
def runWithin (fuel : Nat) (control : RunControl) (b : Board) : Option (RunOutcome × Board) :=
  (continueRun control fuel 0 0 b).map fun (outcome, b) => (outcome, b.logOutcome outcome)

variable {control : RunControl} {b : Board} {result : RunOutcome × Board} {steps asked limit : Nat}

theorem goOn_of_continueRun {fuel : Nat} (ran : continueRun control fuel steps asked b = some result) :
    goOn control steps asked b = some result := by
  induction fuel generalizing steps asked b with
  | zero => cases ran
  | succ fuel ih =>
      rw [goOn]
      rw [continueRun] at ran
      revert ran
      rcases round control steps asked b with ended | ⟨asked', d⟩
      · exact id
      · exact ih

theorem exists_fuel_of_goOn (ran : goOn control steps asked b = some result) :
    ∃ fuel, continueRun control fuel steps asked b = some result := by
  refine goOn.partial_correctness control
    (fun steps asked b result => ∃ fuel, continueRun control fuel steps asked b = some result)
    ?_ _ _ _ _ ran
  intro rest later steps asked b result ran
  -- The round takes one unit of fuel more than the rest of the run.
  suffices ∃ fuel, continueRun control (fuel + 1) steps asked b = some result by
    obtain ⟨fuel, enough⟩ := this
    exact ⟨fuel + 1, enough⟩
  simp only [continueRun]
  revert ran
  rcases round control steps asked b with ended | ⟨asked', d⟩
  · exact fun ran => ⟨0, ran⟩
  · exact later _ _ _ _

/-- A run ends exactly if some fuel lets it end. -/
theorem run?_eq_some_iff :
    b.run? control = some result ↔ ∃ fuel, runWithin fuel control b = some result := by
  unfold run? runWithin
  constructor
  · intro ran
    obtain ⟨ended, looped, rfl⟩ := Option.map_eq_some_iff.mp ran
    obtain ⟨fuel, enough⟩ := exists_fuel_of_goOn looped
    exact ⟨fuel, Option.map_eq_some_iff.mpr ⟨ended, enough, rfl⟩⟩
  · rintro ⟨fuel, ran⟩
    obtain ⟨ended, looped, rfl⟩ := Option.map_eq_some_iff.mp ran
    exact Option.map_eq_some_iff.mpr ⟨ended, goOn_of_continueRun looped, rfl⟩

theorem unreached_of_round {next : Nat × Board} (goes : round control steps asked b = .inr next) :
    control.limitReached steps = false := by
  unfold round at goes
  split at goes
  · cases goes
  · rename_i below
    exact Bool.eq_false_iff.mpr below

theorem continueRun_isSome (limited : control.limit = some limit) {fuel : Nat} (before : steps ≤ limit)
    (enough : limit < steps + fuel) : (continueRun control fuel steps asked b).isSome = true := by
  induction fuel generalizing steps asked b with
  | zero => exact absurd enough (by omega)
  | succ fuel ih =>
      rw [continueRun]
      rcases went : round control steps asked b with ended | ⟨asked', d⟩
      · rfl
      · have below : steps < limit := by
          simpa [RunControl.limitReached, limited] using unreached_of_round went
        exact ih below (by omega)

theorem run?_of_limit (b : Board) (limited : control.limit = some limit) :
    b.run? control = runWithin (limit + 1) control b := by
  have ended : (runWithin (limit + 1) control b).isSome = true := by
    unfold runWithin
    rw [Option.isSome_map]
    exact continueRun_isSome limited (Nat.zero_le _) (by omega)
  obtain ⟨result, ran⟩ := Option.isSome_iff_exists.mp ended
  rw [ran]
  exact run?_eq_some_iff.mpr ⟨_, ran⟩

/-- A run with a limit ends. -/
theorem exists_of_limit (b : Board) (limited : control.limit = some limit) :
    ∃ outcome d, b.run? control = some (outcome, d) := by
  have ended : (b.run? control).isSome = true := by
    rw [run?_of_limit b limited, runWithin, Option.isSome_map]
    exact continueRun_isSome limited (Nat.zero_le _) (by omega)
  obtain ⟨⟨outcome, d⟩, ran⟩ := Option.isSome_iff_exists.mp ended
  exact ⟨outcome, d, ran⟩

end Sim6809.Board
