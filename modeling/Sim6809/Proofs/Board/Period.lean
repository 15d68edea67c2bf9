import Sim6809.Proofs.Board.Clock

/-!
The timer against the clock. While it is enabled its phase is exact, however the cycles are cut into
calls. It fires once in each call that ends a period, so a call that ends several of them skips all
but one. All of this holds while its sums of cycles stay within 64 bits.
-/
namespace Sim6809

namespace Timer

/-- The timer after calls that let time pass, each with the bus and the cycles that it is given. -/
def afterCalls (t : Timer) : List (Bus × UInt64) → Timer
  | [] => t
  | (bus, cycles) :: calls => (t.advance bus cycles).2.1.afterCalls calls

/-- How many of the calls tell that the timer fired. -/
def firings (t : Timer) : List (Bus × UInt64) → Nat
  | [] => 0
  | (bus, cycles) :: calls =>
    (t.advance bus cycles).1.toNat + (t.advance bus cycles).2.1.firings calls

/-- The periods that end within some cycles. -/
def periodsIn (t : Timer) (cycles : Nat) : Nat := (t.elapsed.toNat + cycles) / t.period.toNat

/-- The periods that end within the calls, without the first one of each call. -/
def skipped (t : Timer) : List (Bus × UInt64) → Nat
  | [] => 0
  | (bus, cycles) :: calls =>
    (t.periodsIn cycles.toNat - 1) + (t.advance bus cycles).2.1.skipped calls

def totalCycles : List (Bus × UInt64) → Nat
  | [] => 0
  | (_, cycles) :: calls => cycles.toNat + totalCycles calls

/-- No call takes the cycles since a period's end out of the range of their counter. -/
def Fits (t : Timer) : List (Bus × UInt64) → Prop
  | [] => True
  | (bus, cycles) :: calls =>
    t.elapsed.toNat + cycles.toNat < UInt64.size ∧ (t.advance bus cycles).2.1.Fits calls

/-- A timer has come from another while some cycles passed in which it was enabled. Its phase is
exact, and each period that ended was fired for or skipped. -/
structure RanFor (t after : Timer) (cycles firings skipped : Nat) : Prop where
  period : after.period = t.period
  phase : after.elapsed.toNat = (t.elapsed.toNat + cycles) % t.period.toNat
  fired : after.fired = t.fired + firings
  periods : firings + skipped = t.periodsIn cycles

variable {t after last : Timer} {bus : Bus} {calls : List (Bus × UInt64)}

theorem period_pos (phase : t.elapsed < t.period) : 0 < t.period.toNat :=
  Nat.zero_lt_of_lt (UInt64.lt_iff_toNat_lt.mp phase)

namespace RanFor

theorem refl (phase : t.elapsed < t.period) : RanFor t t 0 0 0 :=
  have within := UInt64.lt_iff_toNat_lt.mp phase
  ⟨rfl, (Nat.mod_eq_of_lt within).symm, rfl, (Nat.div_eq_of_lt within).symm⟩

theorem inPhase {cycles firings skipped : Nat} (h : RanFor t after cycles firings skipped)
    (phase : t.elapsed < t.period) : after.elapsed < after.period := by
  rw [UInt64.lt_iff_toNat_lt, h.phase, h.period]
  exact Nat.mod_lt _ (period_pos phase)

/-- The periods that end in two stretches of time are those that end in both together. -/
theorem trans {c d f g r s : Nat} (h : RanFor t after c f r) (k : RanFor after last d g s) :
    RanFor t last (c + d) (f + g) (r + s) where
  period := k.period.trans h.period
  phase := by
    rw [k.phase, h.phase, h.period, Nat.mod_add_mod, Nat.add_assoc]
  fired := by
    rw [k.fired, h.fired, Nat.add_assoc]
  periods := by
    have first := h.periods
    have second := k.periods
    have whole := Nat.div_add_mod (t.elapsed.toNat + c) t.period.toNat
    unfold periodsIn at first second ⊢
    rw [h.phase, h.period] at second
    rcases Nat.eq_zero_or_pos t.period.toNat with never | positive
    · rw [never, Nat.div_zero] at first second ⊢
      omega
    · have split : t.elapsed.toNat + (c + d) = (t.elapsed.toNat + c) % t.period.toNat + d +
          t.period.toNat * ((t.elapsed.toNat + c) / t.period.toNat) := by
        omega
      rw [split, Nat.add_mul_div_left _ _ positive]
      omega

end RanFor

/-- A call to an enabled timer fires once if a period has ended, and skips the further ones. -/
theorem ranFor_advance (phase : t.elapsed < t.period) (enabled : isEnabled bus = true)
    {cycles : UInt64} (fits : t.elapsed.toNat + cycles.toNat < UInt64.size) :
    RanFor t (t.advance bus cycles).2.1 cycles.toNat (t.advance bus cycles).1.toNat
      (t.periodsIn cycles.toNat - 1) := by
  have sum : (t.elapsed + cycles).toNat = t.elapsed.toNat + cycles.toNat := by
    rw [UInt64.toNat_add]
    exact Nat.mod_eq_of_lt fits
  dsimp only [advance]
  rw [enabled, if_neg (by decide)]
  by_cases within : t.elapsed + cycles < t.period
  · have below := UInt64.lt_iff_toNat_lt.mp within
    rw [sum] at below
    have none_ends : t.periodsIn cycles.toNat = 0 := Nat.div_eq_of_lt below
    rw [if_pos within, none_ends]
    exact ⟨rfl, sum.trans (Nat.mod_eq_of_lt below).symm, rfl, none_ends.symm⟩
  · have reached := UInt64.le_iff_toNat_le.mp (UInt64.not_lt.mp within)
    rw [sum] at reached
    have one_ends : 1 ≤ t.periodsIn cycles.toNat :=
      (Nat.one_le_div_iff (period_pos phase)).mpr reached
    have left : ((t.elapsed + cycles) % t.period).toNat =
        (t.elapsed.toNat + cycles.toNat) % t.period.toNat := by
      rw [UInt64.toNat_mod, sum]
    rw [if_neg within]
    exact ⟨rfl, left, rfl, Nat.add_sub_cancel' one_ends⟩

theorem ranFor_afterCalls (phase : t.elapsed < t.period)
    (enabled : ∀ call ∈ calls, isEnabled call.1 = true) (fits : t.Fits calls) :
    RanFor t (t.afterCalls calls) (totalCycles calls) (t.firings calls) (t.skipped calls) := by
  -- By induction on the calls: each ends in phase, where the next one begins.
  induction calls generalizing t with
  | nil => exact .refl phase
  | cons call calls ih =>
      obtain ⟨bus, cycles⟩ := call
      have first := ranFor_advance phase (enabled (bus, cycles) List.mem_cons_self) fits.1
      have rest := ih (first.inPhase phase) (fun later member => enabled later (.tail _ member))
        fits.2
      exact first.trans rest

/-- An enabled timer is in phase before each call, so calls that are short beside the range of its
counter fit. -/
theorem fits_of_short (phase : t.elapsed < t.period)
    (enabled : ∀ call ∈ calls, isEnabled call.1 = true)
    (short : ∀ call ∈ calls, t.period.toNat + call.2.toNat ≤ UInt64.size) : t.Fits calls := by
  induction calls generalizing t with
  | nil => exact trivial
  | cons call calls ih =>
      obtain ⟨bus, cycles⟩ := call
      have within := UInt64.lt_iff_toNat_lt.mp phase
      have bounded : t.period.toNat + cycles.toNat ≤ UInt64.size :=
        short (bus, cycles) List.mem_cons_self
      have fits : t.elapsed.toNat + cycles.toNat < UInt64.size := by omega
      have first := ranFor_advance phase (enabled (bus, cycles) List.mem_cons_self) fits
      refine ⟨fits, ih (first.inPhase phase) (fun later member => enabled later (.tail _ member)) ?_⟩
      intro later member
      rw [first.period]
      exact short later (.tail _ member)

/-- Calls of at most one period each skip none. -/
theorem skipped_eq_zero (phase : t.elapsed < t.period)
    (enabled : ∀ call ∈ calls, isEnabled call.1 = true) (fits : t.Fits calls)
    (short : ∀ call ∈ calls, call.2 ≤ t.period) : t.skipped calls = 0 := by
  induction calls generalizing t with
  | nil => rfl
  | cons call calls ih =>
      obtain ⟨bus, cycles⟩ := call
      have first := ranFor_advance phase (enabled (bus, cycles) List.mem_cons_self) fits.1
      have within := UInt64.lt_iff_toNat_lt.mp phase
      have short_first : cycles.toNat ≤ t.period.toNat :=
        UInt64.le_iff_toNat_le.mp (short (bus, cycles) List.mem_cons_self)
      have once : t.periodsIn cycles.toNat < 2 := by
        apply Nat.div_lt_of_lt_mul
        omega
      have rest : (t.advance bus cycles).2.1.skipped calls = 0 :=
        ih (first.inPhase phase) (fun later member => enabled later (.tail _ member)) fits.2
          fun later member => first.period.symm ▸ short later (.tail _ member)
      change (t.periodsIn cycles.toNat - 1) + (t.advance bus cycles).2.1.skipped calls = 0
      omega

theorem afterCalls_append (t : Timer) (early late : List (Bus × UInt64)) :
    t.afterCalls (early ++ late) = (t.afterCalls early).afterCalls late := by
  induction early generalizing t with
  | nil => rfl
  | cons call early ih => exact ih _

theorem totalCycles_append (early late : List (Bus × UInt64)) :
    totalCycles (early ++ late) = totalCycles early + totalCycles late := by
  induction early with
  | nil => exact (Nat.zero_add _).symm
  | cons call early ih => exact (congrArg (call.2.toNat + ·) ih).trans (Nat.add_assoc ..).symm

theorem isEnabled_poke_status (bus : Bus) (status : UInt8) :
    isEnabled (bus.poke statusAddress status) = isEnabled bus :=
  congrArg (· &&& 1 != 0) (bus.memory.read_write_of_ne status (by decide))

/-- The timer never writes to its control register. -/
theorem isEnabled_advance (t : Timer) (bus : Bus) (cycles : UInt64) :
    isEnabled (t.advance bus cycles).2.2 = isEnabled bus := by
  dsimp only [advance, fire]
  split
  · rfl
  · split
    · rfl
    · split
      · exact isEnabled_poke_status bus _
      · exact isEnabled_poke_status bus _

end Timer

namespace Board

/-- The call that a step makes to the timer of a ticking board. A failing step makes none. -/
def timerCall? (b : Board) : Option (Bus × UInt64) :=
  match b.monitor.step with
  | (.error _, _) => none
  | (.ok _, m) => some (m.bus, .ofNat (m.cpu.cycles - b.cpu.cycles))

/-- The calls to the timer in a number of steps. -/
def timerCalls (b : Board) : Nat → List (Bus × UInt64)
  | 0 => []
  | n + 1 => b.timerCalls n ++ (b.afterSteps n).timerCall?.toList

theorem step_ticking (b : Board) : b.step.2.ticking = b.ticking :=
  step_keeps (P := fun d => d.ticking = b.ticking) rfl fun _ _ same => same

theorem afterSteps_ticking (b : Board) (n : Nat) : (b.afterSteps n).ticking = b.ticking := by
  induction n with
  | zero => rfl
  | succ n ih => exact (step_ticking _).trans ih

/-- What a step does to the clock and to the timer of a ticking board. -/
theorem step_timer {b : Board} (ticking : b.ticking = true) :
    b.step.2.timer = b.timer.afterCalls b.timerCall?.toList ∧
      b.step.2.cpu.cycles = b.cpu.cycles + Timer.totalCycles b.timerCall?.toList ∧
      ∀ call ∈ b.timerCall?, Timer.isEnabled call.1 = Timer.isEnabled b.step.2.bus ∧
        call.2.toNat ≤ 30 := by
  obtain ⟨answer, core, _⟩ := b.monitor.step_core
  have account := b.monitor.core.keepsAccount
  have same : b.monitor.step.2.cpu = b.monitor.core.step.2.cpu := core.cpu
  cases stepped : b.monitor.core.step.1 with
  | error fault =>
      have unchanged : b.monitor.step.2.cpu.cycles = b.cpu.cycles :=
        (congrArg Cpu.cycles same).trans (account.uncounted fault stepped).1
      rw [stepped] at answer
      dsimp only [step, timerCall?]
      revert answer unchanged
      rcases b.monitor.step with ⟨result, m⟩
      rintro rfl unchanged
      exact ⟨rfl, unchanged, nofun⟩
  | ok cycles =>
      obtain ⟨counted, _, _, most⟩ := account.counted cycles stepped
      have passed : b.monitor.step.2.cpu.cycles = b.cpu.cycles + cycles :=
        (congrArg Cpu.cycles same).trans counted
      have elapsed : b.monitor.step.2.cpu.cycles - b.cpu.cycles = cycles := by
        rw [passed, Nat.add_sub_cancel_left]
      have fits : (UInt64.ofNat cycles).toNat = cycles :=
        UInt64.toNat_ofNat_of_lt' (Nat.lt_of_le_of_lt most (by decide))
      have total : Timer.totalCycles [(b.monitor.step.2.bus, .ofNat cycles)] = cycles := fits
      have advanced := b.timer.isEnabled_advance b.monitor.step.2.bus (.ofNat cycles)
      rw [stepped] at answer
      dsimp only [step, timerCall?]
      revert answer passed elapsed total advanced
      rcases b.monitor.step with ⟨result, m⟩
      rintro rfl passed elapsed total advanced
      dsimp only [Except.map] at passed elapsed total advanced ⊢
      rw [if_pos ticking, elapsed, Option.toList_some, total]
      refine ⟨rfl, passed, ?_⟩
      rintro call ⟨⟩
      exact ⟨advanced.symm, fits.symm ▸ most⟩

theorem afterSteps_timer {b : Board} (ticking : b.ticking = true) (n : Nat) :
    (b.afterSteps n).timer = b.timer.afterCalls (b.timerCalls n) ∧
      (b.afterSteps n).cpu.cycles = b.cpu.cycles + Timer.totalCycles (b.timerCalls n) := by
  induction n with
  | zero => exact ⟨rfl, rfl⟩
  | succ n ih =>
      obtain ⟨timer, cycles, _⟩ := step_timer ((b.afterSteps_ticking n).trans ticking)
      refine ⟨?_, ?_⟩
      · rw [afterSteps, timerCalls, timer, ih.1, Timer.afterCalls_append]
      · rw [afterSteps, timerCalls, cycles, ih.2, Timer.totalCycles_append, Nat.add_assoc]

/-- A timer that is found enabled after each step was enabled as it was called, and no step takes more
than thirty cycles. -/
theorem timerCalls_enabled {b : Board} (ticking : b.ticking = true) {n : Nat}
    (enabled : ∀ i < n, Timer.isEnabled (b.afterSteps (i + 1)).bus = true) :
    ∀ call ∈ b.timerCalls n, Timer.isEnabled call.1 = true ∧ call.2.toNat ≤ 30 := by
  induction n with
  | zero => exact nofun
  | succ n ih =>
      intro call member
      rcases List.mem_append.mp member with early | late
      · exact ih (fun i below => enabled i (Nat.lt_succ_of_lt below)) call early
      · obtain ⟨_, _, same⟩ := step_timer ((b.afterSteps_ticking n).trans ticking)
        obtain ⟨unchanged, most⟩ := same call (Option.mem_toList.mp late)
        exact ⟨unchanged.trans (enabled n n.lt_succ_self), most⟩

end Board

namespace Timer

/-- From every phase an enabled timer keeps the exact phase, however its cycles are cut into calls, as
long as its counter can hold their sums. It has fired as often as periods ended exactly if no call ended
more than one, which is so if no call is longer than a period. Calls fit that leave room for a period in
the range of the counter. The steps of a ticking board are such calls with the cycles of its processor,
and they fit beside any period but the thirty longest. -/
theorem fires_once_per_call (t : Timer) (phase : t.elapsed < t.period) :
    (∀ calls, (∀ call ∈ calls, isEnabled call.1 = true) → t.Fits calls →
      RanFor t (t.afterCalls calls) (totalCycles calls) (t.firings calls) (t.skipped calls) ∧
      ((t.afterCalls calls).fired = t.fired + t.periodsIn (totalCycles calls) ↔
        t.skipped calls = 0) ∧
      ((∀ call ∈ calls, call.2 ≤ t.period) → t.skipped calls = 0)) ∧
    (∀ calls, (∀ call ∈ calls, isEnabled call.1 = true) →
      (∀ call ∈ calls, t.period.toNat + call.2.toNat ≤ UInt64.size) → t.Fits calls) ∧
    (∀ (b : Board) (n : Nat), b.timer = t → b.ticking = true →
      (∀ i < n, isEnabled (b.afterSteps (i + 1)).bus = true) →
      (∀ call ∈ b.timerCalls n, isEnabled call.1 = true) ∧
      (b.afterSteps n).timer = t.afterCalls (b.timerCalls n) ∧
      (t.period.toNat + 30 ≤ UInt64.size → t.Fits (b.timerCalls n)) ∧
      (t.Fits (b.timerCalls n) →
        RanFor t (b.afterSteps n).timer ((b.afterSteps n).cpu.cycles - b.cpu.cycles)
          (t.firings (b.timerCalls n)) (t.skipped (b.timerCalls n)))) := by
  refine ⟨?_, fun calls enabled => fits_of_short phase enabled, ?_⟩
  · intro calls enabled fits
    have ran := ranFor_afterCalls phase enabled fits
    refine ⟨ran, ?_, skipped_eq_zero phase enabled fits⟩
    have fired := ran.fired
    have periods := ran.periods
    constructor
    · intro exact_count
      omega
    · intro none_skipped
      omega
  · rintro b n rfl ticking enabled
    have called := Board.timerCalls_enabled ticking enabled
    obtain ⟨timer, cycles⟩ := Board.afterSteps_timer ticking n
    refine ⟨fun call member => (called call member).1, timer, ?_, ?_⟩
    · intro room
      apply fits_of_short phase (fun call member => (called call member).1)
      intro call member
      exact Nat.le_trans (Nat.add_le_add_left (called call member).2 _) room
    · intro fits
      rw [timer, cycles, Nat.add_sub_cancel_left]
      exact ranFor_afterCalls phase (fun call member => (called call member).1) fits

/-- A bus on which the timer is enabled. -/
def enabledBus : Bus := Bus.blank.poke controlAddress 0x01

/-- A new board with a timer of one cycle, which is enabled. -/
def cycleByCycle : Board := (Board.new 1).setBus ((Board.new 1).bus.poke controlAddress 0x01)

theorem ran_through_two_periods :
    ((30 : UInt64) < 100 ∧ RanFor ⟨100, 30, 0⟩ ⟨100, 40, 1⟩ 210 1 1) ∧
      RanFor ⟨1, 0, 0⟩ (cycleByCycle.afterSteps 1).timer 6 1 5 := by
  have enabled : ∀ call ∈ [(enabledBus, (20 : UInt64)), (enabledBus, 190)],
      isEnabled call.1 = true := by
    intro call member
    simp only [List.mem_cons, List.not_mem_nil, or_false] at member
    rcases member with rfl | rfl
    · rfl
    · rfl
  obtain ⟨whole, -, -⟩ := fires_once_per_call ⟨100, 30, 0⟩ (by decide)
  have ran := whole _ enabled ⟨by decide, by decide, trivial⟩
  obtain ⟨-, -, steps⟩ := fires_once_per_call ⟨1, 0, 0⟩ (by decide)
  obtain ⟨-, -, fits, stepped⟩ := steps cycleByCycle 1 rfl rfl fun i below => match i, below with
    | 0, _ => rfl
  exact ⟨⟨by decide, ran.1⟩, stepped (fits (by decide))⟩

/-- A call of two and a half periods fires once. -/
theorem long_call_skips_period : ¬ ∀ (t : Timer) (calls : List (Bus × UInt64)),
    t.elapsed < t.period → (∀ call ∈ calls, isEnabled call.1 = true) → t.Fits calls →
    (t.afterCalls calls).fired = t.fired + t.periodsIn (totalCycles calls) := by
  intro each_period
  have fired := each_period ⟨100, 0, 0⟩ [(enabledBus, 250)] (by decide) (by
    intro call member
    obtain rfl := List.mem_singleton.mp member
    rfl) ⟨by decide, trivial⟩
  have once : ((⟨100, 0, 0⟩ : Timer).afterCalls [(enabledBus, 250)]).fired = 1 := by rfl
  rw [once] at fired
  cases fired

end Timer
end Sim6809
