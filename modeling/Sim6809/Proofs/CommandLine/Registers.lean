import Sim6809.CommandLine.Execute
import Sim6809.Proofs.Memory.Bytes
import Sim6809.Proofs.Run.Resume

/-!
The register listing of two commands. A run lets the timer tick only if it is told to, and the command
that shows the registers steps a board whose timer always ticks. A timer reaches the processor by
firing and by nothing else, so the two list the same registers unless it fires.
-/
namespace Sim6809

namespace Timer

variable (t : Timer) (bus : Bus) (cycles : UInt64)

theorem fired_le_advance : t.fired ≤ (t.advance bus cycles).2.1.fired := by
  dsimp only [advance]
  split
  · exact Nat.le_refl _
  · split
    · exact Nat.le_refl _
    · exact Nat.le_succ _

/-- A timer that does not fire leaves the bus alone. -/
theorem advance_of_unfired {t : Timer} {bus : Bus} {cycles : UInt64}
    (unfired : (t.advance bus cycles).2.1.fired ≤ t.fired) : (t.advance bus cycles).2.2 = bus := by
  dsimp only [advance] at unfired ⊢
  split at unfired
  · rename_i disabled
    rw [if_pos disabled]
  · rename_i enabled
    rw [if_neg enabled]
    split at unfired
    · rename_i within
      rw [if_pos within]
    · exact absurd unfired (Nat.not_succ_le_self _)

end Timer

namespace Board

/-- Equal boards, but for their timers and for the log and the trace. -/
structure SameBesideTimer (b d : Board) : Prop where
  core : Core.SameState b.monitor.core d.monitor.core
  symbols : b.monitor.symbols = d.monitor.symbols

variable {b d e : Board} {control : RunControl} {outcome : RunOutcome} {steps : Nat}

namespace SameBesideTimer

theorem symm (h : SameBesideTimer b d) : SameBesideTimer d b := ⟨h.core.symm, h.symbols.symm⟩

theorem trans (h : SameBesideTimer b d) (k : SameBesideTimer d e) : SameBesideTimer b e :=
  ⟨h.core.trans k.core, h.symbols.trans k.symbols⟩

end SameBesideTimer

theorem Alike.besideTimer (h : Alike b d) : SameBesideTimer b d := ⟨h.same.core, h.same.symbols⟩

/-! ### Steps -/

/-- What a step answers is settled before the timer sees its cycles. -/
theorem SameBesideTimer.answer (h : SameBesideTimer b d) : b.step.1 = d.step.1 := by
  rw [b.step_answer, d.step_answer]
  exact (Monitor.step_alike h.core h.symbols).1

theorem fired_le_step (b : Board) : b.timer.fired ≤ b.step.2.timer.fired :=
  step_keeps (P := fun d => b.timer.fired ≤ d.timer.fired) (Nat.le_refl _)
    fun d cycles before => Nat.le_trans before (d.timer.fired_le_advance d.bus (.ofNat cycles))

theorem fired_le_afterSteps (b : Board) {m n : Nat} (earlier : m ≤ n) :
    (b.afterSteps m).timer.fired ≤ (b.afterSteps n).timer.fired := by
  induction earlier with
  | refl => exact Nat.le_refl _
  | step _ ih => exact Nat.le_trans ih (fired_le_step _)

/-- A board without a clock keeps up with one whose timer does not fire. -/
theorem step_of_unfired (h : SameBesideTimer b d) (still : b.ticking = false)
    (unfired : d.step.2.timer.fired ≤ d.timer.fired) :
    SameBesideTimer b.step.2 d.step.2 ∧ b.step.2.ticking = false := by
  have stepped := Monitor.step_alike h.core h.symbols
  dsimp only [step] at unfired ⊢
  revert stepped unfired
  rcases b.monitor.step with ⟨answer, m⟩
  rcases d.monitor.step with ⟨_, n⟩
  rintro unfired ⟨rfl, core, symbols⟩
  cases answer with
  | error fault => exact ⟨⟨core, symbols⟩, still⟩
  | ok op =>
      dsimp only at unfired ⊢
      rw [still, if_neg Bool.false_ne_true]
      refine ⟨⟨?_, ?_⟩, still⟩
      · split at unfired
        · rename_i ticks
          have unreached : ((d.setMonitor n).advanceTimer
              (n.cpu.cycles - d.cpu.cycles)).monitor.core.bus = n.core.bus :=
            Timer.advance_of_unfired unfired
          rw [if_pos ticks]
          refine ⟨core.cpu, ?_⟩
          rw [unreached]
          exact core.bus
        · rename_i stands
          rw [if_neg stands]
          exact core
      · split
        · exact symbols
        · exact symbols

theorem afterSteps_of_unfired (h : SameBesideTimer b d) (still : b.ticking = false)
    (unfired : (d.afterSteps steps).timer.fired ≤ d.timer.fired) :
    SameBesideTimer (b.afterSteps steps) (d.afterSteps steps) ∧
      (b.afterSteps steps).ticking = false := by
  induction steps with
  | zero => exact ⟨h, still⟩
  | succ steps ih =>
      obtain ⟨same, still⟩ := ih (Nat.le_trans (fired_le_step _) unfired)
      apply step_of_unfired same still
      exact Nat.le_trans unfired (d.fired_le_afterSteps (Nat.zero_le steps))

/-! ### Runs -/

theorem left_besideTimer (h : SameBesideTimer b d) {reason : StopReason}
    (ends : control.Ends steps d reason) : SameBesideTimer (b.left reason) (d.left reason) := by
  cases reason with
  | fault fault =>
      have answer : d.step.1 = .error fault := ends
      have stepped := Monitor.step_alike h.core h.symbols
      dsimp only [left, step] at answer ⊢
      revert stepped answer
      rcases b.monitor.step with ⟨first, m⟩
      rcases d.monitor.step with ⟨_, n⟩
      rintro answer ⟨rfl, core, symbols⟩
      cases first with
      | ok op => cases answer
      | error _ => exact ⟨⟨core.cpu, core.bus.addRecord⟩, symbols⟩
  | _ => exact h

/-- A run of a board that keeps up with another one ends as a run of that. -/
theorem run?_besideTimer {limit : Nat} (limited : control.limit = some limit)
    (ran : d.run? control = some (outcome, e))
    (same : ∀ i ≤ outcome.steps, SameBesideTimer (b.afterSteps i) (d.afterSteps i)) :
    ∃ outcome' e', b.run? control = some (outcome', e') ∧ outcome'.reason = outcome.reason ∧
      outcome'.steps = outcome.steps ∧ SameBesideTimer e' e := by
  obtain ⟨ended, left⟩ := (returns_of_run? ran).endsFirst
  have ended' : control.EndsFirst b outcome.steps outcome.reason :=
    ended.of_same (fun i reached => (same i reached).symm.core.cpu)
      fun i reached => (same i reached).symm.answer
  obtain ⟨outcome', e', ran'⟩ := b.exists_of_limit limited
  obtain ⟨first, left'⟩ := (returns_of_run? ran').endsFirst
  obtain ⟨length, why⟩ := first.unique ended'
  rw [length, why] at left'
  have last := left_besideTimer (same outcome.steps (Nat.le_refl _)) ended.ends
  exact ⟨outcome', e', ran', why, length,
    (left'.besideTimer.trans last).trans left.symm.besideTimer⟩

/-- The timer of a board has fired no less often when its run has ended. -/
theorem fired_le_of_ran (ran : d.run? control = some (outcome, e)) {i : Nat}
    (reached : i ≤ outcome.steps) : (d.afterSteps i).timer.fired ≤ e.timer.fired := by
  obtain ⟨_, left⟩ := (returns_of_run? ran).endsFirst
  have before := d.fired_le_afterSteps reached
  rw [left.same.timer]
  cases outcome.reason with
  | fault fault => exact Nat.le_trans before (fired_le_step _)
  | _ => exact before

end Board

/-! ### Image files -/

/-- An image in memory is its bytes, written over zeros. -/
theorem imageMemory_eq {image : Array UInt8} (nonempty : image.size ≠ 0)
    (small : ¬ Memory.size < image.size) :
    Board.imageMemory image =
      Memory.blank.writeBytes (Board.imageStart image) image.toList := by
  have fits : image.size ≤ 65536 := Nat.not_lt.mp small
  have length : image.toList.length = image.size := Array.length_toList
  have placed : (Board.imageStart image).toNat = (65536 - image.size) % 65536 := UInt16.toNat_ofNat'
  apply Memory.ext
  intro address
  have top := address.toNat_lt
  have read : (Board.imageMemory image).read address = if address < Board.imageStart image then 0
      else image.getD (address.toNat - (Board.imageStart image).toNat) 0 := by
    unfold Board.imageMemory Bus.loadImage
    dsimp only
    rw [Memory.read_ofFn]
  rw [read]
  split
  · rename_i before
    have before := UInt16.lt_iff_toNat_lt.mp before
    rw [Memory.read_writeBytes _ (by rw [Memory.toNat_sub_eq]; omega), Memory.read_blank]
  · rename_i within
    have within := Nat.not_lt.mp (mt UInt16.lt_iff_toNat_lt.mpr within)
    obtain ⟨i, there⟩ := Nat.exists_eq_add_of_le within
    have inside : i < image.size := by omega
    have same : address = Board.imageStart image + UInt16.ofNat i := by
      apply UInt16.toNat_inj.1
      rw [UInt16.toNat_add, UInt16.toNat_ofNat']
      omega
    rw [there, Nat.add_sub_cancel_left, same,
      Memory.read_writeBytes_add _ (length ▸ inside) (length ▸ fits)]
    simp [inside]

namespace Board

/-- The board after a reset with an image, without what a reset writes to the log. -/
def resetTo (b : Board) (image : Memory) : Board :=
  { b.setMonitor (b.monitor.setCore {
      cpu := .afterReset (image.readWord Event.reset.vector)
      bus := { b.bus with memory := image, loaded := image, requests := [], console := #[] } }) with
    timer := b.timer.reset }

theorem ResetOf.resetTo {b d : Board} {image : Memory} (h : ResetOf b image d) :
    SameState d (b.resetTo image) :=
  ⟨⟨h.cpu, h.memory, h.loaded, h.readHandlers, h.writeHandlers, h.requests, h.console, h.host⟩,
    h.timer, h.symbols⟩

/-- An image file that loads leaves the board as a reset does, with the image of the file and the
symbols that stand beside it. -/
theorem loadFile_resetOf {b d : Board} {files : Files} {path : String}
    (silent : b.bus.readHandlers = []) (loads : b.loadFile files path = (.ok (), d)) :
    ∃ image, files.readBytes path = .ok image ∧ (image.size ≠ 0 ∧ ¬ Memory.size < image.size) ∧
      ResetOf (b.setMonitor (b.monitor.setSymbols
        (Monitor.readSymbols files (Path.withExtension path "map")).1)) (imageMemory image) d ∧
      d.ticking = b.ticking := by
  unfold loadFile Monitor.loadFile at loads
  cases read : files.readBytes path with
  | error reason =>
      rw [read] at loads
      cases loads
  | ok image =>
      rw [read] at loads
      dsimp only at loads
      generalize (Monitor.readSymbols files (Path.withExtension path "map")).2 = records at loads
      generalize (Monitor.readSymbols files (Path.withExtension path "map")).1 = symbols at loads
      cases accepted : (b.monitor.addRecords records).load image with
      | mk answer m =>
          rw [accepted] at loads
          cases answer with
          | error reason => cases loads
          | ok _ =>
              have reset : (b.setMonitor (b.monitor.addRecords records)).load image =
                  (.ok (), ((b.setMonitor (b.monitor.addRecords records)).setMonitor m).resetDevices) := by
                have same : (b.setMonitor (b.monitor.addRecords records)).monitor.load image =
                    (.ok (), m) := accepted
                rw [load, same]
              have same := resetOf_load (b := b.setMonitor (b.monitor.addRecords records)) silent reset
              obtain rfl := (Prod.mk.inj loads).2
              exact ⟨image, rfl, (load_ok_iff.mp reset).1, ⟨same.cpu, same.memory, same.loaded,
                same.requests, same.console, same.timer, same.readHandlers, same.writeHandlers,
                same.host, rfl⟩, rfl⟩

end Board

namespace CommandLine

open Board (SameBesideTimer Alike)

variable {files : Files} {settings : Settings} {image : String} {b : Board}

theorem loadBoard_resetOf (loads : loadBoard files settings image = .ok b) :
    ∃ bytes, files.readBytes image = .ok bytes ∧
      (bytes.size ≠ 0 ∧ ¬ Memory.size < bytes.size) ∧
      Board.ResetOf ((Board.new settings.cyclesPerTick).setMonitor
        ((Board.new settings.cyclesPerTick).monitor.setSymbols
          (Monitor.readSymbols files (Path.withExtension image "map")).1))
        (Board.imageMemory bytes) b ∧ b.ticking = true := by
  unfold loadBoard at loads
  cases loaded : (Board.new settings.cyclesPerTick).loadFile files image with
  | mk answer d =>
      rw [loaded] at loads
      cases answer with
      | error reason => cases loads
      | ok _ =>
          obtain rfl := Except.ok.inj loads
          exact Board.loadFile_resetOf (Board.new_silent _) loaded

/-! ### Commands -/

theorem Response.ofText_inj {text text' : String} (same : ofText text = ofText text') :
    text = text' :=
  congrFun (congrArg Response.text same) 0

theorem execute_run {json trace timer : Bool} {steps : Nat} {outcome : RunOutcome} {d : Board}
    (loads : loadBoard files settings image = .ok b) (unbroken : settings.breakpoints = [])
    (ran : (setTrace { b with ticking := timer } (trace || settings.trace)).run?
      (.unasked (some steps) []) = some (outcome, d)) :
    execute files settings json (.run image (some steps) [] trace timer) =
      ⟨runText json (settings.echoConsole && !json) outcome d, none⟩ := by
  have loads : loadBoard files settings
      (Command.run image (some steps) [] trace timer).image = .ok b := loads
  have none_set : settings.breakpointAddresses = .ok [] := by
    unfold Settings.breakpointAddresses
    rw [unbroken]
    rfl
  unfold execute
  rw [loads]
  dsimp only
  unfold executeRun
  rw [none_set]
  dsimp only
  rw [List.append_nil, ran]

theorem execute_registers {json : Bool} {steps : Nat} {outcome : RunOutcome} {d : Board}
    (loads : loadBoard files settings image = .ok b)
    (ran : (setTrace b false).run? (.unasked (some steps) []) = some (outcome, d)) :
    execute files settings json (.registers image steps) =
      .ofText (showBlock json (RunSummary.of outcome d).registers) := by
  have loads : loadBoard files settings (Command.registers image steps).image = .ok b := loads
  unfold execute
  rw [loads]
  dsimp only
  rw [ran]
  rfl

/-- The summaries of two runs tell the same but for what the console printed, whether or not the first
run's output was echoed before and whatever the timers did. -/
theorem summaryOf_besideTimer {d e : Board} (h : SameBesideTimer d e) (echo : Bool)
    {outcome outcome' : RunOutcome} (reason : outcome'.reason = outcome.reason)
    (steps : outcome'.steps = outcome.steps) : summaryOf echo outcome' d =
      { RunSummary.of outcome e with console := (summaryOf echo outcome' d).console } := by
  have regs : (takeEcho echo d).2.monitor.core.regs = e.monitor.core.regs := by
    unfold takeEcho
    split
    · exact congrArg Cpu.regs h.core.cpu
    · exact congrArg Cpu.regs h.core.cpu
  unfold summaryOf RunSummary.of Board.pc Monitor.pc
  rw [reason, steps, regs]

/-- A run with a limit and without breakpoints sums up what the other command lists after as many
steps, if the run lets the timer tick, or if the timer does not fire in the steps of the other
command. But for the console's output the summary is that of the board whose registers are listed. -/
theorem run_sums_up_registers (loads : loadBoard files settings image = .ok b)
    (unbroken : settings.breakpoints = []) (json : Bool) (steps : Nat) : ∃ outcome d,
      (setTrace b false).run? (.unasked (some steps) []) = some (outcome, d) ∧
      execute files settings json (.registers image steps) =
        .ofText (showBlock json (RunSummary.of outcome d).registers) ∧
      ∀ trace timer, timer = true ∨ d.timer.fired = 0 → ∃ outcome' d',
        let echo := settings.echoConsole && !json
        execute files settings json (.run image (some steps) [] trace timer) =
          ⟨runText json echo outcome' d', none⟩ ∧
        (summaryOf echo outcome' d').registers = (RunSummary.of outcome d).registers ∧
        summaryOf echo outcome' d' =
          { RunSummary.of outcome d with console := (summaryOf echo outcome' d').console } := by
  obtain ⟨outcome, d, ran⟩ := (setTrace b false).exists_run? steps []
  refine ⟨outcome, d, ran, execute_registers loads ran, ?_⟩
  intro trace timer condition
  obtain ⟨_, _, _, _, ticking⟩ := loadBoard_resetOf loads
  have same : ∀ i ≤ outcome.steps,
      SameBesideTimer ((setTrace { b with ticking := timer } (trace || settings.trace)).afterSteps i)
        ((setTrace b false).afterSteps i) := by
    intro i reached
    cases timer with
    | true =>
        have alike : Alike (setTrace { b with ticking := true } (trace || settings.trace))
            (setTrace b false) :=
          ⟨⟨.refl _, rfl, rfl⟩, ticking.symm⟩
        exact (alike.afterSteps i).besideTimer
    | false =>
        have unfired : d.timer.fired = 0 := condition.resolve_left Bool.false_ne_true
        have silent := Nat.le_trans (Board.fired_le_of_ran ran reached) (Nat.le_of_eq unfired)
        have first : SameBesideTimer (setTrace { b with ticking := false } (trace || settings.trace))
            (setTrace b false) := ⟨.refl _, rfl⟩
        exact (Board.afterSteps_of_unfired first rfl (Nat.le_trans silent (Nat.zero_le _))).1
  obtain ⟨outcome', d', ran', reason, length, beside⟩ := Board.run?_besideTimer rfl ran same
  have told := summaryOf_besideTimer beside (settings.echoConsole && !json) reason length
  exact ⟨outcome', d', execute_run loads unbroken ran',
    (congrArg RunSummary.registers told).trans rfl, told⟩

/-! ### A run without the timer -/

/-- A program at $FFEB that unmasks IRQ, enables the timer and then branches to itself; all vectors
point to its start. -/
def restless : Array UInt8 := #[0x1C, 0xEF, 0x7C, 0xFF, 0x03, 0x20, 0xFE, 0xFF, 0xEB, 0xFF, 0xEB,
  0xFF, 0xEB, 0xFF, 0xEB, 0xFF, 0xEB, 0xFF, 0xEB, 0xFF, 0xEB]

/-- The program alone in its directory. -/
def restlessFiles : Files := fun path =>
  if path = "image.bin" then .ok ⟨restless⟩ else .error .notFound

/-- A new board that was reset with the program. -/
def restlessBoard (period : UInt64) : Board :=
  ((Board.new period).setMonitor ((Board.new period).monitor.setSymbols .empty)).resetTo
    (Memory.blank.writeBytes 0xFFEB restless.toList)

theorem loadBoard_restless (settings : Settings) : ∃ b,
    loadBoard restlessFiles settings "image.bin" = .ok b ∧
      Alike b (restlessBoard settings.cyclesPerTick) := by
  have loads : ∃ b, loadBoard restlessFiles settings "image.bin" = .ok b := ⟨_, rfl⟩
  obtain ⟨b, loads⟩ := loads
  refine ⟨b, loads, ?_⟩
  obtain ⟨bytes, read, ⟨nonempty, small⟩, reset, ticking⟩ := loadBoard_resetOf loads
  have named : restlessFiles.readBytes "image.bin" = .ok restless := by
    unfold Files.readBytes restlessFiles
    rw [if_pos rfl]
    rfl
  obtain rfl : bytes = restless := Except.ok.inj (read.symm.trans named)
  have unnamed : (Monitor.readSymbols restlessFiles (Path.withExtension "image.bin" "map")).1 =
      .empty := by
    have other : Path.withExtension "image.bin" "map" ≠ "image.bin" := by decide +kernel
    unfold Monitor.readSymbols Files.readText restlessFiles
    rw [if_neg other]
  have start : Board.imageStart restless = 0xFFEB := by rfl
  rw [unnamed, imageMemory_eq nonempty small, start] at reset
  exact ⟨reset.resetTo, ticking⟩

theorem alike_settings {d : Board} (h : Alike b d) (ticking trace : Bool) :
    Alike (setTrace b trace) (setTrace d trace) ∧
      Alike (setTrace { b with ticking } trace) (setTrace { d with ticking } trace) :=
  ⟨⟨⟨h.same.core, h.same.timer, h.same.symbols⟩, h.ticking⟩,
    ⟨h.same.core, h.same.timer, h.same.symbols⟩, rfl⟩

/-- A run of a board ends with an equal board as that of an equal board. -/
theorem run?_alike {d e : Board} {limit : Nat} {outcome : RunOutcome} (alike : Alike b d)
    (ran : d.run? (.unasked (some limit) []) = some (outcome, e)) : ∃ outcome' e',
      b.run? (.unasked (some limit) []) = some (outcome', e') ∧ Alike e' e := by
  obtain ⟨outcome', e', ran'⟩ := b.exists_run? limit []
  have ended := Board.endAlike_of_going (RunControl.going_zero _ d) alike
    (Board.returns_of_run? ran) (Board.returns_of_run? ran')
  exact ⟨outcome', e', ran', ended.board.symm⟩

/-- With the usual period the timer does not fire in the first three steps. -/
theorem restless_summed_up : ∃ outcome d outcome' d',
    execute restlessFiles .default false (.registers "image.bin" 3) =
      .ofText (showBlock false (RunSummary.of outcome d).registers) ∧
    execute restlessFiles .default false (.run "image.bin" (some 3) [] false false) =
      ⟨runText false true outcome' d', none⟩ ∧
    (summaryOf true outcome' d').registers = (RunSummary.of outcome d).registers := by
  obtain ⟨b, loads, alike⟩ := loadBoard_restless .default
  obtain ⟨outcome, d, ran, listed, summed⟩ := run_sums_up_registers loads rfl false 3
  have alike : Alike b (restlessBoard 1000) := alike
  have silent : ((setTrace (restlessBoard 1000) false).run? (.unasked (some 3) [])).map
      (·.2.timer.fired) = some 0 := by
    rw [Board.run?_of_limit _ rfl]
    decide +kernel
  obtain ⟨⟨_, e⟩, ran', unfired⟩ := Option.map_eq_some_iff.mp silent
  obtain ⟨_, last, again, same⟩ := run?_alike (alike_settings alike false false).1 ran'
  have last_eq : d = last := congrArg Prod.snd (Option.some.inj (ran.symm.trans again))
  have unfired : d.timer.fired = 0 := by
    rw [last_eq, same.same.timer]
    exact unfired
  obtain ⟨outcome', d', shown, equal, _⟩ := summed false false (.inr unfired)
  exact ⟨outcome, d, outcome', d', listed, shown, equal⟩

/-- With a period of one cycle the timer has interrupted the program by its third step, but not in a
run that does not let it tick. -/
theorem run_differs_without_timer : ¬ ∀ (files : Files) (settings : Settings) (image : String)
    (b : Board) (json trace : Bool) (steps : Nat) (outcome : RunOutcome) (d : Board),
      loadBoard files settings image = .ok b → settings.breakpoints = [] →
      (setTrace { b with ticking := false } (trace || settings.trace)).run?
        (.unasked (some steps) []) = some (outcome, d) →
      execute files settings json (.run image (some steps) [] trace false) =
        ⟨runText json (settings.echoConsole && !json) outcome d, none⟩ →
      execute files settings json (.registers image steps) =
        .ofText (showBlock json (summaryOf (settings.echoConsole && !json) outcome d).registers) := by
  intro agree
  obtain ⟨b, loads, alike⟩ := loadBoard_restless { Settings.default with cyclesPerTick := 1 }
  have differ : ((setTrace { restlessBoard 1 with ticking := false } false).run?
      (.unasked (some 3) [])).map (fun r => showBlock false r.2.monitor.core.regs.listing) ≠
      ((setTrace (restlessBoard 1) false).run?
        (.unasked (some 3) [])).map (fun r => showBlock false r.2.monitor.core.regs.listing) := by
    rw [Board.run?_of_limit _ rfl, Board.run?_of_limit _ rfl]
    decide +kernel
  have alike : Alike b (restlessBoard 1) := alike
  obtain ⟨ticking, still⟩ := alike_settings alike false false
  obtain ⟨_, e, ran⟩ := (setTrace { restlessBoard 1 with ticking := false } false).exists_run? 3 []
  obtain ⟨_, e', ran'⟩ := (setTrace (restlessBoard 1) false).exists_run? 3 []
  obtain ⟨outcome, d, first, same⟩ := run?_alike still ran
  obtain ⟨outcome', d', second, same'⟩ := run?_alike ticking ran'
  have regs : d.monitor.core.regs = e.monitor.core.regs := congrArg Cpu.regs same.same.core.cpu
  have regs' : d'.monitor.core.regs = e'.monitor.core.regs := congrArg Cpu.regs same'.same.core.cpu
  have listed := agree _ _ _ b false false 3 outcome d loads rfl first (execute_run loads rfl first)
  rw [execute_registers loads second] at listed
  have shown : showBlock false d'.monitor.core.regs.listing =
      showBlock false d.monitor.core.regs.listing := Response.ofText_inj listed
  rw [regs, regs'] at shown
  rw [ran, ran'] at differ
  exact differ (congrArg some shown.symm)

end CommandLine
end Sim6809
