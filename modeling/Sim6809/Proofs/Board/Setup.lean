import Sim6809.Board.Run
import Sim6809.Proofs.Processor.SameState

/-!
Boards from the outside. A user steps and runs a board, pokes into its memory and registers and raises
its interrupt lines. None of it reaches what a reset depends on: the loaded image, the handlers, the
timer's period and the symbols.
-/
namespace Sim6809

namespace Bus

/-- Memory alone answers reads, and what handles writes belongs to devices. -/
structure Unhosted (b : Bus) : Prop where
  readHandlers : b.readHandlers = []
  devices : ∀ entry ∈ b.writeHandlers, ∀ react, entry.2 ≠ .hosted react

/-- Equal images to bring back and equal handlers; if none of these is the host's, what such handlers
keep is the same, too. -/
structure SameSetup (b d : Bus) : Prop where
  loaded : b.loaded = d.loaded
  readHandlers : b.readHandlers = d.readHandlers
  writeHandlers : b.writeHandlers = d.writeHandlers
  host : d.Unhosted → b.host = d.host

variable {b d e : Bus}

theorem Unhosted.of_handlers (h : d.Unhosted) (reads : b.readHandlers = d.readHandlers)
    (writes : b.writeHandlers = d.writeHandlers) : b.Unhosted := by
  refine ⟨reads.trans h.readHandlers, ?_⟩
  rw [writes]
  exact h.devices

theorem Unhosted.find?_ne_hosted (h : b.Unhosted) {address : UInt16}
    {react : HostState → Memory → UInt8 → Bool × Reaction} :
    b.writeHandlers.find? address ≠ some (.hosted react) := by
  intro found
  obtain ⟨before, after, installed, _⟩ := List.lookup_eq_some_iff.mp found
  have member : (address, .hosted react) ∈ b.writeHandlers :=
    installed ▸ List.mem_append_right before List.mem_cons_self
  exact h.devices _ member react rfl

theorem Plain.unhosted (plain : b.Plain) : b.Unhosted := by
  refine ⟨plain.1, ?_⟩
  rw [plain.2]
  exact nofun

theorem SameState.setup (h : SameState b d) : SameSetup b d :=
  ⟨h.loaded, h.readHandlers, h.writeHandlers, fun _ => h.host⟩

namespace SameSetup

theorem refl (b : Bus) : SameSetup b b := ⟨rfl, rfl, rfl, fun _ => rfl⟩

theorem trans (h : SameSetup b d) (k : SameSetup d e) : SameSetup b e where
  loaded := h.loaded.trans k.loaded
  readHandlers := h.readHandlers.trans k.readHandlers
  writeHandlers := h.writeHandlers.trans k.writeHandlers
  host unhosted :=
    (h.host (unhosted.of_handlers k.readHandlers k.writeHandlers)).trans (k.host unhosted)

theorem poke (h : SameSetup b d) (address : UInt16) (value : UInt8) :
    SameSetup (b.poke address value) d := ⟨h.loaded, h.readHandlers, h.writeHandlers, h.host⟩

theorem requestLine (h : SameSetup b d) (request : LineRequest) :
    SameSetup (b.requestLine request) d := ⟨h.loaded, h.readHandlers, h.writeHandlers, h.host⟩

/-- A handler of the host has been called, so the setup has one. -/
theorem settle (h : SameSetup b d) (hosted : ¬ d.Unhosted) (reaction : Reaction) :
    SameSetup (b.settle reaction) d :=
  ⟨h.loaded, h.readHandlers, h.writeHandlers, fun unhosted => absurd unhosted hosted⟩

theorem cpuRead (h : SameSetup b d) (address : UInt16) :
    SameSetup (b.cpuRead address).2 d := by
  dsimp only [Bus.cpuRead]
  split
  · exact h
  · rename_i found
    refine h.settle (fun unhosted => ?_) _
    rw [h.readHandlers, unhosted.readHandlers] at found
    cases found

theorem cpuWrite (h : SameSetup b d) (address : UInt16) (value : UInt8) :
    SameSetup (b.cpuWrite address value) d := by
  unfold Bus.cpuWrite
  split
  · exact h.poke address value
  · rename_i handler found
    cases handler with
    | hosted react =>
        have hosted : ¬ d.Unhosted := fun unhosted =>
          (unhosted.of_handlers h.readHandlers h.writeHandlers).find?_ne_hosted found
        dsimp only [Bus.handleWrite]
        split
        · exact (h.settle hosted _).poke address value
        · exact h.settle hosted _
    | console => exact ⟨h.loaded, h.readHandlers, h.writeHandlers, h.host⟩
    | timerStatus =>
        dsimp only [Bus.handleWrite]
        split
        · exact h
        · exact (h.poke address _).requestLine _
    | timerControl => exact ⟨h.loaded, h.readHandlers, h.writeHandlers, h.host⟩

end SameSetup
end Bus

/-- No instruction changes the image to bring back or installs a handler. -/
theorem Core.sameSetup_stable (d : Bus) : StepStable fun c => Bus.SameSetup c.bus d where
  setRegs h _ := h
  setEa h _ := h
  setWait h _ := h
  addRecord h _ _ _ := ⟨h.loaded, h.readHandlers, h.writeHandlers, h.host⟩
  readByte h address := h.cpuRead address
  writeByte h address value := h.cpuWrite address value
  account h _ := h
  applyRequests h := ⟨h.loaded, h.readHandlers, h.writeHandlers, h.host⟩
  dropLine h _ := h
  countInterrupt h := h

namespace Monitor

theorem addComplaints_sameState (m : Monitor) (ops : List Operation) :
    Core.SameState (m.addComplaints ops).core m.core :=
  ⟨rfl, rfl, rfl, rfl, rfl, rfl, rfl, rfl⟩

theorem addTrace_sameState (m : Monitor) (line : String) :
    Core.SameState (m.addTrace line).core m.core ∧ (m.addTrace line).symbols = m.symbols := by
  unfold addTrace
  split
  · exact ⟨.refl _, rfl⟩
  · exact ⟨⟨rfl, rfl, rfl, rfl, rfl, rfl, rfl, rfl⟩, rfl⟩

/-- Listing and tracing are no part of a step: the processor steps as it does on its own. -/
theorem step_core (m : Monitor) : m.step.1 = m.core.step.1.map (fun _ => m.upcoming?) ∧
    Core.SameState m.step.2.core m.core.step.2 ∧ m.step.2.symbols = m.symbols := by
  have stepped := Core.sameState_congruence.step (m.addComplaints_sameState m.upcoming?.toList)
  dsimp only [step]
  revert stepped
  rcases (m.addComplaints m.upcoming?.toList).core.step with ⟨result, c⟩
  rcases m.core.step with ⟨_, d⟩
  rintro ⟨rfl, same⟩
  cases result with
  | error fault => exact ⟨rfl, same, rfl⟩
  | ok cycles =>
      dsimp only
      split
      · exact ⟨rfl, (addTrace_sameState _ _).1.trans same, (addTrace_sameState _ _).2⟩
      · exact ⟨rfl, same, rfl⟩

end Monitor

namespace Timer

theorem fire_setup (t : Timer) (bus : Bus) : Bus.SameSetup (t.fire bus).2 bus := by
  dsimp only [fire]
  split
  · exact ⟨rfl, rfl, rfl, fun _ => rfl⟩
  · exact ⟨rfl, rfl, rfl, fun _ => rfl⟩

theorem advance_setup (t : Timer) (bus : Bus) (cycles : UInt64) :
    (t.advance bus cycles).2.1.period = t.period ∧
      Bus.SameSetup (t.advance bus cycles).2.2 bus := by
  dsimp only [advance]
  split
  · exact ⟨rfl, .refl bus⟩
  · split
    · exact ⟨rfl, .refl bus⟩
    · exact ⟨rfl, fire_setup _ bus⟩

end Timer

namespace Board

/-- Equal handlers, timer periods and symbols, and equal keepings of the host's handlers. -/
structure SameDevices (b d : Board) : Prop where
  readHandlers : b.bus.readHandlers = d.bus.readHandlers
  writeHandlers : b.bus.writeHandlers = d.bus.writeHandlers
  host : b.bus.host = d.bus.host
  period : b.timer.period = d.timer.period
  symbols : b.monitor.symbols = d.monitor.symbols

theorem SameDevices.refl (b : Board) : SameDevices b b := ⟨rfl, rfl, rfl, rfl, rfl⟩

theorem SameDevices.trans {b d e : Board} (h : SameDevices b d) (k : SameDevices d e) :
    SameDevices b e :=
  ⟨h.readHandlers.trans k.readHandlers, h.writeHandlers.trans k.writeHandlers, h.host.trans k.host,
    h.period.trans k.period, h.symbols.trans k.symbols⟩

/-- Equal devices and the same loaded image. -/
structure SameSetup (b d : Board) : Prop where
  bus : Bus.SameSetup b.bus d.bus
  period : b.timer.period = d.timer.period
  symbols : b.monitor.symbols = d.monitor.symbols

namespace SameSetup

theorem refl (b : Board) : SameSetup b b := ⟨.refl b.bus, rfl, rfl⟩

theorem devices {b d : Board} (h : SameSetup b d) (unhosted : d.bus.Unhosted) : SameDevices b d :=
  ⟨h.bus.readHandlers, h.bus.writeHandlers, h.bus.host unhosted, h.period, h.symbols⟩

theorem trans {b d e : Board} (h : SameSetup b d) (k : SameSetup d e) : SameSetup b e :=
  ⟨h.bus.trans k.bus, h.period.trans k.period, h.symbols.trans k.symbols⟩

end SameSetup

theorem step_answer (b : Board) : b.step.1 = b.monitor.step.1 := by
  dsimp only [step]
  rcases b.monitor.step with ⟨result, m⟩
  cases result with
  | error fault => rfl
  | ok op => rfl

/-- What a step of the monitor and then the timer keep, a step keeps. -/
theorem step_keeps {P : Board → Prop} {b : Board} (monitor : P (b.setMonitor b.monitor.step.2))
    (timer : ∀ d cycles, P d → P (d.advanceTimer cycles)) : P b.step.2 := by
  dsimp only [step]
  revert monitor
  rcases b.monitor.step with ⟨result, m⟩
  intro monitor
  cases result with
  | error fault => exact monitor
  | ok op =>
      dsimp only
      split
      · exact timer _ _ monitor
      · exact monitor

/-- Two boards stay related by a step if their monitors and then their timers keep them so. -/
theorem step_relates {R : Board → Board → Prop} {b d : Board}
    (answers : b.monitor.step.1.isOk = d.monitor.step.1.isOk) (ticking : b.ticking = d.ticking)
    (before : b.cpu = d.cpu) (after : b.monitor.step.2.cpu = d.monitor.step.2.cpu)
    (monitors : R (b.setMonitor b.monitor.step.2) (d.setMonitor d.monitor.step.2))
    (timers : ∀ b d cycles, R b d → R (b.advanceTimer cycles) (d.advanceTimer cycles)) :
    R b.step.2 d.step.2 := by
  dsimp only [step]
  revert answers after monitors
  rcases b.monitor.step with ⟨result, m⟩
  rcases d.monitor.step with ⟨result', n⟩
  intro answers after monitors
  cases result with
  | error fault =>
      cases result' with
      | error fault => exact monitors
      | ok op => cases answers
  | ok op =>
      cases result' with
      | error fault => cases answers
      | ok op =>
          dsimp only at after ⊢
          rw [ticking, before, after]
          split
          · exact timers _ _ _ monitors
          · exact monitors

theorem step_setup (b : Board) : SameSetup b.step.2 b := by
  obtain ⟨_, core, symbols⟩ := b.monitor.step_core
  have stepped : Bus.SameSetup b.monitor.step.2.core.bus b.bus :=
    core.bus.setup.trans ((Core.sameSetup_stable b.bus).step (.refl b.bus))
  refine step_keeps (P := fun d => SameSetup d b) ⟨stepped, rfl, symbols⟩ ?_
  intro d cycles same
  have advanced := d.timer.advance_setup d.bus (.ofNat cycles)
  exact ⟨advanced.2.trans same.bus, advanced.1.trans same.period, same.symbols⟩

theorem round_keeps {P : Board → Prop} (step : ∀ b, P b → P b.step.2)
    (record : ∀ b level text, P b → P (b.setMonitor (b.monitor.addRecord level text)))
    (control : RunControl) (steps asked : Nat) {b : Board} (p : P b) :
    (round control steps asked b).elim (fun ended => P ended.2) fun next => P next.2 := by
  have stepped := step b p
  unfold round
  split
  · exact p
  · dsimp only
    split
    · exact p
    · revert stepped
      rcases b.step with ⟨answer, next⟩
      intro stepped
      cases answer with
      | error fault => exact record next _ _ stepped
      | ok op =>
          dsimp only
          split
          · exact stepped
          · exact stepped

/-- What steps and log records keep, a run keeps. -/
theorem goOn_keeps {P : Board → Prop} (step : ∀ b, P b → P b.step.2)
    (record : ∀ b level text, P b → P (b.setMonitor (b.monitor.addRecord level text)))
    {control : RunControl} {steps asked : Nat} {b : Board} {result : RunOutcome × Board}
    (ran : goOn control steps asked b = some result) (p : P b) : P result.2 := by
  refine goOn.partial_correctness control (fun _ _ b result => P b → P result.2) ?_ _ _ _ _ ran p
  intro rest later steps asked b result ran p
  have kept := round_keeps step record control steps asked p
  revert ran kept
  rcases round control steps asked b with ended | ⟨asked', d⟩
  · intro ran kept
    exact Option.some.inj ran ▸ kept
  · exact later _ _ _ _

theorem run?_keeps {P : Board → Prop} (step : ∀ b, P b → P b.step.2)
    (record : ∀ b level text, P b → P (b.setMonitor (b.monitor.addRecord level text)))
    {control : RunControl} {b : Board} {result : RunOutcome × Board}
    (ran : b.run? control = some result) (p : P b) : P result.2 := by
  obtain ⟨⟨outcome, ended⟩, continued, rfl⟩ := Option.map_eq_some_iff.mp ran
  exact record ended _ _ (goOn_keeps step record continued p)

theorem run?_setup {b : Board} {control : RunControl} {result : RunOutcome × Board}
    (ran : b.run? control = some result) : SameSetup result.2 b :=
  run?_keeps (fun d h => (step_setup d).trans h)
    (fun _ _ _ h => ⟨⟨h.bus.loaded, h.bus.readHandlers, h.bus.writeHandlers, h.bus.host⟩, h.period,
      h.symbols⟩)
    ran (.refl b)

end Board
end Sim6809
