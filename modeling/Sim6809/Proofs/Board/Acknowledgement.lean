import Sim6809.Proofs.Board.Period
import Sim6809.Proofs.Interrupt.Latest

/-!
The status register of the timer. Whatever instruction writes to it, a program can only acknowledge
a firing: bit 0 is cleared and IRQ is dropped together. So IRQ is up only while the bit shows a
firing, and no other bit changes between two resets.
-/
namespace Sim6809

namespace Timer

/-! ### Bits of the status register -/

theorem firedBit_raised (status : UInt8) : (status ||| 1) &&& 1 = 1 := by
  have all : ∀ n : Fin 256, (UInt8.ofFin n ||| 1) &&& 1 = 1 := by decide +kernel
  exact all status.toFin

theorem otherBits_raised (status : UInt8) : (status ||| 1) &&& 0xFE = status &&& 0xFE := by
  have all : ∀ n : Fin 256, (UInt8.ofFin n ||| 1) &&& 0xFE = UInt8.ofFin n &&& 0xFE := by
    decide +kernel
  exact all status.toFin

theorem otherBits_cleared (status : UInt8) : (status &&& 0xFE) &&& 0xFE = status &&& 0xFE := by
  rw [UInt8.and_assoc, UInt8.and_self]

end Timer

namespace Bus

variable {b : Bus} {address : UInt16}

theorem peek_poke_self (b : Bus) (address : UInt16) (value : UInt8) :
    (b.poke address value).peek address = value :=
  b.memory.read_write_self address value

theorem peek_poke_of_ne (b : Bus) {address other : UInt16} (value : UInt8) (h : other ≠ address) :
    (b.poke address value).peek other = b.peek other :=
  b.memory.read_write_of_ne value h

theorem find?_devices_eq_none (control : address ≠ Timer.controlAddress)
    (status : address ≠ Timer.statusAddress) (console : address ≠ Console.address) :
    Board.devices.find? address = none := by
  simp [Board.devices, Handlers.find?, List.lookup_cons, beq_false_of_ne, control, status, console]

/-- A write elsewhere leaves the status register alone and makes no request. -/
theorem cpuWrite_elsewhere (devices : b.writeHandlers = Board.devices)
    (elsewhere : address ≠ Timer.statusAddress) (value : UInt8) :
    (b.cpuWrite address value).peek Timer.statusAddress = b.peek Timer.statusAddress ∧
      (b.cpuWrite address value).requests = b.requests := by
  have poked (d : Bus) := d.peek_poke_of_ne value (Ne.symm elsewhere)
  unfold cpuWrite
  rw [devices]
  by_cases control : address = Timer.controlAddress
  · subst control
    exact ⟨poked _, rfl⟩
  · by_cases console : address = Console.address
    · subst console
      exact ⟨poked _, rfl⟩
    · rw [find?_devices_eq_none control elsewhere console]
      exact ⟨poked b, rfl⟩

/-- A write to the status register acknowledges a firing, or does nothing. -/
theorem cpuWrite_status (devices : b.writeHandlers = Board.devices) (value : UInt8) :
    b.cpuWrite Timer.statusAddress value =
      if value &&& 1 = 0 then b
      else (b.poke Timer.statusAddress (b.peek Timer.statusAddress &&& 0xFE)).requestLine
        (.deassert .irq) := by
  unfold cpuWrite
  rw [devices]
  rfl

end Bus

namespace Core

/-- IRQ is up, or will be by the waiting requests, only while the timer shows a firing, and the other
bits of its status register are those of a given byte. -/
structure ShowsFiring (status : UInt8) (c : Core) : Prop where
  readHandlers : c.bus.readHandlers = []
  writeHandlers : c.bus.writeHandlers = Board.devices
  fired : c.standing .irq = true → c.bus.peek Timer.statusAddress &&& 1 = 1
  others : c.bus.peek Timer.statusAddress &&& 0xFE = status &&& 0xFE

namespace ShowsFiring

variable {status : UInt8} {c d : Core}

theorem of_sameState (h : ShowsFiring status d) (same : SameState c d) : ShowsFiring status c where
  readHandlers := same.bus.readHandlers.trans h.readHandlers
  writeHandlers := same.bus.writeHandlers.trans h.writeHandlers
  fired := by
    rw [standing_eq, same.cpu, same.bus.requests, ← standing_eq, same.bus.peek]
    exact h.fired
  others := by
    rw [same.bus.peek]
    exact h.others

theorem writeByte (h : ShowsFiring status c) (address : UInt16) (value : UInt8) :
    ShowsFiring status (c.writeByte address value) := by
  have setup := (Bus.SameSetup.refl c.bus).cpuWrite address value
  refine ⟨setup.readHandlers.trans h.readHandlers, setup.writeHandlers.trans h.writeHandlers, ?_, ?_⟩
  · intro raised
    by_cases here : address = Timer.statusAddress
    · subst here
      have written := Bus.cpuWrite_status h.writeHandlers value
      unfold Core.writeByte at raised ⊢
      rw [written] at raised ⊢
      split at raised
      · rename_i idle
        rw [if_pos idle]
        exact h.fired raised
      · -- The acknowledgement drops IRQ behind everything that waits.
        have dropped (b : Bus) :
            Core.standing { c with bus := b.requestLine (.deassert .irq) } .irq = false :=
          standing_queue { c with bus := b } (.deassert .irq) .irq
        exact absurd ((dropped _).symm.trans raised) Bool.false_ne_true
    · obtain ⟨kept, requests⟩ := Bus.cpuWrite_elsewhere h.writeHandlers here value
      have same : (c.writeByte address value).standing .irq = c.standing .irq := by
        rw [standing_eq, standing_eq]
        exact congrArg (fun requests => (LineRequest.latest? requests _).getD _) requests
      exact (congrArg (· &&& 1) kept).trans (h.fired (same ▸ raised))
  · by_cases here : address = Timer.statusAddress
    · subst here
      refine Eq.trans ?_ h.others
      unfold Core.writeByte
      rw [Bus.cpuWrite_status h.writeHandlers value]
      split
      · rfl
      · exact (congrArg (· &&& 0xFE) (c.bus.peek_poke_self _ _)).trans (Timer.otherBits_cleared _)
    · exact (congrArg (· &&& 0xFE)
        (Bus.cpuWrite_elsewhere h.writeHandlers here value).1).trans h.others

theorem readByte (h : ShowsFiring status c) (address : UInt16) :
    ShowsFiring status (c.readByte address).2 := by
  rw [Core.readByte, Bus.cpuRead_of_silent h.readHandlers]
  exact h

/-- A line that is dropped, be it another one, does not raise IRQ. -/
theorem dropLine (h : ShowsFiring status c) (line : InterruptLine) :
    ShowsFiring status (c.setLine line false) := by
  refine ⟨h.readHandlers, h.writeHandlers, ?_, h.others⟩
  intro raised
  apply h.fired
  rw [standing_eq] at raised ⊢
  revert raised
  change (LineRequest.latest? c.bus.requests .irq).getD _ = true → _
  cases LineRequest.latest? c.bus.requests .irq with
  | some level => exact id
  | none =>
      intro raised
      have raised : (c.cpu.latches.set line false).isSet .irq = true := raised
      rw [Latches.isSet_set] at raised
      split at raised
      · cases raised
      · exact raised

end ShowsFiring

/-- No instruction raises IRQ or brings the status register out of step with it. -/
theorem showsFiring_stable (status : UInt8) : StepStable (ShowsFiring status) where
  setRegs h _ := ⟨h.readHandlers, h.writeHandlers, h.fired, h.others⟩
  setEa h _ := ⟨h.readHandlers, h.writeHandlers, h.fired, h.others⟩
  setWait h _ := ⟨h.readHandlers, h.writeHandlers, h.fired, h.others⟩
  addRecord h _ _ _ := ⟨h.readHandlers, h.writeHandlers, h.fired, h.others⟩
  readByte h address := h.readByte address
  writeByte h address value := h.writeByte address value
  account h _ := ⟨h.readHandlers, h.writeHandlers, h.fired, h.others⟩
  applyRequests h := ⟨h.readHandlers, h.writeHandlers, h.fired, h.others⟩
  dropLine h line := h.dropLine line
  countInterrupt h := ⟨h.readHandlers, h.writeHandlers, h.fired, h.others⟩

end Core

namespace Board

/-- The interrupt line and the status register of a board are in step. -/
def ShowsFiring (status : UInt8) (b : Board) : Prop := b.monitor.core.ShowsFiring status

variable {status : UInt8} {b d : Board}

/-- A firing raises IRQ only along with the bit that shows it. -/
theorem showsFiring_fire {c : Core} (h : c.ShowsFiring status) (t : Timer) :
    Core.ShowsFiring status { c with bus := (t.fire c.bus).2 } := by
  have setup := t.fire_setup c.bus
  have shown : (t.fire c.bus).2.peek Timer.statusAddress =
      c.bus.peek Timer.statusAddress ||| 1 := by
    unfold Timer.fire
    dsimp only
    split
    · exact c.bus.peek_poke_self _ _
    · exact c.bus.peek_poke_self _ _
  refine ⟨setup.readHandlers.trans h.readHandlers, setup.writeHandlers.trans h.writeHandlers, ?_, ?_⟩
  · intro _
    exact (congrArg (· &&& 1) shown).trans (Timer.firedBit_raised _)
  · exact (congrArg (· &&& 0xFE) shown).trans ((Timer.otherBits_raised _).trans h.others)

theorem standing_fire {t : Timer} {c : Core} (enabled : Timer.isEnabled c.bus = true) :
    Core.standing { c with bus := (t.fire c.bus).2 } .irq = true := by
  unfold Timer.fire
  dsimp only
  rw [Timer.isEnabled_poke_status, if_pos enabled]
  exact Core.standing_queue { c with bus := c.bus.poke _ _ } (.assert .irq) .irq

theorem showsFiring_advance {c : Core} (h : c.ShowsFiring status) (t : Timer) (cycles : UInt64) :
    Core.ShowsFiring status { c with bus := (t.advance c.bus cycles).2.2 } := by
  dsimp only [Timer.advance]
  split
  · exact h
  · split
    · exact h
    · exact showsFiring_fire h _

theorem showsFiring_step (h : b.ShowsFiring status) : b.step.2.ShowsFiring status := by
  obtain ⟨_, core, _⟩ := b.monitor.step_core
  have stepped : b.monitor.step.2.core.ShowsFiring status :=
    ((Core.showsFiring_stable status).step h).of_sameState core
  exact step_keeps stepped fun d cycles shows =>
    showsFiring_advance shows d.timer (.ofNat cycles)

theorem showsFiring_run? {control : RunControl} {result : RunOutcome × Board}
    (ran : b.run? control = some result) (h : b.ShowsFiring status) :
    result.2.ShowsFiring status :=
  run?_keeps (fun _ => showsFiring_step)
    (fun _ _ _ h => ⟨h.readHandlers, h.writeHandlers, h.fired, h.others⟩) ran h

/-- A board that a reset has just left has no request for IRQ. -/
theorem ResetOf.showsFiring {image : Memory} (h : ResetOf b image d)
    (devices : b.bus.writeHandlers = Board.devices) (silent : b.bus.readHandlers = []) :
    d.ShowsFiring (d.bus.peek Timer.statusAddress) where
  readHandlers := h.readHandlers.trans silent
  writeHandlers := h.writeHandlers.trans devices
  fired := by
    intro raised
    rw [Core.standing_eq] at raised
    have requests : d.monitor.core.bus.requests = [] := h.requests
    have cpu : d.monitor.core.cpu = .afterReset _ := h.cpu
    rw [requests, cpu] at raised
    cases raised
  others := rfl

end Board

/-- Whether an interaction leaves the memory and the lines to the program and to the timer, and is no
reset. -/
def Interaction.unattended : Interaction → Bool
  | step | run _ | stepOver _ _ | fireTimer | assign _ | setTicking _ | takeOutput => true
  | poke _ _ | change _ | queue _ | reset => false

namespace Board

/-- A board has come from a new one by loads, resets and unattended interactions, the first board
given being as the last load or reset left it. -/
inductive Unattended (period : UInt64) : Board → Board → Prop
  | new : Unattended period (.new period) (.new period)
  | load {origin b loaded : Board} {image : Array UInt8} : Unattended period origin b →
      b.load image = (.ok (), loaded) → Unattended period loaded loaded
  | reset {origin b : Board} : Unattended period origin b → Unattended period b.reset b.reset
  | act {origin b d : Board} {interaction : Interaction} : Unattended period origin b →
      interaction.unattended = true → b.after? interaction = some d → Unattended period origin d

variable {status : UInt8} {b d : Board}

theorem showsFiring_act {interaction : Interaction} (allowed : interaction.unattended = true)
    (acted : b.after? interaction = some d) (h : b.ShowsFiring status) : d.ShowsFiring status := by
  cases interaction with
  | step => exact Option.some.inj acted ▸ showsFiring_step h
  | run control =>
      obtain ⟨result, ran, rfl⟩ := Option.map_eq_some_iff.mp acted
      exact showsFiring_run? ran h
  | stepOver limit breakpoints =>
      obtain ⟨result, ran, rfl⟩ := Option.map_eq_some_iff.mp acted
      exact showsFiring_run? ran ⟨h.readHandlers, h.writeHandlers, h.fired, h.others⟩
  | fireTimer => exact Option.some.inj acted ▸ showsFiring_fire h b.timer
  | assign regs =>
      exact Option.some.inj acted ▸ ⟨h.readHandlers, h.writeHandlers, h.fired, h.others⟩
  | setTicking ticking => exact Option.some.inj acted ▸ h
  | takeOutput =>
      exact Option.some.inj acted ▸ ⟨h.readHandlers, h.writeHandlers, h.fired, h.others⟩
  | poke _ _ => cases allowed
  | change _ => cases allowed
  | queue _ => cases allowed
  | reset => cases allowed

theorem Unattended.showsFiring {period : UInt64} {origin b : Board}
    (h : Unattended period origin b) : b.ShowsFiring (origin.bus.peek Timer.statusAddress) := by
  induction h with
  | new => exact ⟨rfl, rfl, nofun, rfl⟩
  | load _ accepted ih =>
      exact (resetOf_load ih.readHandlers accepted).showsFiring ih.writeHandlers ih.readHandlers
  | reset _ ih =>
      exact (resetOf_reset ih.readHandlers).showsFiring ih.writeHandlers ih.readHandlers
  | act _ allowed acted ih => exact showsFiring_act allowed acted ih

/-- However a board is used short of pokes and of lines raised from outside, IRQ is asserted, with
the requests that still wait, only while bit 0 of the timer's status register is set, and the other
bits of that register are those that the last load or reset left. -/
theorem irq_only_while_fired {period : UInt64} {origin b : Board} (h : Unattended period origin b) :
    ((b.cpu.latches.applyAll b.bus.requests).irq = true →
      b.bus.peek Timer.statusAddress &&& 1 = 1) ∧
    b.bus.peek Timer.statusAddress &&& 0xFE = origin.bus.peek Timer.statusAddress &&& 0xFE :=
  ⟨h.showsFiring.fired, h.showsFiring.others⟩

/-- An image that begins at the status register and enables the timer. -/
def enablingImage : Array UInt8 := #[0x12, 0x01] ++ Array.replicate 252 0x12

theorem irq_after_firing : ∃ loaded b : Board,
    (Board.new 1000).load enablingImage = (.ok (), loaded) ∧ loaded.fireTimer = b ∧
    Unattended 1000 loaded b ∧ (b.cpu.latches.applyAll b.bus.requests).irq = true ∧
    b.bus.peek Timer.statusAddress &&& 1 = 1 ∧
    b.bus.peek Timer.statusAddress &&& 0xFE = loaded.bus.peek Timer.statusAddress &&& 0xFE := by
  obtain ⟨loaded, accepted⟩ : ∃ loaded, (Board.new 1000).load enablingImage = (.ok (), loaded) :=
    ⟨_, load_ok_iff.mpr ⟨by simp [enablingImage, Memory.size], rfl⟩⟩
  have enabled : Timer.isEnabled loaded.bus = true := by
    unfold Timer.isEnabled Bus.peek
    rw [(resetOf_load rfl accepted).memory]
    unfold imageMemory Bus.loadImage
    rw [Memory.read_ofFn]
    simp [enablingImage, imageStart, Timer.controlAddress, Memory.size]
  have fired : loaded.after? .fireTimer = some loaded.fireTimer := rfl
  have reached : Unattended 1000 loaded loaded.fireTimer :=
    .act (.load .new accepted) rfl fired
  obtain ⟨shown, kept⟩ := irq_only_while_fired reached
  have raised := standing_fire (t := loaded.timer) (c := loaded.monitor.core) enabled
  exact ⟨loaded, _, accepted, rfl, reached, raised, shown raised, kept⟩

end Board
end Sim6809
