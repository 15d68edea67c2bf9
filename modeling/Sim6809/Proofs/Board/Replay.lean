import Sim6809.Proofs.Board.Setup

/-!
A reset replays the loaded program. Whatever was done to a board since it was loaded, a reset brings
it back to the state in which a new board is after loading the same image, and from there both step
alike.
-/
namespace Sim6809

/-- What a user does to a board between two loads. -/
inductive Interaction
  | step
  | run (control : RunControl)
  | stepOver (limit : Option Nat) (breakpoints : List UInt16)
  | fireTimer
  | poke (address : UInt16) (value : UInt8)
  | assign (regs : Registers)
  /-- Raises or drops a line at once. -/
  | change (request : LineRequest)
  /-- Raises or drops a line by the queue. -/
  | queue (request : LineRequest)
  | setTicking (ticking : Bool)
  | takeOutput
  | reset

namespace Board

/-- The board after an interaction; nothing if that is a run that never ends. -/
def after? (b : Board) : Interaction → Option Board
  | .step => some b.step.2
  | .run control => (b.run? control).map Prod.snd
  | .stepOver limit breakpoints => (b.stepOver? limit breakpoints).map Prod.snd
  | .fireTimer => some b.fireTimer
  | .poke address value => some (b.setBus (b.bus.poke address value))
  | .assign regs => some (b.setMonitor (b.monitor.setCore (b.monitor.core.setRegs regs)))
  | .change request => some
      (b.setMonitor (b.monitor.setCore (b.monitor.core.setLine request.line request.level)))
  | .queue request => some (b.setBus (b.bus.requestLine request))
  | .setTicking ticking => some { b with ticking }
  | .takeOutput => some (b.setBus (Console.take b.bus).2)
  | .reset => some b.reset

/-- The board after interactions in their order. -/
def afterAll? (b : Board) : List Interaction → Option Board
  | [] => some b
  | interaction :: rest => (b.after? interaction).bind (·.afterAll? rest)

/-- A board that has come from a new one by loads and interactions. A rejected image changes
nothing. -/
inductive Reached (period : UInt64) : Board → Prop
  | new : Reached period (.new period)
  | load {b loaded : Board} {image : Array UInt8} :
      Reached period b → b.load image = (.ok (), loaded) → Reached period loaded
  | act {b d : Board} {interaction : Interaction} :
      Reached period b → b.after? interaction = some d → Reached period d

/-! ### What a reset leaves -/

/-- A board is another one after a reset with the given image. -/
structure ResetOf (b : Board) (image : Memory) (d : Board) : Prop where
  cpu : d.cpu = .afterReset (image.readWord Event.reset.vector)
  memory : d.bus.memory = image
  loaded : d.bus.loaded = image
  requests : d.bus.requests = []
  console : d.bus.console = #[]
  timer : d.timer = b.timer.reset
  readHandlers : d.bus.readHandlers = b.bus.readHandlers
  writeHandlers : d.bus.writeHandlers = b.bus.writeHandlers
  host : d.bus.host = b.bus.host
  symbols : d.monitor.symbols = b.monitor.symbols

theorem ResetOf.devices {b d : Board} {image : Memory} (h : ResetOf b image d) :
    SameDevices d b :=
  ⟨h.readHandlers, h.writeHandlers, h.host, by rw [h.timer]; rfl, h.symbols⟩

end Board

theorem Core.reset_of_silent {c : Core} (silent : c.bus.readHandlers = []) : c.reset =
    ({ c with cpu := .afterReset (c.bus.peekWord Event.reset.vector) } : Core).addRecord .debug
      ("reset: PC=$" ++ Hex.word (c.bus.peekWord Event.reset.vector)) := by
  unfold Core.reset Core.readWord
  rw [Bus.cpuReadWord_of_silent silent]

namespace Board

theorem resetOf_reset {b : Board} (silent : b.bus.readHandlers = []) :
    ResetOf b b.bus.loaded b.reset := by
  have core : b.monitor.reset.core = _ :=
    Core.reset_of_silent (c := { b.monitor.core with bus := b.monitor.bus.reset }) silent
  have bus : b.reset.bus = Console.clear b.monitor.reset.core.bus := rfl
  have cpu : b.reset.cpu = b.monitor.reset.core.cpu := rfl
  constructor
  · rw [cpu, core]
    rfl
  · rw [bus, core]
    rfl
  · rw [bus, core]
    rfl
  · rw [bus, core]
    rfl
  · rw [bus]
    rfl
  · rfl
  · rw [bus, core]
    rfl
  · rw [bus, core]
    rfl
  · rw [bus, core]
    rfl
  · rfl

/-- Where an image begins that ends at the top of memory. -/
def imageStart (image : Array UInt8) : UInt16 := UInt16.ofNat (Memory.size - image.size)

/-- The board with an image in its memory, before the reset that ends a load. -/
def withImage (b : Board) (image : Array UInt8) : Board :=
  b.setMonitor ((b.monitor.setBus (b.monitor.bus.loadImage image (imageStart image))).addRecord
    .debug ("loaded " ++ toString image.size ++ " bytes at $" ++ Hex.word (imageStart image)))

/-- The memory that holds an image at its top and zeros below. -/
def imageMemory (image : Array UInt8) : Memory :=
  (Bus.blank.loadImage image (imageStart image)).memory

theorem load_monitor (b : Board) (image : Array UInt8) : b.monitor.load image =
    if image.size = 0 then (.error .emptyImage, b.monitor)
    else if Memory.size < image.size then (.error (.imageTooLarge image.size), b.monitor)
    else (.ok (), (b.withImage image).monitor.reset) := by
  unfold Monitor.load withImage imageStart
  rfl

theorem reset_withImage (b : Board) (image : Array UInt8) : (b.withImage image).reset =
    (b.setMonitor (b.withImage image).monitor.reset).resetDevices := by
  unfold reset withImage setMonitor
  rfl

/-- A load looks at nothing but the image for whether to accept it, and ends with a reset. -/
theorem load_ok_iff {b d : Board} {image : Array UInt8} : b.load image = (.ok (), d) ↔
    (image.size ≠ 0 ∧ ¬ Memory.size < image.size) ∧ (b.withImage image).reset = d := by
  unfold load
  rw [load_monitor, reset_withImage]
  by_cases empty : image.size = 0
  · rw [if_pos empty]
    constructor
    · intro accepted
      cases accepted
    · intro accepted
      exact absurd empty accepted.1.1
  · by_cases large : Memory.size < image.size
    · rw [if_neg empty, if_pos large]
      constructor
      · intro accepted
        cases accepted
      · intro accepted
        exact absurd large accepted.1.2
    · rw [if_neg empty, if_neg large]
      constructor
      · intro accepted
        exact ⟨⟨empty, large⟩, congrArg Prod.snd accepted⟩
      · intro accepted
        exact congrArg (Prod.mk _) accepted.2

theorem loaded_withImage (b : Board) (image : Array UInt8) :
    (b.withImage image).bus.loaded = imageMemory image := rfl

theorem withImage_devices (b : Board) (image : Array UInt8) :
    SameDevices (b.withImage image) b ∧ (b.withImage image).timer = b.timer := by
  -- The image is put aside, as comparing its cells with those of the board would unfold it.
  have placed (memory : Memory) (text : String) :
      SameDevices (b.setMonitor ((b.monitor.setBus
        { b.monitor.bus with memory, loaded := memory }).addRecord .debug text)) b ∧
      (b.setMonitor ((b.monitor.setBus
        { b.monitor.bus with memory, loaded := memory }).addRecord .debug text)).timer = b.timer :=
    ⟨⟨rfl, rfl, rfl, rfl, rfl⟩, rfl⟩
  exact placed _ _

theorem resetOf_load {b d : Board} {image : Array UInt8} (silent : b.bus.readHandlers = [])
    (accepted : b.load image = (.ok (), d)) : ResetOf b (imageMemory image) d := by
  obtain ⟨_, rfl⟩ := load_ok_iff.mp accepted
  obtain ⟨devices, timer⟩ := b.withImage_devices image
  have same := resetOf_reset (devices.readHandlers.trans silent)
  rw [loaded_withImage] at same
  exact ⟨same.cpu, same.memory, same.loaded, same.requests, same.console,
    same.timer.trans (congrArg Timer.reset timer),
    same.readHandlers.trans devices.readHandlers, same.writeHandlers.trans devices.writeHandlers,
    same.host.trans devices.host, same.symbols.trans devices.symbols⟩

/-! ### What interactions keep -/

theorem after?_setup {b d : Board} (silent : b.bus.readHandlers = [])
    {interaction : Interaction} (acted : b.after? interaction = some d) : SameSetup d b := by
  cases interaction with
  | step => exact Option.some.inj acted ▸ step_setup b
  | run control =>
      obtain ⟨result, ran, rfl⟩ := Option.map_eq_some_iff.mp acted
      exact run?_setup ran
  | stepOver limit breakpoints =>
      obtain ⟨result, ran, rfl⟩ := Option.map_eq_some_iff.mp acted
      have noted : SameSetup (b.setMonitor
          (b.monitor.addComplaints [b.monitor.disassemble b.pc])) b :=
        ⟨⟨rfl, rfl, rfl, fun _ => rfl⟩, rfl, rfl⟩
      exact (run?_setup ran).trans noted
  | fireTimer => exact Option.some.inj acted ▸ ⟨b.timer.fire_setup b.bus, rfl, rfl⟩
  | poke address value => exact Option.some.inj acted ▸ ⟨⟨rfl, rfl, rfl, fun _ => rfl⟩, rfl, rfl⟩
  | assign regs => exact Option.some.inj acted ▸ ⟨⟨rfl, rfl, rfl, fun _ => rfl⟩, rfl, rfl⟩
  | change request => exact Option.some.inj acted ▸ ⟨⟨rfl, rfl, rfl, fun _ => rfl⟩, rfl, rfl⟩
  | queue request => exact Option.some.inj acted ▸ ⟨⟨rfl, rfl, rfl, fun _ => rfl⟩, rfl, rfl⟩
  | setTicking ticking => exact Option.some.inj acted ▸ ⟨⟨rfl, rfl, rfl, fun _ => rfl⟩, rfl, rfl⟩
  | takeOutput => exact Option.some.inj acted ▸ ⟨⟨rfl, rfl, rfl, fun _ => rfl⟩, rfl, rfl⟩
  | reset =>
      have same := resetOf_reset silent
      exact Option.some.inj acted ▸ ⟨⟨same.loaded, same.readHandlers, same.writeHandlers,
        fun _ => same.host⟩, same.devices.period, same.symbols⟩

theorem afterAll?_setup {b d : Board} (silent : b.bus.readHandlers = [])
    {interactions : List Interaction} (acted : b.afterAll? interactions = some d) :
    SameSetup d b := by
  induction interactions generalizing b with
  | nil => exact Option.some.inj acted ▸ .refl b
  | cons interaction rest ih =>
      obtain ⟨e, first, later⟩ := Option.bind_eq_some_iff.mp acted
      have kept := after?_setup silent first
      exact (ih (kept.bus.readHandlers.trans silent) later).trans kept

theorem new_silent (period : UInt64) : (Board.new period).bus.readHandlers = [] := rfl

/-- The write handlers that a board installs. -/
def devices : Handlers WriteHandler :=
  [(Timer.controlAddress, .timerControl), (Timer.statusAddress, .timerStatus),
    (Console.address, .console)]

theorem new_unhosted (period : UInt64) : (Board.new period).bus.Unhosted := by
  refine ⟨new_silent period, ?_⟩
  change ∀ entry ∈ devices, _
  simp [devices]

theorem Reached.devices {period : UInt64} {b : Board} (h : Reached period b) :
    SameDevices b (.new period) := by
  induction h with
  | new => exact .refl _
  | @load b loaded image _ accepted ih =>
      have silent := ih.readHandlers.trans (new_silent period)
      exact (resetOf_load silent accepted).devices.trans ih
  | @act b d interaction _ acted ih =>
      have unhosted := (new_unhosted period).of_handlers ih.readHandlers ih.writeHandlers
      exact ((after?_setup unhosted.readHandlers acted).devices unhosted).trans ih

/-- A board has the handlers of its devices alone, whatever its owner does. -/
theorem Reached.unhosted {period : UInt64} {b : Board} (h : Reached period b) : b.bus.Unhosted :=
  (new_unhosted period).of_handlers h.devices.readHandlers h.devices.writeHandlers

/-! ### Equal boards -/

/-- Equal boards, but for the log and the trace: the processors, memories, images, queues, output,
handlers and what they keep, timers and symbols are equal. -/
structure SameState (b d : Board) : Prop where
  core : Core.SameState b.monitor.core d.monitor.core
  timer : b.timer = d.timer
  symbols : b.monitor.symbols = d.monitor.symbols

/-- Boards with the same devices are equal after a reset with the same image. -/
theorem ResetOf.sameState {b b' d d' : Board} {image : Memory} (h : ResetOf b image d)
    (k : ResetOf b' image d') (devices : SameDevices b b') : SameState d d' where
  core :=
    { cpu := h.cpu.trans k.cpu.symm
      bus :=
        { memory := h.memory.trans k.memory.symm
          loaded := h.loaded.trans k.loaded.symm
          readHandlers := h.readHandlers.trans (devices.readHandlers.trans k.readHandlers.symm)
          writeHandlers := h.writeHandlers.trans (devices.writeHandlers.trans k.writeHandlers.symm)
          requests := h.requests.trans k.requests.symm
          console := h.console.trans k.console.symm
          host := h.host.trans (devices.host.trans k.host.symm) } }
  timer := by
    rw [h.timer, k.timer]
    unfold Timer.reset
    rw [devices.period]
  symbols := h.symbols.trans (devices.symbols.trans k.symbols.symm)

end Board

theorem Monitor.step_alike {m n : Monitor} (core : Core.SameState m.core n.core)
    (symbols : m.symbols = n.symbols) : m.step.1 = n.step.1 ∧
      Core.SameState m.step.2.core n.step.2.core ∧ m.step.2.symbols = n.step.2.symbols := by
  have upcoming : m.upcoming? = n.upcoming? := by
    unfold upcoming? disassemble Monitor.memory Monitor.pc Monitor.cpu Core.regs
    rw [core.cpu, core.bus.memory, symbols]
  have stepped := Core.sameState_congruence.step core
  have first := m.step_core
  have second := n.step_core
  refine ⟨?_, ?_, ?_⟩
  · rw [first.1, second.1, stepped.1, upcoming]
  · exact first.2.1.trans (stepped.2.trans second.2.1.symm)
  · rw [first.2.2, second.2.2, symbols]

namespace Timer

theorem isEnabled_alike {b d : Bus} (h : Bus.SameState b d) : isEnabled b = isEnabled d := by
  unfold isEnabled
  rw [h.peek]

theorem fire_alike (t : Timer) {b d : Bus} (h : Bus.SameState b d) :
    Bus.SameState (t.fire b).2 (t.fire d).2 := by
  have shown := h.poke statusAddress (b.peek statusAddress ||| 1)
  dsimp only [fire]
  rw [← h.peek, isEnabled_alike shown]
  split
  · exact shown.requestLine _
  · exact shown

theorem advance_alike (t : Timer) {b d : Bus} (h : Bus.SameState b d) (cycles : UInt64) :
    (t.advance b cycles).2.1 = (t.advance d cycles).2.1 ∧
      Bus.SameState (t.advance b cycles).2.2 (t.advance d cycles).2.2 := by
  dsimp only [advance]
  rw [isEnabled_alike h]
  split
  · exact ⟨rfl, h⟩
  · split
    · exact ⟨rfl, h⟩
    · exact ⟨rfl, fire_alike _ h⟩

end Timer

namespace Board

theorem advanceTimer_alike {b d : Board} (h : SameState b d) (cycles : Nat) :
    SameState (b.advanceTimer cycles) (d.advanceTimer cycles) := by
  have advanced := d.timer.advance_alike h.core.bus (.ofNat cycles)
  unfold advanceTimer
  rw [h.timer]
  exact ⟨⟨h.core.cpu, advanced.2⟩, advanced.1, h.symbols⟩

/-- Equal boards whose timers both tick, or both do not, step alike. -/
theorem step_alike {b d : Board} (h : SameState b d) (ticking : b.ticking = d.ticking) :
    b.step.1 = d.step.1 ∧ SameState b.step.2 d.step.2 ∧ b.step.2.ticking = d.step.2.ticking := by
  obtain ⟨answer, core, symbols⟩ := Monitor.step_alike h.core h.symbols
  refine ⟨by rw [b.step_answer, d.step_answer, answer], ?_⟩
  apply step_relates (R := fun b d => SameState b d ∧ b.ticking = d.ticking) (congrArg _ answer)
    ticking h.core.cpu core.cpu ⟨⟨core, h.timer, symbols⟩, ticking⟩
  exact fun _ _ cycles same => ⟨advanceTimer_alike same.1 cycles, same.2⟩

/-- The board after a number of steps, whether or not they fail. -/
def afterSteps (b : Board) : Nat → Board
  | 0 => b
  | n + 1 => (b.afterSteps n).step.2

theorem afterSteps_add (b : Board) (m n : Nat) :
    b.afterSteps (m + n) = (b.afterSteps m).afterSteps n := by
  induction n with
  | zero => rfl
  | succ n ih => exact congrArg (fun d => d.step.2) ih

theorem afterSteps_setup (b : Board) (n : Nat) : SameSetup (b.afterSteps n) b := by
  induction n with
  | zero => exact .refl b
  | succ n ih => exact (step_setup _).trans ih

theorem afterSteps_alike {b d : Board} (h : SameState b d) (ticking : b.ticking = d.ticking)
    (n : Nat) : SameState (b.afterSteps n) (d.afterSteps n) ∧
      (b.afterSteps n).ticking = (d.afterSteps n).ticking := by
  induction n with
  | zero => exact ⟨h, ticking⟩
  | succ n ih => exact (step_alike ih.1 ih.2).2

/-- However a board was used before it loaded an image and whatever was done to it since, a reset
makes it equal to a new board that loads the image, and the same number of steps gives the same
results and equal boards. -/
theorem reset_replays {period : UInt64} {old loaded b : Board} {image : Array UInt8}
    {interactions : List Interaction} (reached : Reached period old)
    (accepted : old.load image = (.ok (), loaded))
    (acted : loaded.afterAll? interactions = some b) :
    ∃ fresh, (Board.new period).load image = (.ok (), fresh) ∧ SameState b.reset fresh ∧
      ∀ ticking n,
        let replay := { b.reset with ticking }.afterSteps n
        let first := { fresh with ticking }.afterSteps n
        SameState replay first ∧ replay.step.1 = first.step.1 := by
  have before := reached.devices
  have silent := before.readHandlers.trans (new_silent period)
  have loading := resetOf_load silent accepted
  obtain ⟨small, _⟩ := load_ok_iff.mp accepted
  obtain ⟨fresh, loads⟩ : ∃ fresh, (Board.new period).load image = (.ok (), fresh) :=
    ⟨_, load_ok_iff.mpr ⟨small, rfl⟩⟩
  have kept := afterAll?_setup (loading.readHandlers.trans silent) acted
  have unhosted := (reached.load accepted).unhosted
  have devices : SameDevices b (.new period) :=
    (kept.devices unhosted).trans (loading.devices.trans before)
  have reset := resetOf_reset (devices.readHandlers.trans (new_silent period))
  rw [kept.bus.loaded.trans loading.loaded] at reset
  have same := reset.sameState (resetOf_load (new_silent period) loads) devices
  refine ⟨fresh, loads, same, ?_⟩
  intro ticking n
  have ticked : SameState { b.reset with ticking } { fresh with ticking } :=
    ⟨same.core, same.timer, same.symbols⟩
  have stepped := afterSteps_alike ticked rfl n
  exact ⟨stepped.1, (step_alike stepped.1 stepped.2).1⟩

theorem reset_replays_nop : ∃ loaded b fresh,
    (Board.new 1000).load #[0x12, 0xFF, 0xFD] = (.ok (), loaded) ∧
    loaded.afterAll? [.step, .fireTimer, .poke 0xFFFD 0x00] = some b ∧
    (Board.new 1000).load #[0x12, 0xFF, 0xFD] = (.ok (), fresh) ∧ SameState b.reset fresh := by
  have accepted : (Board.new 1000).load #[0x12, 0xFF, 0xFD] = (.ok (), _) :=
    load_ok_iff.mpr ⟨⟨by decide, by decide⟩, rfl⟩
  have acted : ((Board.new 1000).withImage #[0x12, 0xFF, 0xFD]).reset.afterAll?
      [.step, .fireTimer, .poke 0xFFFD 0x00] = some _ := rfl
  obtain ⟨fresh, loads, same, _⟩ := reset_replays .new accepted acted
  exact ⟨_, _, fresh, accepted, acted, loads, same⟩

end Board
end Sim6809
