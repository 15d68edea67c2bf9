import Sim6809.Proofs.Board.Replay

/-!
The output of a console is never read back. Boards that differ in what waits there to be taken step
alike, and each step adds the same bytes to both outputs. So whoever takes output from a running board
does not change what it does next.
-/
namespace Sim6809

namespace Console

/-- Bytes as the console shows them, each as the character with its code. -/
def text (bytes : List UInt8) : String := String.ofList (bytes.map Char.ofUInt8)

theorem text_append (bytes more : List UInt8) : text (bytes ++ more) = text bytes ++ text more := by
  simp [text]

variable {b d : Bus}

/-! ### Accesses -/

theorem clear_sameState (h : Bus.SameState b d) : Bus.SameState (clear b) (clear d) :=
  ⟨h.memory, h.loaded, h.readHandlers, h.writeHandlers, h.requests, rfl, h.host⟩

theorem cpuRead_clear (b : Bus) (address : UInt16) : (clear b).cpuRead address =
    ((b.cpuRead address).1, clear (b.cpuRead address).2) := by
  have found : (clear b).readHandlers.find? address = b.readHandlers.find? address := rfl
  unfold Bus.cpuRead
  rw [found]
  cases b.readHandlers.find? address with
  | none => rfl
  | some handler => rfl

theorem cpuRead_console (b : Bus) (address : UInt16) :
    (b.cpuRead address).2.console = b.console := by
  dsimp only [Bus.cpuRead]
  split
  · rfl
  · rfl

theorem handleWrite_clear (b : Bus) (address : UInt16) (value : UInt8) (handler : WriteHandler) :
    clear ((clear b).handleWrite address value handler) =
      clear (b.handleWrite address value handler) := by
  cases handler with
  | hosted react =>
      dsimp only [Bus.handleWrite, clear]
      split
      · rfl
      · rfl
  | console => rfl
  | timerControl => rfl
  | timerStatus =>
      dsimp only [Bus.handleWrite]
      split
      · rfl
      · rfl

theorem cpuWrite_clear (b : Bus) (address : UInt16) (value : UInt8) :
    clear ((clear b).cpuWrite address value) = clear (b.cpuWrite address value) := by
  have found : (clear b).writeHandlers.find? address = b.writeHandlers.find? address := rfl
  unfold Bus.cpuWrite
  rw [found]
  cases b.writeHandlers.find? address with
  | none => rfl
  | some handler => exact handleWrite_clear b address value handler

/-- What a write adds to the output. -/
def added (b : Bus) (address : UInt16) (value : UInt8) : Array UInt8 :=
  match b.writeHandlers.find? address with
  | some .console => #[value]
  | _ => #[]

theorem cpuWrite_console (b : Bus) (address : UInt16) (value : UInt8) :
    (b.cpuWrite address value).console = b.console ++ added b address value := by
  unfold Bus.cpuWrite added
  cases b.writeHandlers.find? address with
  | none => simp [Bus.poke]
  | some handler =>
      cases handler with
      | hosted react =>
          dsimp only [Bus.handleWrite]
          split
          · simp [Bus.poke, Bus.settle]
          · simp [Bus.settle]
      | console => simp [Bus.handleWrite, Bus.poke]
      | timerStatus =>
          dsimp only [Bus.handleWrite]
          split
          · simp
          · simp [Bus.poke, Bus.requestLine]
      | timerControl => simp [Bus.handleWrite, Bus.poke, Bus.addRecord]

end Console

namespace Bus

/-- Equal buses, but for the log and the outputs. The same bytes were added to both outputs, which were
different ones before. -/
structure SameBesideOutput (first second : Array UInt8) (b d : Bus) : Prop where
  same : SameState (Console.clear b) (Console.clear d)
  added : ∃ bytes, b.console = first ++ bytes ∧ d.console = second ++ bytes

namespace SameBesideOutput

variable {first second : Array UInt8} {b d : Bus}

theorem refl (b : Bus) : SameBesideOutput b.console b.console b b :=
  ⟨.refl _, #[], Array.append_empty.symm, Array.append_empty.symm⟩

/-- A change that does not touch the outputs keeps the relation if it keeps equal buses equal. -/
theorem of_same {b' d' : Bus} (h : SameBesideOutput first second b d)
    (same : SameState (Console.clear b') (Console.clear d')) (left : b'.console = b.console)
    (right : d'.console = d.console) : SameBesideOutput first second b' d' := by
  obtain ⟨bytes, before, before'⟩ := h.added
  exact ⟨same, bytes, left.trans before, right.trans before'⟩

theorem congr {b' d' : Bus} (h : SameBesideOutput first second b d) (left : SameState b' b)
    (right : SameState d' d) : SameBesideOutput first second b' d' :=
  h.of_same ((Console.clear_sameState left).trans
    (h.same.trans (Console.clear_sameState right).symm)) left.console right.console

theorem addRecord (h : SameBesideOutput first second b d) (level : Level) (text : String) :
    SameBesideOutput first second (b.addRecord level text) (d.addRecord level text) :=
  h.of_same h.same.addRecord rfl rfl

theorem poke (h : SameBesideOutput first second b d) (address : UInt16) (value : UInt8) :
    SameBesideOutput first second (b.poke address value) (d.poke address value) :=
  h.of_same (h.same.poke address value) rfl rfl

theorem requestLine (h : SameBesideOutput first second b d) (request : LineRequest) :
    SameBesideOutput first second (b.requestLine request) (d.requestLine request) :=
  h.of_same (h.same.requestLine request) rfl rfl

theorem cpuRead (h : SameBesideOutput first second b d) (address : UInt16) :
    (b.cpuRead address).1 = (d.cpuRead address).1 ∧
      SameBesideOutput first second (b.cpuRead address).2 (d.cpuRead address).2 := by
  have read := h.same.cpuRead address
  rw [Console.cpuRead_clear, Console.cpuRead_clear] at read
  exact ⟨read.1, h.of_same read.2 (Console.cpuRead_console b address)
    (Console.cpuRead_console d address)⟩

theorem cpuWrite (h : SameBesideOutput first second b d) (address : UInt16) (value : UInt8) :
    SameBesideOutput first second (b.cpuWrite address value) (d.cpuWrite address value) := by
  have wrote := Console.clear_sameState (h.same.cpuWrite address value)
  rw [Console.cpuWrite_clear, Console.cpuWrite_clear] at wrote
  obtain ⟨bytes, before, before'⟩ := h.added
  have same : Console.added d address value = Console.added b address value := by
    unfold Console.added
    rw [show d.writeHandlers = b.writeHandlers from h.same.writeHandlers.symm]
  refine ⟨wrote, bytes ++ Console.added b address value, ?_, ?_⟩
  · rw [Console.cpuWrite_console, before, Array.append_assoc]
  · rw [Console.cpuWrite_console, before', same, Array.append_assoc]

end SameBesideOutput
end Bus

namespace Core

/-- Equal processors on buses that differ in their outputs. -/
structure SameBesideOutput (first second : Array UInt8) (c d : Core) : Prop where
  cpu : c.cpu = d.cpu
  bus : Bus.SameBesideOutput first second c.bus d.bus

/-- No instruction can tell what waits in the output. -/
theorem sameBesideOutput_congruence (first second : Array UInt8) :
    StepCongruence (SameBesideOutput first second) where
  regs r := congrArg Cpu.regs r.cpu
  setRegs r regs := ⟨congrArg (fun cpu : Cpu => { cpu with regs }) r.cpu, r.bus⟩
  setEa r ea := ⟨congrArg (fun cpu : Cpu => { cpu with ea }) r.cpu, r.bus⟩
  setWait r wait := ⟨congrArg (fun cpu : Cpu => { cpu with wait }) r.cpu, r.bus⟩
  addRecord r level text _ := ⟨r.cpu, r.bus.addRecord level text⟩
  readByte r address :=
    ⟨(r.bus.cpuRead address).1, r.cpu, (r.bus.cpuRead address).2⟩
  writeByte r address value := ⟨r.cpu, r.bus.cpuWrite address value⟩
  wait r := congrArg Cpu.wait r.cpu
  latches r := congrArg Cpu.latches r.cpu
  applyRequests := by
    intro c d r
    have latches : c.cpu.latches.applyAll c.bus.requests =
        d.cpu.latches.applyAll d.bus.requests := by
      rw [r.cpu, show c.bus.requests = d.bus.requests from r.bus.same.requests]
    refine ⟨?_, r.bus.of_same ?_ rfl rfl⟩
    · unfold Core.applyRequests
      rw [latches, r.cpu]
    · exact ⟨r.bus.same.memory, r.bus.same.loaded, r.bus.same.readHandlers,
        r.bus.same.writeHandlers, rfl, rfl, r.bus.same.host⟩
  setLine r line level :=
    ⟨congrArg (fun cpu : Cpu => { cpu with latches := cpu.latches.set line level }) r.cpu, r.bus⟩
  countInterrupt r :=
    ⟨congrArg (fun cpu : Cpu => { cpu with interrupts := cpu.interrupts + 1 }) r.cpu, r.bus⟩
  account r cycles :=
    ⟨congrArg (fun cpu : Cpu =>
      { cpu with cycles := cpu.cycles + cycles, executed := cpu.executed + 1 }) r.cpu, r.bus⟩

end Core

namespace Timer

theorem advance_besideOutput {first second : Array UInt8} (t : Timer) {b d : Bus}
    (h : Bus.SameBesideOutput first second b d) (cycles : UInt64) :
    (t.advance b cycles).2.1 = (t.advance d cycles).2.1 ∧
      Bus.SameBesideOutput first second (t.advance b cycles).2.2 (t.advance d cycles).2.2 := by
  have enabled {b d : Bus} (h : Bus.SameBesideOutput first second b d) :
      isEnabled b = isEnabled d :=
    isEnabled_alike (b := Console.clear b) (d := Console.clear d) h.same
  have status : b.peek statusAddress = d.peek statusAddress := h.same.peek statusAddress
  have fired : Bus.SameBesideOutput first second (t.fire b).2 (t.fire d).2 := by
    have shown := h.poke statusAddress (b.peek statusAddress ||| 1)
    dsimp only [fire]
    rw [← status, enabled shown]
    split
    · exact shown.requestLine _
    · exact shown
  dsimp only [advance]
  rw [enabled h]
  split
  · exact ⟨rfl, h⟩
  · split
    · exact ⟨rfl, h⟩
    · exact ⟨rfl, fired⟩

end Timer

namespace Board

/-- Equal boards, but for the outputs, the symbols and what is only left behind for a reader. -/
structure SameBesideOutput (first second : Array UInt8) (b d : Board) : Prop where
  core : b.monitor.core.SameBesideOutput first second d.monitor.core
  timer : b.timer = d.timer
  ticking : b.ticking = d.ticking

theorem SameBesideOutput.refl (b : Board) : SameBesideOutput b.bus.console b.bus.console b b :=
  ⟨⟨rfl, .refl b.bus⟩, rfl, rfl⟩

variable {first second : Array UInt8} {b d : Board}

theorem SameBesideOutput.advanceTimer (h : SameBesideOutput first second b d) (cycles : Nat) :
    SameBesideOutput first second (b.advanceTimer cycles) (d.advanceTimer cycles) := by
  have advanced := d.timer.advance_besideOutput h.core.bus (.ofNat cycles)
  unfold Board.advanceTimer
  rw [h.timer]
  exact ⟨⟨h.core.cpu, advanced.2⟩, advanced.1, h.ticking⟩

/-- A step adds the same bytes to both outputs. -/
theorem SameBesideOutput.step (h : SameBesideOutput first second b d) :
    SameBesideOutput first second b.step.2 d.step.2 := by
  obtain ⟨answer, left, _⟩ := b.monitor.step_core
  obtain ⟨answer', right, _⟩ := d.monitor.step_core
  have stepped := (Core.sameBesideOutput_congruence first second).step h.core
  have core : b.monitor.step.2.core.SameBesideOutput first second d.monitor.step.2.core :=
    ⟨left.cpu.trans (stepped.2.cpu.trans right.cpu.symm), stepped.2.bus.congr left.bus right.bus⟩
  have answers : b.monitor.step.1.isOk = d.monitor.step.1.isOk := by
    rw [answer, answer', stepped.1]
    cases d.monitor.core.step.1 with
    | error fault => rfl
    | ok cycles => rfl
  exact step_relates answers h.ticking h.core.cpu core.cpu ⟨core, h.timer, h.ticking⟩
    fun _ _ cycles same => same.advanceTimer cycles

/-! ### Taking output from a running board -/

/-- What happens to a board that is watched: it steps, or its output is taken. -/
inductive Turn
  | step
  | take
  deriving DecidableEq

/-- The texts that are taken from a board, and the board afterwards. -/
def watched (b : Board) : List Turn → List String × Board
  | [] => ([], b)
  | .step :: turns => b.step.2.watched turns
  | .take :: turns =>
    let (text, bus) := Console.take b.bus
    let (texts, after) := (b.setBus bus).watched turns
    (text :: texts, after)

/-- Texts are taken from one board and none from the other. What was taken and what remains then is what
was there before, with the bytes behind it that the other board has added to its output. -/
theorem SameBesideOutput.watched (h : SameBesideOutput first second b d) (turns : List Turn) :
    ∃ bytes : Array UInt8, (d.afterSteps (turns.count .step)).bus.console = second ++ bytes ∧
      String.join (b.watched turns).1 ++ Console.output (b.watched turns).2.bus =
        Console.text (first ++ bytes).toList ∧
      ∃ left right, SameBesideOutput left right (b.watched turns).2
        (d.afterSteps (turns.count .step)) := by
  induction turns generalizing b d first second with
  | nil =>
      obtain ⟨bytes, left, right⟩ := h.core.bus.added
      refine ⟨bytes, right, ?_, first, second, h⟩
      rw [← left]
      exact String.empty_append
  | cons turn turns ih =>
      cases turn with
      | step =>
          have shifted : d.afterSteps (turns.count .step + 1) =
              d.step.2.afterSteps (turns.count .step) := by
            rw [Nat.add_comm]
            exact d.afterSteps_add 1 _
          rw [List.count_cons_self, shifted]
          exact ih h.step
      | take =>
          obtain ⟨old, left, right⟩ := h.core.bus.added
          have taken : SameBesideOutput #[] d.bus.console (b.setBus (Console.clear b.bus)) d :=
            ⟨⟨h.core.cpu, h.core.bus.same, #[], rfl, by simp; rfl⟩, h.timer, h.ticking⟩
          obtain ⟨bytes, output, texts, alike⟩ := ih taken
          rw [List.count_cons_of_ne (by decide)]
          refine ⟨old ++ bytes, ?_, ?_, alike⟩
          · rw [output, show d.bus.console = second ++ old from right, Array.append_assoc]
          · have first : Console.output b.bus = Console.text (first ++ old).toList := by
              rw [← left]
              rfl
            dsimp only [Board.watched, Console.take]
            rw [String.join_cons, String.append_assoc, texts, first, ← Console.text_append]
            simp

end Board
end Sim6809
