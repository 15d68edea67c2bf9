import Sim6809.Proofs.Board.Acknowledgement
import Sim6809.Proofs.Board.Output
import Sim6809.Proofs.Processor.Sends
import Sim6809.Proofs.Run.Outcome

/-!
What a program writes to the console. Of all the bytes that its steps send over the bus the console
collects those for its address, in their order, and keeps the last one in its cell. No byte is lost,
shown twice or out of its place when output is taken while the program runs, be it between two steps or
between two bytes of one instruction.
-/
namespace Sim6809

namespace Console

/-- The bytes that the console gets of those that are sent over the bus. -/
def received (sent : List (UInt16 × UInt8)) : List UInt8 :=
  (sent.filter fun (place, _) => place = address).map Prod.snd

/-- The console of a bus has collected some bytes behind those that it had, and its cell holds the last
of them. -/
structure Collected (before after : Bus) (bytes : List UInt8) : Prop where
  console : after.console.toList = before.console.toList ++ bytes
  cell : after.peek address = bytes.getLast?.getD (before.peek address)

/-- What happens on a bus with a console: bytes are read and written, by the processor or by a debugger,
and the output is taken. -/
inductive Event
  | read (master : Master) (address : UInt16)
  | write (master : Master) (address : UInt16) (value : UInt8)
  | take

/-- What the processor sends in an event. -/
def Event.sent? : Event → Option (UInt16 × UInt8)
  | .write .cpu address value => some (address, value)
  | _ => none

/-- The texts that are taken in some events, and the bus after them. -/
def follow (bus : Bus) : List Event → List String × Bus
  | [] => ([], bus)
  | .read master address :: events => follow (bus.read master address).2 events
  | .write master address value :: events => follow (bus.write master address value) events
  | .take :: events =>
    let (text, bus) := take bus
    let (texts, after) := follow bus events
    (text :: texts, after)

variable {b d e : Bus} {bytes more : List UInt8}

/-! ### Bytes on the bus -/

theorem received_append (sent later : List (UInt16 × UInt8)) :
    received (sent ++ later) = received sent ++ received later := by
  simp [received]

namespace Collected

theorem refl (b : Bus) : Collected b b [] := ⟨by simp, rfl⟩

theorem trans (h : Collected b d bytes) (k : Collected d e more) : Collected b e (bytes ++ more) where
  console := by rw [k.console, h.console, List.append_assoc]
  cell := by rw [k.cell, h.cell, List.getLast?_append, Option.getD_or]

/-- The console and its cell are all that counts. -/
theorem congr {b' d' : Bus} (h : Collected b d bytes) (console : b'.console = b.console)
    (cell : b'.peek address = b.peek address) (console' : d'.console = d.console)
    (cell' : d'.peek address = d.peek address) : Collected b' d' bytes := by
  constructor
  · rw [console', console, h.console]
  · rw [cell', cell, h.cell]

theorem of_sameState (h : Collected b d bytes) (same : Bus.SameState e d) : Collected b e bytes :=
  h.congr rfl rfl same.console (same.peek address)

theorem output (h : Collected b d bytes) : output d = output b ++ text bytes := by
  change text d.console.toList = text b.console.toList ++ text bytes
  rw [h.console, text_append]

end Collected

/-- A write elsewhere reaches neither the output nor the cell of the console. -/
theorem cpuWrite_beside (devices : b.writeHandlers = Board.devices) {place : UInt16}
    (elsewhere : place ≠ address) (value : UInt8) :
    (b.cpuWrite place value).console = b.console ∧
      (b.cpuWrite place value).peek address = b.peek address := by
  have poked (bus : Bus) (value : UInt8) : (bus.poke place value).peek address = bus.peek address :=
    bus.peek_poke_of_ne value (Ne.symm elsewhere)
  unfold Bus.cpuWrite
  rw [devices]
  by_cases control : place = Timer.controlAddress
  · subst control
    exact ⟨rfl, poked _ value⟩
  · by_cases status : place = Timer.statusAddress
    · subst status
      change (b.handleWrite Timer.statusAddress value .timerStatus).console = b.console ∧ _
      dsimp only [Bus.handleWrite]
      split
      · exact ⟨rfl, rfl⟩
      · exact ⟨rfl, poked b _⟩
    · rw [Bus.find?_devices_eq_none control status elsewhere]
      exact ⟨rfl, poked b value⟩

theorem collected_cpuWrite (devices : b.writeHandlers = Board.devices) (place : UInt16)
    (value : UInt8) : Collected b (b.cpuWrite place value) (received [(place, value)]) := by
  by_cases here : place = address
  · subst here
    unfold Bus.cpuWrite
    rw [devices]
    exact ⟨Array.toList_push, Bus.peek_poke_self _ address value⟩
  · obtain ⟨console, cell⟩ := cpuWrite_beside devices here value
    have none : received [(place, value)] = [] := by simp [received, here]
    rw [none]
    exact (Collected.refl b).congr rfl rfl console cell

/-- Of the bytes that a bus receives the console collects those for its address. -/
theorem collected_receive (devices : b.writeHandlers = Board.devices)
    (sent : List (UInt16 × UInt8)) : Collected b (b.receive sent) (received sent) := by
  induction sent generalizing b with
  | nil => exact .refl b
  | cons first rest ih =>
      have kept := (Bus.SameSetup.refl b).cpuWrite first.1 first.2
      have parts : received (first :: rest) = received [first] ++ received rest :=
        received_append [first] rest
      rw [parts]
      exact (collected_cpuWrite devices first.1 first.2).trans (ih (kept.writeHandlers.trans devices))

/-- The timer has nothing to do with the console. -/
theorem collected_advance (t : Timer) (b : Bus) (cycles : UInt64) :
    Collected b (t.advance b cycles).2.2 [] := by
  have shown : (b.poke Timer.statusAddress (b.peek Timer.statusAddress ||| 1)).peek address =
      b.peek address := b.peek_poke_of_ne _ (by decide)
  have fired : Collected b (t.fire b).2 [] := by
    dsimp only [Timer.fire]
    split
    · exact (Collected.refl b).congr rfl rfl rfl shown
    · exact (Collected.refl b).congr rfl rfl rfl shown
  dsimp only [Timer.advance]
  split
  · exact .refl b
  · split
    · exact .refl b
    · exact fired

/-- What is taken in some events and what remains after them is what was there before, with what the
processor sent to the console behind it. If nobody else writes there, the cell holds the last byte. -/
theorem follow_conserves (silent : b.readHandlers = []) (devices : b.writeHandlers = Board.devices)
    (events : List Event) :
    String.join (follow b events).1 ++ output (follow b events).2 =
        output b ++ text (received (events.filterMap Event.sent?)) ∧
      ((∀ value, .write .debugger address value ∉ events) → (follow b events).2.peek address =
        (received (events.filterMap Event.sent?)).getLast?.getD (b.peek address)) := by
  induction events generalizing b with
  | nil => exact ⟨by simp [follow, received, text], fun _ => rfl⟩
  | cons event events ih =>
      have weaken (alone : ∀ value, .write .debugger address value ∉ event :: events) (value : UInt8) :
          .write .debugger address value ∉ events := fun there =>
        alone value (List.mem_cons_of_mem event there)
      cases event with
      | read master place =>
          have same : (b.read master place).2 = b := by
            cases master with
            | cpu => exact congrArg Prod.snd (Bus.cpuRead_of_silent silent place)
            | debugger => rfl
          rw [follow, same]
          exact ⟨(ih silent devices).1, fun alone => (ih silent devices).2 (weaken alone)⟩
      | write master place value =>
          cases master with
          | cpu =>
              have kept := (Bus.SameSetup.refl b).cpuWrite place value
              have sent := collected_cpuWrite devices place value
              obtain ⟨texts, cell⟩ :=
                ih (kept.readHandlers.trans silent) (kept.writeHandlers.trans devices)
              have first : received (.filterMap Event.sent? (.write .cpu place value :: events)) =
                  received [(place, value)] ++ received (events.filterMap Event.sent?) :=
                received_append [(place, value)] _
              rw [first]
              constructor
              · rw [follow, Bus.write, texts, sent.output, text_append, String.append_assoc]
              · intro alone
                rw [follow, Bus.write, cell (weaken alone), sent.cell, List.getLast?_append,
                  Option.getD_or]
          | debugger =>
              obtain ⟨texts, cell⟩ := ih (b := b.poke place value) silent devices
              refine ⟨texts, fun alone => ?_⟩
              have elsewhere : address ≠ place := by
                rintro rfl
                exact alone value List.mem_cons_self
              rw [follow, Bus.write, cell (weaken alone), b.peek_poke_of_ne value elsewhere]
              rfl
      | take =>
          obtain ⟨texts, cell⟩ := ih (b := clear b) silent devices
          refine ⟨?_, fun alone => cell (weaken alone)⟩
          rw [follow, take]
          dsimp only
          rw [String.join_cons, String.append_assoc, texts]
          simp [output, clear]
          rfl

end Console

namespace Board

/-- The bytes that the first steps of a board send over its bus. -/
def sent (b : Board) : Nat → List (UInt16 × UInt8)
  | 0 => []
  | n + 1 => b.sent n ++ (b.afterSteps n).monitor.core.sent

variable {b : Board}

open Console (Collected received)

theorem collected_step (silent : b.bus.readHandlers = [])
    (devices : b.bus.writeHandlers = Board.devices) :
    Collected b.bus b.step.2.bus (received b.monitor.core.sent) := by
  have applied : Collected b.bus (b.monitor.core.applyRequests.bus.receive b.monitor.core.sent)
      (received b.monitor.core.sent) :=
    (Console.collected_receive (b := b.monitor.core.applyRequests.bus) devices _).congr rfl rfl rfl rfl
  have stepped := applied.of_sameState
    (b.monitor.step_core.2.1.bus.trans (Core.step_bus (c := b.monitor.core) silent))
  refine step_keeps (P := fun d => Collected b.bus d.bus _) stepped ?_
  intro d cycles collected
  have advanced := collected.trans (Console.collected_advance d.timer d.bus (.ofNat cycles))
  rwa [List.append_nil] at advanced

theorem collected_afterSteps (silent : b.bus.readHandlers = [])
    (devices : b.bus.writeHandlers = Board.devices) (n : Nat) :
    Collected b.bus (b.afterSteps n).bus (received (b.sent n)) := by
  induction n with
  | zero => exact .refl b.bus
  | succ n ih =>
      have kept := (b.afterSteps_setup n).bus
      rw [sent, Console.received_append]
      exact ih.trans (collected_step (kept.readHandlers.trans silent)
        (kept.writeHandlers.trans devices))

/-- The steps that a run has made, with the one that a fault ended it in. -/
def stepsMade (outcome : RunOutcome) : Nat :=
  match outcome.reason with
  | .fault _ => outcome.steps + 1
  | _ => outcome.steps

/-- A run leaves the bus as its steps do. -/
theorem collected_returns (silent : b.bus.readHandlers = [])
    (devices : b.bus.writeHandlers = Board.devices) {control : RunControl} {outcome : RunOutcome}
    {d : Board} (returned : b.Returns control outcome d) :
    Collected b.bus d.bus (received (b.sent (stepsMade outcome))) := by
  obtain ⟨fuel, ran⟩ := returned
  obtain ⟨questions, _, finished⟩ := finished_of_ran ran
  have steps := collected_afterSteps silent devices (stepsMade outcome)
  rw [finished.board]
  -- The records that a run leaves do not go to the console.
  have recorded (d : Board) (level : Level) (record : String) :
      Bus.SameState (d.setMonitor (d.monitor.addRecord level record)).bus d.bus :=
    ⟨rfl, rfl, rfl, rfl, rfl, rfl, rfl⟩
  have left : Bus.SameState ((b.afterSteps outcome.steps).left outcome.reason).bus
      (b.afterSteps (stepsMade outcome)).bus := by
    rcases outcome with ⟨reason, count, asked⟩
    cases reason with
    | fault fault => exact recorded _ .warn _
    | _ => exact .refl _
  exact steps.of_sameState ((recorded _ .debug _).trans left)

/-- Of the bytes that a program sends over the bus in some steps the output gets those for the console,
in their order, and the cell keeps the last of them. That is so however the sending of the bytes, or the
steps of the board, alternate with the taking of output, for what was taken and what remains then are
the same bytes together; and it is so for a run, whichever way it ends. -/
theorem output_conserved (silent : b.bus.readHandlers = [])
    (devices : b.bus.writeHandlers = Board.devices) (n : Nat) :
    Collected b.bus (b.afterSteps n).bus (received (b.sent n)) ∧
    (∀ (events : List Console.Event) (count : Nat),
      events.filterMap Console.Event.sent? = (b.sent n).take count →
      String.join (Console.follow b.bus events).1 ++ Console.output (Console.follow b.bus events).2 =
          Console.output b.bus ++ Console.text (received ((b.sent n).take count)) ∧
        ((∀ value, .write .debugger Console.address value ∉ events) →
          (Console.follow b.bus events).2.peek Console.address =
            (received ((b.sent n).take count)).getLast?.getD (b.bus.peek Console.address))) ∧
    (∀ turns : List Turn, turns.count .step = n →
      String.join (b.watched turns).1 ++ Console.output (b.watched turns).2.bus =
          Console.output b.bus ++ Console.text (received (b.sent n)) ∧
        (b.watched turns).2.bus.peek Console.address =
          (received (b.sent n)).getLast?.getD (b.bus.peek Console.address)) ∧
    ∀ control outcome d, b.Returns control outcome d → stepsMade outcome = n →
      Collected b.bus d.bus (received (b.sent n)) := by
  have steps := collected_afterSteps silent devices n
  refine ⟨steps, ?events, ?turns, ?runs⟩
  case events =>
    intro events count sent
    rw [← sent]
    exact Console.follow_conserves silent devices events
  case turns =>
    rintro turns rfl
    obtain ⟨bytes, untaken, taken, _, _, alike⟩ := (SameBesideOutput.refl b).watched turns
    have gained : bytes.toList = received (b.sent (turns.count .step)) := by
      have whole := steps.console
      rw [untaken, Array.toList_append] at whole
      exact List.append_cancel_left whole
    constructor
    · rw [taken, Array.toList_append, Console.text_append, gained]
      rfl
    · have cell : (b.watched turns).2.bus.peek Console.address =
          (b.afterSteps (turns.count .step)).bus.peek Console.address :=
        alike.core.bus.same.peek Console.address
      rw [cell, steps.cell]
  case runs =>
    rintro control outcome d returned rfl
    exact collected_returns silent devices returned

/-- A board with `STD $FEFF` and `PSHS A` at its program counter. The low byte of D goes to the console,
and so does the byte that is pushed. -/
def greeting : Board :=
  let b := Board.new 1000
  b.setMonitor (b.monitor.setCore {
    cpu := { Cpu.zero with
      regs := { Registers.zero with a := 0x69, b := 0x48, s := 0xFF01, pc := 0x2000 } }
    bus := b.bus.pokeBytes 0x2000 [0xFD, 0xFE, 0xFF, 0x34, 0x02] })

/-- The greeting is complete if its first letter is taken between the two instructions, and if it is
taken within the first of them and once again after a read. -/
theorem greeting_shown :
    let between := greeting.watched [.step, .take, .step]
    let within := Console.follow greeting.bus [.write .cpu 0xFEFF 0x69, .take,
      .write .cpu 0xFF00 0x48, .read .cpu 0xFF00, .take, .write .cpu 0xFF00 0x69]
    greeting.sent 2 = [(0xFEFF, 0x69), (0xFF00, 0x48), (0xFF00, 0x69)] ∧
    (greeting.afterSteps 2).bus.peek Console.address = 0x69 ∧
    String.join between.1 ++ Console.output between.2.bus = "Hi" ∧
    String.join within.1 ++ Console.output within.2 = "Hi" ∧
    ∃ outcome d, greeting.Returns (.unasked (some 2) []) outcome d ∧
      d.bus.console.toList = [0x48, 0x69] := by
  intro between within
  obtain ⟨steps, events, turns, runs⟩ :=
    output_conserved (b := greeting) rfl rfl 2
  have sent : greeting.sent 2 = [(0xFEFF, 0x69), (0xFF00, 0x48), (0xFF00, 0x69)] := by decide +kernel
  have ran : (runWithin 3 (.unasked (some 2) []) greeting).map Prod.fst = some ⟨.limit, 2, 0⟩ := by
    decide +kernel
  obtain ⟨⟨outcome, d⟩, returned, rfl⟩ := Option.map_eq_some_iff.mp ran
  rw [sent] at steps events turns runs
  have whole : Console.text [0x48, 0x69] = "Hi" := by decide
  refine ⟨sent, steps.cell, ?_, ?_, _, d, ⟨3, returned⟩, ?_⟩
  · exact (turns [.step, .take, .step] (by decide)).1.trans whole
  · exact (events [.write .cpu 0xFEFF 0x69, .take, .write .cpu 0xFF00 0x48, .read .cpu 0xFF00, .take,
      .write .cpu 0xFF00 0x69] 3 rfl).1.trans whole
  · exact (runs _ _ d ⟨3, returned⟩ rfl).console

end Board
end Sim6809
