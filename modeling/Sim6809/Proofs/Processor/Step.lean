import Sim6809.Proofs.Processor.Congruence

/-!
The phases of a step: the waiting requests are applied, an interrupt may be admitted, and unless the
step ends there or the processor waits, an instruction is fetched, its operand is located and it is
executed. Each phase keeps what its primitives keep, and so does the step as a whole.
-/
namespace Sim6809.Core

/-! ### The instruction -/

/-- The entry of the opcode map for the instruction at the program counter. -/
def fetched (c : Core) : Opcode := Opcode.lookup c.fetchOpcode.1.1 c.fetchOpcode.1.2

theorem fetched_mode {c : Core} {i : Instruction} {mode : AddressMode} (h : c.fetched.instruction = i)
    (only : i.mode? = some mode) : c.fetched.mode = mode :=
  Opcode.mode_of_mode? _ _ ((congrArg Instruction.mode? h).trans only)

/-- Makes a log record for an undefined opcode. -/
def noteUndefined (c : Core) (opcode : Page × UInt8) (start : UInt16) : Core :=
  if (Opcode.lookup? opcode.1 opcode.2).isNone then
    c.addRecord .warn (undefinedText opcode.1 opcode.2 start)
  else c

/-- The processor as it executes the instruction at the program counter, after the cycles of the
addressing mode. -/
def located (c : Core) : Nat × Core :=
  (c.fetchOpcode.2.noteUndefined c.fetchOpcode.1 c.regs.pc).locate c.fetched.mode

theorem perform_eq (c : Core) : c.perform =
    ((c.located.2.execute c.fetched.instruction).1.map (c.fetched.cycles + c.located.1 + ·),
      (c.located.2.execute c.fetched.instruction).2) := by
  dsimp only [perform]
  split
  · rename_i extra d executed
    have executed : c.located.2.execute c.fetched.instruction = (.ok extra, d) := executed
    rw [executed]
    rfl
  · rename_i fault d executed
    have executed : c.located.2.execute c.fetched.instruction = (.error fault, d) := executed
    rw [executed]
    rfl

theorem execute_of_isCall (c : Core) {i : Instruction} (call : i.isCall = true) :
    c.execute i = (.ok 0, c.call) := by
  cases i with
  | bsr => rfl
  | lbsr => rfl
  | jsr => rfl
  | _ => cases call

/-! ### The step -/

theorem applyRequests_of_quiet {c : Core} (quiet : c.bus.requests = []) :
    c.applyRequests = c := by
  obtain ⟨cpu, bus⟩ := c
  obtain ⟨memory, loaded, reads, writes, requests, console, accesses, log⟩ := bus
  obtain rfl : requests = [] := quiet
  rfl

/-- The admission of an interrupt: the line that is served, with the cycles of its entry. -/
def admitted (c : Core) : Option (InterruptLine × Nat) × Core :=
  match c.cpu.admission? with
  | none => (none, c)
  | some line => (some (line, entryCycles c.cpu.wait line), c.enter line)

/-- A step after its admission: the entry of NMI and IRQ ends it. -/
def finish : Option (InterruptLine × Nat) × Core → Except Fault Nat × Core
  | (none, c) => c.proceed 0
  | (some (line, cycles), c) =>
    if line = .firq then c.proceed cycles else (.ok cycles, c.account cycles)

theorem step_eq_finish (c : Core) : c.step = finish c.applyRequests.admitted := by
  dsimp only [step, admitted]
  cases c.applyRequests.cpu.admission? with
  | none => rfl
  | some line => rfl

/-- The processor as a step begins to fetch an instruction; nothing for a step that only enters an
interrupt or waits. -/
def begins? (c : Core) : Option Core :=
  match c.applyRequests.admitted with
  | (some (.nmi, _), _) => none
  | (some (.irq, _), _) => none
  | (_, d) => if d.releaseSync.cpu.isWaiting then none else some d.releaseSync

/-- The end of a step, given what became of the instruction that it began. -/
def conclude (c : Core) (spent : Nat) : Except Fault Nat × Core → Except Fault Nat × Core
  | (.ok cycles, d) => (.ok (spent + cycles), d.account (spent + cycles))
  | (.error fault, d) => (.error fault, d.setRegs c.regs)

theorem proceed_eq (c : Core) (spent : Nat) : c.proceed spent =
    if c.releaseSync.cpu.isWaiting then (.ok (spent + 1), c.releaseSync.account (spent + 1))
    else c.releaseSync.conclude spent c.releaseSync.perform := by
  dsimp only [proceed]
  split
  · rfl
  · rcases c.releaseSync.perform with ⟨result, d⟩
    cases result with
    | ok cycles => rfl
    | error fault => rfl

/-- The cycles that a step spends on the entry of an interrupt. -/
def entryCost (c : Core) : Nat := (c.applyRequests.admitted.1.map Prod.snd).getD 0

/-- A step that begins an instruction ends with it. -/
theorem step_of_begins {c d : Core} (h : c.begins? = some d) :
    c.step = d.conclude c.entryCost d.perform := by
  rw [step_eq_finish]
  unfold entryCost
  unfold begins? at h
  revert h
  rcases c.applyRequests.admitted with ⟨served, e⟩
  intro h
  have proceeds (spent : Nat) (hd : (if e.releaseSync.cpu.isWaiting then none
      else some e.releaseSync) = some d) : e.proceed spent = d.conclude spent d.perform := by
    rw [proceed_eq]
    split at hd
    · cases hd
    · rename_i running
      rw [if_neg running, Option.some.inj hd]
  match served with
  | none => exact proceeds 0 h
  | some (.firq, spent) => exact proceeds spent h
  | some (.nmi, _) => cases h
  | some (.irq, _) => cases h

theorem step_of_begins? {c d : Core} (h : c.begins? = some d) :
    ∃ spent, c.step = d.conclude spent d.perform :=
  ⟨_, step_of_begins h⟩

theorem step_of_performed {c d : Core} {cycles : Nat} (begins : c.begins? = some d)
    (performed : d.perform.1 = .ok cycles) :
    c.step = (.ok (c.entryCost + cycles), d.perform.2.account (c.entryCost + cycles)) := by
  have performed : d.perform = (.ok cycles, d.perform.2) := Prod.ext performed rfl
  rw [step_of_begins begins, performed]
  rfl

/-- A step whose instruction fails puts the registers back. -/
theorem step_of_failed {c d : Core} {fault : Fault} (begins : c.begins? = some d)
    (failed : d.perform.1 = .error fault) : c.step = (.error fault, d.perform.2.setRegs d.regs) := by
  have performed : d.perform = (.error fault, d.perform.2) := Prod.ext failed rfl
  rw [step_of_begins begins, performed]
  rfl

/-- A step whose instruction succeeds leaves what the instruction leaves. -/
theorem step_of_ok {c d : Core} {extra : Nat} (begins : c.begins? = some d)
    (ok : (d.located.2.execute d.fetched.instruction).1 = .ok extra) :
    c.step.1 = .ok (c.entryCost + (d.fetched.cycles + d.located.1 + extra)) ∧
      c.step.2.regs = (d.located.2.execute d.fetched.instruction).2.regs ∧
      c.step.2.bus = (d.located.2.execute d.fetched.instruction).2.bus := by
  rw [step_of_begins begins, perform_eq, ok]
  exact ⟨rfl, rfl, rfl⟩

@[simp] theorem releaseSync_regs (c : Core) : c.releaseSync.regs = c.regs := by
  unfold releaseSync
  split
  · rfl
  · rfl

theorem releaseSync_of_ne {c : Core} (other : c.cpu.wait ≠ .syncWait) : c.releaseSync = c := by
  unfold releaseSync
  rw [decide_eq_false other]
  rfl

theorem isWaiting_eq_false_iff {c : Core} :
    c.cpu.isWaiting = false ↔ c.cpu.wait = .running := by
  unfold Cpu.isWaiting
  cases c.cpu.wait with
  | running => decide
  | syncWait => decide
  | cwaiWait => decide

/-- An asserted line ends a SYNC wait, and nothing but an interrupt ends a CWAI wait. -/
theorem releaseSync_awake_iff (c : Core) : c.releaseSync.cpu.isWaiting = false ↔
    c.cpu.wait = .running ∨ (c.cpu.wait = .syncWait ∧ c.cpu.latches.any = true) := by
  unfold releaseSync Cpu.isWaiting
  cases wait : c.cpu.wait with
  | running => simp [wait]
  | cwaiWait => simp [wait]
  | syncWait =>
      cases latched : c.cpu.latches.any with
      | true => simp [setWait]
      | false => simp [wait]

/-! ### Entry of an interrupt -/

def countInterrupt (c : Core) : Core :=
  { c with cpu := { c.cpu with interrupts := c.cpu.interrupts + 1 } }

/-- Goes where the vector of a line points to. -/
def jumpThrough (c : Core) (line : InterruptLine) : Core :=
  ((c.readWord line.event.vector).2.setPc (c.readWord line.event.vector).1).addRecord .debug
    (line.name ++ " admitted, vector $" ++ Hex.word line.event.vector ++ " -> $" ++
      Hex.word (c.readWord line.event.vector).1)

theorem enter_eq (c : Core) (line : InterruptLine) : c.enter line =
    ((((c.pushFrame line).setFlags (c.pushFrame line).regs.cc.maskInterrupts).setWait
      .running).countInterrupt.acknowledge line).jumpThrough line := rfl

theorem enter_cc (c : Core) (line : InterruptLine) :
    (c.enter line).regs.cc = (c.pushFrame line).regs.cc.maskInterrupts := by
  rw [enter_eq]
  cases line with
  | nmi => rfl
  | irq => rfl
  | firq => rfl

@[simp] theorem enter_wait (c : Core) (line : InterruptLine) : (c.enter line).cpu.wait = .running := by
  cases line with
  | nmi => rfl
  | irq => rfl
  | firq => rfl

/-! ### What the phases keep -/

variable {R : Core → Core → Prop} {P : Core → Prop} {c d : Core}

namespace Congruence

/-- Locating in whatever mode keeps the relation. -/
theorem locateAny (h : Congruence R) (r : R c d) (mode : AddressMode) :
    Alike R (c.locate mode) (d.locate mode) := by
  by_cases hm : mode = .inherent
  · subst hm
    exact ⟨rfl, r⟩
  · have located := h.locate r hm
    exact ⟨located.1, located.2.1⟩

theorem noteUndefined (h : Congruence R) (r : R c d) (opcode : Page × UInt8) (start : UInt16) :
    R (c.noteUndefined opcode start) (d.noteUndefined opcode start) := by
  unfold Core.noteUndefined
  split
  · exact h.addRecord r _ _ nofun
  · exact r

/-- Related processors perform the same instruction alike. Nothing has to be known of the operand's
address before it. -/
theorem perform (h : Congruence R) (r : R c d) : Alike R c.perform d.perform := by
  have opcode := h.fetchOpcode r
  have same : c.fetched = d.fetched := by
    unfold Core.fetched
    rw [opcode.1]
  have noted := h.noteUndefined opcode.2 d.fetchOpcode.1 d.regs.pc
  have execution : c.located.1 = d.located.1 ∧ Alike R
      (c.located.2.execute d.fetched.instruction) (d.located.2.execute d.fetched.instruction) := by
    unfold Core.located
    rw [same, opcode.1, h.regs r]
    have address := h.locateAny noted d.fetched.mode
    refine ⟨address.1, h.execute address.2 _ ?_⟩
    intro used
    by_cases inherent : d.fetched.mode = .inherent
    · rw [Core.fetched, Opcode.not_usesAddress_of_inherent _ _ inherent] at used
      cases used
    · exact (h.locate noted inherent).2.2
  rw [perform_eq, perform_eq, same, execution.1]
  exact ⟨congrArg (Except.map _) execution.2.1, execution.2.2⟩

theorem pushFrame (h : Congruence R) (r : R c d) (same : c.cpu.wait = d.cpu.wait)
    (line : InterruptLine) : R (c.pushFrame line) (d.pushFrame line) := by
  unfold Core.pushFrame
  rw [same]
  cases d.cpu.wait with
  | cwaiWait => exact r
  | running =>
      cases line with
      | nmi => exact h.pushEntire r
      | irq => exact h.pushEntire r
      | firq => exact h.pushFast r
  | syncWait =>
      cases line with
      | nmi => exact h.pushEntire r
      | irq => exact h.pushEntire r
      | firq => exact h.pushFast r

theorem jumpThrough (h : Congruence R) (r : R c d) (line : InterruptLine) :
    R (c.jumpThrough line) (d.jumpThrough line) :=
  (h.readWord r line.event.vector).bind (f := fun pc c => (c.setPc pc).addRecord .debug
    (line.name ++ " admitted, vector $" ++ Hex.word line.event.vector ++ " -> $" ++ Hex.word pc))
    fun pc _ _ r => h.addRecord (h.setPc r pc) _ _ nofun

end Congruence

/-- A relation that also the phases around the instruction keep. -/
structure StepCongruence (R : Core → Core → Prop) : Prop extends Congruence R where
  wait {c d : Core} : R c d → c.cpu.wait = d.cpu.wait
  latches {c d : Core} : R c d → c.cpu.latches = d.cpu.latches
  applyRequests {c d : Core} : R c d → R c.applyRequests d.applyRequests
  setLine {c d : Core} : R c d → ∀ line level, R (c.setLine line level) (d.setLine line level)
  countInterrupt {c d : Core} : R c d → R c.countInterrupt d.countInterrupt
  account {c d : Core} : R c d → ∀ cycles, R (c.account cycles) (d.account cycles)

namespace StepCongruence

theorem acknowledge (h : StepCongruence R) (r : R c d) (line : InterruptLine) :
    R (c.acknowledge line) (d.acknowledge line) := by
  cases line with
  | nmi => exact r
  | irq => exact h.setLine r .irq false
  | firq => exact h.setLine r .firq false

theorem enter (h : StepCongruence R) (r : R c d) (line : InterruptLine) :
    R (c.enter line) (d.enter line) := by
  have pushed := h.pushFrame r (h.wait r) line
  have masked := h.onFlags pushed fun regs => regs.cc.maskInterrupts
  have counted := h.countInterrupt (h.setWait masked .running)
  rw [enter_eq, enter_eq]
  exact h.jumpThrough (h.acknowledge counted line) line

theorem admitted (h : StepCongruence R) (r : R c d) : Alike R c.admitted d.admitted := by
  have same : c.cpu.admission? = d.cpu.admission? := by
    unfold Cpu.admission?
    rw [h.latches r, show c.cpu.regs = d.cpu.regs from h.regs r]
  unfold Core.admitted
  rw [same, h.wait r]
  cases d.cpu.admission? with
  | none => exact ⟨rfl, r⟩
  | some line => exact ⟨rfl, h.enter r line⟩

theorem releaseSync (h : StepCongruence R) (r : R c d) : R c.releaseSync d.releaseSync := by
  unfold Core.releaseSync
  rw [h.wait r, h.latches r]
  split
  · exact h.setWait (h.addRecord r .debug _ nofun) _
  · exact r

theorem conclude (h : StepCongruence R) (r : R c d) (spent : Nat) {x y : Except Fault Nat × Core}
    (performed : Alike R x y) : Alike R (c.conclude spent x) (d.conclude spent y) := by
  obtain ⟨result, e⟩ := x
  obtain ⟨_, f⟩ := y
  obtain ⟨rfl, next⟩ := performed
  cases result with
  | ok cycles => exact ⟨rfl, h.account next _⟩
  | error fault =>
      unfold Core.conclude
      rw [h.regs r]
      exact ⟨rfl, h.setRegs next _⟩

theorem proceed (h : StepCongruence R) (r : R c d) (spent : Nat) :
    Alike R (c.proceed spent) (d.proceed spent) := by
  have released := h.releaseSync r
  have same : c.releaseSync.cpu.isWaiting = d.releaseSync.cpu.isWaiting := by
    unfold Cpu.isWaiting
    rw [h.wait released]
  rw [proceed_eq, proceed_eq, same]
  split
  · exact ⟨rfl, h.account released _⟩
  · exact h.conclude released spent (h.perform released)

/-- Related processors step alike. -/
theorem step (h : StepCongruence R) (r : R c d) : Alike R c.step d.step := by
  have admitted := h.admitted (h.applyRequests r)
  rw [step_eq_finish, step_eq_finish]
  revert admitted
  rcases c.applyRequests.admitted with ⟨served, c⟩
  rcases d.applyRequests.admitted with ⟨_, d⟩
  rintro ⟨rfl, r⟩
  cases served with
  | none => exact h.proceed r 0
  | some entry =>
      simp only [finish]
      split
      · exact h.proceed r _
      · exact ⟨rfl, h.account r _⟩

end StepCongruence

/-- A property that every primitive of a step keeps once its admission is done. -/
structure Stable (P : Core → Prop) : Prop where
  setRegs {c : Core} : P c → ∀ regs, P (c.setRegs regs)
  setEa {c : Core} : P c → ∀ ea, P (c.setEa ea)
  setWait {c : Core} : P c → ∀ wait, P (c.setWait wait)
  addRecord {c : Core} : P c →
    ∀ level text, level ≠ .trace → P (c.addRecord level text)
  readByte {c : Core} : P c → ∀ address, P (c.readByte address).2
  writeByte {c : Core} : P c → ∀ address value, P (c.writeByte address value)
  account {c : Core} : P c → ∀ cycles, P (c.account cycles)

namespace Stable

/-- A property is a relation of a processor with itself. -/
theorem congruence (h : Stable P) : Congruence fun c d => c = d ∧ P d where
  regs r := congrArg Core.regs r.1
  setRegs r regs := ⟨congrArg (·.setRegs regs) r.1, h.setRegs r.2 regs⟩
  setEa r ea := ⟨congrArg (·.setEa ea) r.1, h.setEa r.2 ea⟩
  setWait r wait := ⟨congrArg (·.setWait wait) r.1, h.setWait r.2 wait⟩
  addRecord r level text other :=
    ⟨congrArg (·.addRecord level text) r.1, h.addRecord r.2 level text other⟩
  readByte r address := by
    obtain ⟨rfl, p⟩ := r
    exact ⟨rfl, rfl, h.readByte p address⟩
  writeByte r address value :=
    ⟨congrArg (·.writeByte address value) r.1, h.writeByte r.2 address value⟩

theorem perform (h : Stable P) (p : P c) : P c.perform.2 :=
  (h.congruence.perform ⟨rfl, p⟩).2.2

theorem pushFrame (h : Stable P) (p : P c) (line : InterruptLine) : P (c.pushFrame line) :=
  (h.congruence.pushFrame ⟨rfl, p⟩ rfl line).2

theorem jumpThrough (h : Stable P) (p : P c) (line : InterruptLine) : P (c.jumpThrough line) :=
  (h.congruence.jumpThrough ⟨rfl, p⟩ line).2

theorem releaseSync (h : Stable P) (p : P c) : P c.releaseSync := by
  unfold Core.releaseSync
  split
  · exact h.setWait (h.addRecord p .debug _ nofun) _
  · exact p

theorem proceed (h : Stable P) (p : P c) (spent : Nat) : P (c.proceed spent).2 := by
  have released := h.releaseSync p
  have performed := h.perform released
  rw [proceed_eq]
  split
  · exact h.account released _
  · revert performed
    rcases c.releaseSync.perform with ⟨result, d⟩
    intro performed
    cases result with
    | ok cycles => exact h.account performed _
    | error fault => exact h.setRegs performed _

end Stable

/-- A property that also the phases around the instruction keep. -/
structure StepStable (P : Core → Prop) : Prop extends Stable P where
  applyRequests {c : Core} : P c → P c.applyRequests
  dropLine {c : Core} : P c → ∀ line, P (c.setLine line false)
  countInterrupt {c : Core} : P c → P c.countInterrupt

namespace StepStable

theorem enter (h : StepStable P) (p : P c) (line : InterruptLine) : P (c.enter line) := by
  have masked := h.setRegs (h.pushFrame p line) { (c.pushFrame line).regs with
    cc := (c.pushFrame line).regs.cc.maskInterrupts }
  have counted := h.countInterrupt (h.setWait masked .running)
  rw [enter_eq]
  apply h.jumpThrough
  cases line with
  | nmi => exact counted
  | irq => exact h.dropLine counted .irq
  | firq => exact h.dropLine counted .firq

/-- A step keeps what its phases keep. -/
theorem step (h : StepStable P) (p : P c) : P c.step.2 := by
  have applied := h.applyRequests p
  rw [step_eq_finish]
  unfold admitted
  cases c.applyRequests.cpu.admission? with
  | none => exact h.proceed applied 0
  | some line =>
      simp only [finish]
      split
      · exact h.proceed (h.enter applied line) _
      · exact h.account (h.enter applied line) _

end StepStable
end Sim6809.Core
