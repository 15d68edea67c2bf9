import Sim6809.Proofs.Interrupt.Idle
import Sim6809.Proofs.Processor.Frame

/-!
The return from an interrupt. The entry pushes a frame, or finds the one that CWAI has pushed, and
RTI pulls it again: the E flag in the frame tells how much of it there is. So RTI brings back what the
interrupt saved, whatever the handler did to the registers.
-/
namespace Sim6809.Core

variable {c d f r w t : Core} {saved : Registers}

/-! ### RTI -/

/-- An instruction without an operand begins with only the program counter moved. -/
theorem located_inherent (h : c.bus.Plain) (mode : c.fetched.mode = .inherent) :
    (∃ pc, c.located.2.regs = { c.regs with pc }) ∧ c.located.2.bus.memory = c.bus.memory ∧
      c.located.2.bus.Plain := by
  obtain ⟨regs, memory, plain⟩ := noted_of_plain h
  unfold located
  rw [mode]
  exact ⟨⟨_, regs⟩, memory, plain⟩

/-- The step of RTI ends with the registers that the pull of the frame leaves. -/
theorem step_of_rti (begins : r.begins? = some f) (rti : f.fetched.instruction = .rti) :
    (∃ cycles, r.step.1 = .ok cycles) ∧ r.step.2.regs = f.located.2.pullFrame.2.regs := by
  obtain ⟨spent, stepped⟩ := step_of_begins? begins
  have performed : f.perform = (.ok (f.fetched.cycles + f.located.1 +
      if f.located.2.pullFrame.1 then 9 else 0), f.located.2.pullFrame.2) := by
    rw [perform_eq, rti]
    rfl
  rw [stepped, performed]
  exact ⟨⟨_, rfl⟩, rfl⟩

/-- RTI on a full frame brings back all registers. -/
theorem step_of_rti_entire (begins : r.begins? = some f) (plain : f.bus.Plain)
    (rti : f.fetched.instruction = .rti) (entire : saved.cc.entire = true)
    (held : f.Holds saved entireFrame) :
    (∃ cycles, r.step.1 = .ok cycles) ∧ r.step.2.regs = saved := by
  obtain ⟨⟨pc, regs⟩, memory, quiet⟩ := located_inherent plain (fetched_mode rti rfl)
  have located : f.located.2.Holds saved entireFrame :=
    held.of_same (by rw [regs]) (by rw [memory])
  obtain ⟨ok, stepped⟩ := step_of_rti begins rti
  rw [stepped, pullFrame_entire quiet entire located]
  exact ⟨ok, rfl⟩

/-- RTI on a fast frame brings back the condition codes, the program counter and S. -/
theorem step_of_rti_fast (begins : r.begins? = some f) (plain : f.bus.Plain)
    (rti : f.fetched.instruction = .rti) (fast : saved.cc.entire = false)
    (held : f.Holds saved fastFrame) : (∃ cycles, r.step.1 = .ok cycles) ∧
      r.step.2.regs = { f.regs with cc := saved.cc, pc := saved.pc, s := saved.s } := by
  obtain ⟨⟨pc, regs⟩, memory, quiet⟩ := located_inherent plain (fetched_mode rti rfl)
  have located : f.located.2.Holds saved fastFrame :=
    held.of_same (by rw [regs]) (by rw [memory])
  obtain ⟨ok, stepped⟩ := step_of_rti begins rti
  rw [stepped, pullFrame_fast quiet fast located, regs]
  exact ⟨ok, rfl⟩

/-! ### Entry -/

/-- Behind the frame an entry moves the stack no more and writes nothing. -/
theorem enter_holds {line : InterruptLine} {rs : List Register}
    (plain : (c.pushFrame line).bus.Plain) (held : (c.pushFrame line).Holds saved rs) :
    (c.enter line).Holds saved rs := by
  rw [enter_eq]
  generalize masked : (((c.pushFrame line).setFlags
    (c.pushFrame line).regs.cc.maskInterrupts).setWait .running).countInterrupt.acknowledge line = d
  have same : d.regs.s = (c.pushFrame line).regs.s ∧ d.bus = (c.pushFrame line).bus := by
    rw [← masked]
    cases line with
    | nmi => exact ⟨rfl, rfl⟩
    | irq => exact ⟨rfl, rfl⟩
    | firq => exact ⟨rfl, rfl⟩
  have quiet : d.bus.Plain := same.2 ▸ plain
  unfold jumpThrough
  rw [readWord_of_plain quiet]
  exact held.of_same same.1 (by rw [← same.2]; rfl)

/-- The registers of a processor with a value for its E flag. -/
def marked (c : Core) (entire : Bool) : Registers :=
  { c.regs with cc := { c.regs.cc with entire } }

theorem pushed_pushEntire (h : c.bus.Plain) :
    Pushed (c.setRegs (c.marked true)) c.pushEntire ((c.marked true).frame entireFrame) :=
  pushed_pushRegisters (c := c.setRegs (c.marked true)) h (by decide) (by decide)

theorem pushed_pushFast (h : c.bus.Plain) :
    Pushed (c.setRegs (c.marked false)) c.pushFast ((c.marked false).frame fastFrame) :=
  pushed_pushRegisters (c := c.setRegs (c.marked false)) h (by decide) (by decide)

/-- Awake, the entry of NMI and IRQ leaves a full frame. -/
theorem enter_holds_entire (h : c.bus.Plain) (awake : c.cpu.wait ≠ .cwaiWait)
    {line : InterruptLine} (slow : line ≠ .firq) :
    (c.enter line).Holds (c.marked true) entireFrame := by
  have pushed := pushed_pushEntire h
  have frame : c.pushFrame line = c.pushEntire := by
    unfold pushFrame
    cases hw : c.cpu.wait with
    | cwaiWait => exact absurd hw awake
    | running =>
        cases line with
        | firq => exact absurd rfl slow
        | nmi => rfl
        | irq => rfl
    | syncWait =>
        cases line with
        | firq => exact absurd rfl slow
        | nmi => rfl
        | irq => rfl
  rw [← frame] at pushed
  exact enter_holds pushed.plain pushed.holds

/-- Awake, the entry of FIRQ leaves a fast frame. -/
theorem enter_holds_fast (h : c.bus.Plain) (awake : c.cpu.wait ≠ .cwaiWait) :
    (c.enter .firq).Holds (c.marked false) fastFrame := by
  have pushed := pushed_pushFast h
  have frame : c.pushFrame .firq = c.pushFast := by
    unfold pushFrame
    cases hw : c.cpu.wait with
    | cwaiWait => exact absurd hw awake
    | running => rfl
    | syncWait => rfl
  rw [← frame] at pushed
  exact enter_holds pushed.plain pushed.holds

/-! ### Waiting -/

/-- A processor waits by CWAI on a frame that it has pushed. -/
structure Asleep (c : Core) (saved : Registers) : Prop where
  wait : c.cpu.wait = .cwaiWait
  plain : c.bus.Plain
  held : c.Holds saved entireFrame

theorem Holds.asleep (h : c.Holds saved entireFrame) (plain : c.bus.Plain) (cycles : Nat) :
    ((c.setWait .cwaiWait).account cycles).Asleep saved :=
  ⟨rfl, plain, h.of_same rfl rfl⟩

theorem Asleep.applyRequests (h : c.Asleep saved) : c.applyRequests.Asleep saved :=
  ⟨h.wait, h.plain, h.held.of_same rfl rfl⟩

/-- Unless a stimulus serves a line the wait goes on. -/
theorem Asleep.after (h : c.Asleep saved) {stimulus : Stimulus}
    (unserved : c.serves? stimulus = none) : (c.after stimulus).Asleep saved := by
  cases stimulus with
  | change request => exact ⟨h.wait, h.plain, h.held.of_same rfl rfl⟩
  | queue request => exact ⟨h.wait, h.plain, h.held.of_same rfl rfl⟩
  | step =>
      have waits : c.cpu.wait ≠ .running := h.wait ▸ WaitState.noConfusion
      have quiet : c.cpu.wait = .syncWait → c.applyRequests.cpu.latches.any = false :=
        fun sync => WaitState.noConfusion (h.wait.symm.trans sync)
      change c.step.2.Asleep saved
      rw [step_of_undisturbed waits ⟨unserved, quiet⟩]
      exact ⟨h.wait, h.plain, h.held.of_same rfl rfl⟩

theorem Asleep.trajectory (h : c.Asleep saved) (run : Nat → Stimulus) (n : Nat)
    (unserved : ∀ k, k < n → (c.trajectory run k).serves? (run k) = none) :
    (c.trajectory run n).Asleep saved := by
  induction n with
  | zero => exact h
  | succ n ih =>
      have before := ih fun k below => unserved k (Nat.lt_succ_of_lt below)
      exact before.after (unserved n n.lt_succ_self)

/-- Out of CWAI an entry takes the frame that is there. -/
theorem Asleep.enter (h : c.Asleep saved) (line : InterruptLine) :
    (c.enter line).Holds saved entireFrame := by
  have frame : c.pushFrame line = c := by
    unfold pushFrame
    rw [h.wait]
  exact enter_holds (frame.symm ▸ h.plain) (frame.symm ▸ h.held)

theorem execute_cwai {mask : UInt8} (operand : c.operandByte = (mask, c)) : c.execute .cwai =
    (.ok 0, (c.setFlags (c.regs.cc.keep mask)).pushEntire.setWait .cwaiWait) := by
  unfold execute waitForInterrupt
  rw [operand]

/-- CWAI pushes the registers as they are behind it, with the flags that its operand keeps. -/
theorem asleep_of_cwai (begins : c.begins? = some f) (plain : f.bus.Plain)
    (cwai : f.fetched.instruction = .cwai) : c.step.2.Asleep
      { f.regs with
        pc := f.regs.pc + 2
        cc := { f.regs.cc.keep (f.bus.memory.read (f.regs.pc + 1)) with entire := true } } := by
  obtain ⟨spent, stepped⟩ := step_of_begins? begins
  have short : f.fetchOpcode.1.1 = .unprefixed := Opcode.unprefixed_of_waits _ _ (.inl cwai)
  obtain ⟨-, regs, operand, -, quiet⟩ := located_immediate8 plain (fetched_mode cwai rfl) short
  have performed : f.perform = (.ok (f.fetched.cycles + f.located.1 + 0),
      (f.located.2.setFlags (f.located.2.regs.cc.keep
        (f.bus.memory.read (f.regs.pc + 1)))).pushEntire.setWait .cwaiWait) := by
    rw [perform_eq, cwai, execute_cwai operand]
    rfl
  rw [stepped, performed]
  generalize kept : f.located.2.setFlags
    (f.located.2.regs.cc.keep (f.bus.memory.read (f.regs.pc + 1))) = d
  have flagged : d.regs = { f.located.2.regs with
      cc := f.located.2.regs.cc.keep (f.bus.memory.read (f.regs.pc + 1)) } := by
    rw [← kept]
    rfl
  have saved : d.marked true = { f.regs with
      pc := f.regs.pc + 2
      cc := { f.regs.cc.keep (f.bus.memory.read (f.regs.pc + 1)) with entire := true } } := by
    unfold marked
    rw [flagged, regs]
  have silent : d.bus.Plain := by
    rw [← kept]
    exact quiet
  have pushed := pushed_pushEntire silent
  rw [← saved]
  exact Holds.asleep pushed.holds pushed.plain _

/-! ### Return -/

/-- A step executes RTI in the processor `f`, with S where an entry left it and the bytes that some
registers have there as the entry left them. Nothing is asked of the other registers. -/
structure Returns (entered : Core) (rs : List Register) (r f : Core) : Prop where
  begins : r.begins? = some f
  plain : f.bus.Plain
  instruction : f.fetched.instruction = .rti
  stack : f.regs.s = entered.regs.s
  frame : f.bus.memory.readBytes entered.regs.s (frameBytes rs) =
    entered.bus.memory.readBytes entered.regs.s (frameBytes rs)

example : frameBytes entireFrame = 12 ∧ frameBytes fastFrame = 3 := by decide

theorem enter_of_admitted {line : InterruptLine} {cycles : Nat} {entered : Core}
    (h : c.admitted = (some (line, cycles), entered)) : c.enter line = entered := by
  unfold admitted at h
  cases admission : c.cpu.admission? with
  | none =>
      rw [admission] at h
      cases h
  | some other =>
      rw [admission] at h
      obtain ⟨served, same⟩ := Prod.mk.inj h
      rw [← (Prod.mk.inj (Option.some.inj served)).1]
      exact same

/-- RTI undoes the entry of an interrupt. From a processor that runs or waits by SYNC, NMI and IRQ
bring back all registers with E set, and FIRQ brings back PC, S and CC with E clear. An interrupt that
ends a CWAI wait brings back all registers as they were at the CWAI, with PC behind it and the flags
that it kept, E set. -/
theorem rti_undoes_entry :
    (∀ (c e r f : Core) (line : InterruptLine) (cycles : Nat),
      c.bus.Plain → c.cpu.wait ≠ .cwaiWait → line ≠ .firq →
      c.applyRequests.admitted = (some (line, cycles), e) → Returns e entireFrame r f →
      (∃ spent, r.step.1 = .ok spent) ∧
        r.step.2.regs = { c.regs with cc := { c.regs.cc with entire := true } }) ∧
    (∀ (c e r f : Core) (cycles : Nat),
      c.bus.Plain → c.cpu.wait ≠ .cwaiWait →
      c.applyRequests.admitted = (some (.firq, cycles), e) → Returns e fastFrame r f →
      (∃ spent, r.step.1 = .ok spent) ∧
        r.step.2.regs = { f.regs with
          cc := { c.regs.cc with entire := false }, pc := c.regs.pc, s := c.regs.s }) ∧
    (∀ (c d e r f : Core) (run : Nat → Stimulus) (n : Nat) (line : InterruptLine) (cycles : Nat),
      c.begins? = some d → d.bus.Plain → d.fetched.instruction = .cwai →
      (∀ k, k < n → (c.step.2.trajectory run k).serves? (run k) = none) →
      (c.step.2.trajectory run n).applyRequests.admitted = (some (line, cycles), e) →
      Returns e entireFrame r f →
      (∃ spent, r.step.1 = .ok spent) ∧
        r.step.2.regs = { d.regs with
          pc := d.regs.pc + 2
          cc := { d.regs.cc.keep (d.bus.memory.read (d.regs.pc + 1)) with entire := true } }) := by
  refine ⟨?_, ?_, ?_⟩
  · intro c e r f line cycles plain awake slow admitted returns
    have held : c.applyRequests.enter line |>.Holds (c.marked true) entireFrame :=
      enter_holds_entire (c := c.applyRequests) plain awake slow
    rw [enter_of_admitted admitted] at held
    exact step_of_rti_entire returns.begins returns.plain returns.instruction rfl
      (held.of_same returns.stack returns.frame)
  · intro c e r f cycles plain awake admitted returns
    have held : c.applyRequests.enter .firq |>.Holds (c.marked false) fastFrame :=
      enter_holds_fast (c := c.applyRequests) plain awake
    rw [enter_of_admitted admitted] at held
    exact step_of_rti_fast returns.begins returns.plain returns.instruction rfl
      (held.of_same returns.stack returns.frame)
  · intro c d e r f run n line cycles begins plain cwai unserved admitted returns
    have asleep := (asleep_of_cwai begins plain cwai).trajectory run n unserved
    have held := asleep.applyRequests.enter line
    rw [enter_of_admitted admitted] at held
    exact step_of_rti_entire returns.begins returns.plain returns.instruction rfl
      (held.of_same returns.stack returns.frame)

/-- A processor before CWAI with a stack whose frames wrap around address zero. Every interrupt is
handled by RTI alone. -/
def wrapping (latches : Latches) : Core where
  cpu := { Cpu.zero with
    regs := { Registers.zero with a := 0x12, pc := 0x2000, s := 0x000B }
    latches }
  bus := ((Bus.blank.pokeBytes 0x2000 [0x3C, 0xFF]).poke 0x1000 0x3B).pokeBytes 0xFFF6
    [0x10, 0x00, 0x10, 0x00, 0x10, 0x00, 0x10, 0x00]

theorem rti_undoes_entry_wrapping :
    (wrapping (Latches.clear.set .irq true)).step.2.step.2.regs =
      { (wrapping .clear).regs with cc := { Flags.clear with entire := true } } ∧
    (wrapping (Latches.clear.set .firq true)).step.2.regs = (wrapping .clear).regs ∧
    ((wrapping .clear).step.2.setLine .firq true).step.2.regs =
      { (wrapping .clear).regs with
        pc := 0x2002
        cc := { Flags.clear with entire := true } } := by
  obtain ⟨slow, fast, woken⟩ := rti_undoes_entry
  refine ⟨?_, ?_, ?_⟩
  · have undone := slow (wrapping (Latches.clear.set .irq true)) _
      (wrapping (Latches.clear.set .irq true)).step.2 _ .irq _ ⟨rfl, rfl⟩ (by decide) (by decide)
      rfl ⟨rfl, ⟨rfl, rfl⟩, rfl, rfl, rfl⟩
    exact undone.2
  · have undone := fast (wrapping (Latches.clear.set .firq true)) _
      (wrapping (Latches.clear.set .firq true)) _ _ ⟨rfl, rfl⟩ (by decide)
      rfl ⟨rfl, ⟨rfl, rfl⟩, rfl, rfl, rfl⟩
    exact undone.2
  · have undone := woken (wrapping .clear) _ _
      ((wrapping .clear).step.2.setLine .firq true) _ (fun _ => .change (.assert .firq)) 1 .firq _
      rfl ⟨rfl, rfl⟩ rfl (fun _ _ => rfl) rfl ⟨rfl, ⟨rfl, rfl⟩, rfl, rfl, rfl⟩
    exact undone.2

end Sim6809.Core
