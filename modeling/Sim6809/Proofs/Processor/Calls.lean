import Sim6809.Proofs.Processor.EffectiveAddress
import Sim6809.Proofs.Processor.Footprint

/-!
Calls and their returns. Without handlers a call leaves the address behind it in the two bytes below S
and goes on at the address of its operand. As long as nothing else moves S or writes those bytes, RTS
takes the return address of the latest call that has not returned, and S is back where it was as that
call pushed it. The calls that are open have adjacent slots on the stack, which may wrap; they do not
meet before there are as many as half of the addresses.
-/
namespace Sim6809

/-! ### Return addresses on the stack -/

namespace Memory

/-- Addresses at different distances from another one are different. -/
theorem add_ofNat_ne (a : UInt16) {i j : Nat} (first : i < 65536) (second : j < 65536)
    (ne : i ≠ j) : a + UInt16.ofNat i ≠ a + UInt16.ofNat j := by
  intro same
  have equal := congrArg UInt16.toNat ((UInt16.add_right_inj a).mp same)
  rw [UInt16.toNat_ofNat', UInt16.toNat_ofNat', Nat.mod_eq_of_lt first,
    Nat.mod_eq_of_lt second] at equal
  exact ne equal

theorem readWord_writeWord_self (m : Memory) (a value : UInt16) :
    (m.writeWord a value).readWord a = value := by
  have apart : a + 0 ≠ a + 1 := add_ofNat_ne a (i := 0) (j := 1) (by decide) (by decide) (by decide)
  rw [UInt16.add_zero] at apart
  unfold writeWord readWord
  rw [read_write_of_ne _ _ apart, read_write_self, read_write_self, Word.join_hi_lo]

/-- A word keeps its value as another one is written that shares no byte with it. -/
theorem readWord_writeWord_add (m : Memory) (a value : UInt16) {i : Nat} (behind : 2 ≤ i)
    (before : i ≤ 65534) : (m.writeWord a value).readWord (a + UInt16.ofNat i) =
      m.readWord (a + UInt16.ofNat i) := by
  have unwritten {j : Nat} (low : 2 ≤ j) (high : j < 65536) :
      (m.writeWord a value).read (a + UInt16.ofNat j) = m.read (a + UInt16.ofNat j) := by
    apply sameOutside_writeWord
    have first : a + UInt16.ofNat j ≠ a + 0 :=
      add_ofNat_ne a (j := 0) high (by decide) (by omega)
    have second : a + UInt16.ofNat j ≠ a + 1 :=
      add_ofNat_ne a (j := 1) high (by decide) (by omega)
    rw [UInt16.add_zero] at first
    exact List.not_mem_cons_of_ne_of_not_mem first (mt List.mem_singleton.mp second)
  have next : a + UInt16.ofNat i + 1 = a + UInt16.ofNat (i + 1) := by
    rw [UInt16.add_assoc, UInt16.ofNat_add]
    rfl
  unfold readWord
  rw [next, unwritten behind (by omega), unwritten (by omega) (by omega)]

/-- The return addresses of open calls lie on a stack whose pointer is as given. For each call, the
latest first, there are the pointer before its push and its return address. -/
def HoldsCalls (m : Memory) (pointer : UInt16) : List (UInt16 × UInt16) → Prop
  | [] => True
  | (before, address) :: rest =>
    pointer = before - 2 ∧ m.readWord pointer = address ∧ m.HoldsCalls before rest

variable {m n : Memory} {pointer : UInt16} {calls : List (UInt16 × UInt16)}

/-- Only the slots of the open calls matter. -/
theorem HoldsCalls.congr (held : m.HoldsCalls pointer calls)
    (same : ∀ call ∈ calls, n.readWord (call.1 - 2) = m.readWord (call.1 - 2)) :
    n.HoldsCalls pointer calls := by
  induction calls generalizing pointer with
  | nil => trivial
  | cons call rest ih =>
      obtain ⟨top, word, others⟩ := held
      refine ⟨top, ?_, ih others fun other member => same other (List.mem_cons_of_mem _ member)⟩
      rw [← word, top]
      exact same call List.mem_cons_self

/-- The slots of open calls are adjacent. -/
theorem HoldsCalls.slot (held : m.HoldsCalls pointer calls) {call : UInt16 × UInt16}
    (member : call ∈ calls) : ∃ i < calls.length, call.1 - 2 = pointer + UInt16.ofNat (2 * i) := by
  induction calls generalizing pointer with
  | nil => cases member
  | cons latest rest ih =>
      obtain ⟨before, address⟩ := latest
      obtain ⟨top, word, others⟩ := held
      rcases List.mem_cons.mp member with rfl | deeper
      · exact ⟨0, Nat.succ_pos _, by rw [top]; exact (UInt16.add_zero _).symm⟩
      · obtain ⟨i, below, slot⟩ := ih others deeper
        refine ⟨i + 1, Nat.succ_lt_succ below, ?_⟩
        have higher : before = pointer + 2 := by rw [top, UInt16.sub_add_cancel]
        rw [slot, higher, Nat.mul_succ, UInt16.ofNat_add, UInt16.add_comm (UInt16.ofNat _),
          ← UInt16.add_assoc]
        rfl

/-- A push below the slots reaches none of them, as long as there are fewer than half as many as
addresses. -/
theorem HoldsCalls.push (held : m.HoldsCalls pointer calls) (few : calls.length < 32767)
    (value : UInt16) : (m.writeWord (pointer - 2) value).HoldsCalls pointer calls := by
  refine held.congr fun call member => ?_
  obtain ⟨i, below, slot⟩ := held.slot member
  have distance : call.1 - 2 = pointer - 2 + UInt16.ofNat (2 * i + 2) := by
    rw [slot, UInt16.ofNat_add, UInt16.add_comm (UInt16.ofNat _), ← UInt16.add_assoc]
    exact congrArg (· + _) (UInt16.sub_add_cancel pointer 2).symm
  rw [distance]
  exact readWord_writeWord_add _ _ _ (by omega) (by omega)

end Memory

namespace Core

variable {c d : Core} {run : Nat → Stimulus} {n k : Nat}

/-! ### One call and one return -/

/-- The registers behind the opcode at the program counter. -/
def pastOpcode (c : Core) : Registers :=
  { c.regs with pc := c.regs.pc + UInt16.ofNat c.listed.page.opcodeLength }

/-- The registers once the operation at the program counter is decoded, its operand included. -/
def decoded (c : Core) : Registers := c.pastOpcode.pastOperand c.bus.memory c.listed.mode

theorem located_decoded (h : c.bus.Plain) : c.located.2.regs = c.decoded ∧
    (∀ ea ∈ c.pastOpcode.effectiveAddress? c.bus.memory c.listed.mode,
      c.located.2.cpu.ea = .ofInt ea) ∧
    c.located.2.bus.memory = c.bus.memory ∧ c.located.2.bus.Plain := by
  obtain ⟨regs, memory, plain⟩ := noted_of_plain h
  have located := located_locate _ plain c.listed.mode
  have passed := passed_located h
  rw [← located_of_plain h] at located
  have opcode : c.fetchOpcode.1.1 = c.listed.page := by
    rw [fetchOpcode_of_plain h]
    rfl
  rw [opcode] at regs
  refine ⟨?_, ?_, passed.memory, passed.plain⟩
  · rw [located.regs, memory, regs]
    rfl
  · intro ea formula
    apply located.address
    rw [memory, regs]
    exact formula

/-- What a stimulus does to the calls of a program. -/
inductive CallEvent
  /-- A step that admits no interrupt and executes BSR, LBSR or JSR. -/
  | call
  /-- A step that admits no interrupt and executes RTS. -/
  | ret
  | other
  deriving DecidableEq, Repr

def CallEvent.of (i : Instruction) : CallEvent :=
  if i.isCall then call else if i = .rts then ret else other

theorem CallEvent.isCall_of_of {i : Instruction} (event : of i = call) : i.isCall = true := by
  unfold of at event
  split at event
  · assumption
  · split at event
    · cases event
    · cases event

theorem CallEvent.eq_rts_of_of {i : Instruction} (event : of i = ret) : i = .rts := by
  unfold of at event
  split at event
  · cases event
  · split at event
    · assumption
    · cases event

def callEvent (c : Core) : Stimulus → CallEvent
  | .step =>
    if c.serves? .step = none then
      (c.begins?.map fun d => CallEvent.of d.fetched.instruction).getD .other
    else .other
  | .change _ | .queue _ => .other

/-- A processor of which a step begins an instruction without the entry of an interrupt. -/
structure Begun (c d : Core) : Prop where
  begins : c.begins? = some d
  regs : d.regs = c.regs
  memory : d.bus.memory = c.bus.memory
  plain : d.bus.Plain

theorem begun_of_unserved (plain : c.bus.Plain) (unserved : c.serves? .step = none)
    (begins : c.begins? = some d) : c.Begun d := by
  have same := eq_roused_of_begins? begins
  refine ⟨begins, ?_, ?_, same ▸ plain_roused plain⟩
  · rw [same, roused_regs_of_unserved unserved]
  · rw [same, roused_of_unserved unserved, (releaseSync_bus _).memory]
    rfl

theorem Begun.listed (h : c.Begun d) : d.listed = c.listed := by
  unfold Core.listed
  rw [h.regs, h.memory]

theorem Begun.pastOpcode (h : c.Begun d) : d.pastOpcode = c.pastOpcode := by
  unfold Core.pastOpcode
  rw [h.listed, h.regs]

theorem Begun.instruction (h : c.Begun d) : d.fetched.instruction = c.listed.instruction := by
  rw [fetched_of_plain h.plain, h.listed]
  rfl

theorem begun_of_event (plain : c.bus.Plain) (event : c.callEvent .step ≠ .other) :
    ∃ d, c.Begun d ∧ c.callEvent .step = .of c.listed.instruction := by
  unfold callEvent at event ⊢
  by_cases unserved : c.serves? .step = none
  · rw [if_pos unserved] at event ⊢
    cases begins : c.begins? with
    | none =>
        rw [begins] at event
        exact absurd rfl event
    | some d =>
        have begun := begun_of_unserved plain unserved begins
        exact ⟨d, begun, congrArg CallEvent.of begun.instruction⟩
  · rw [if_neg unserved] at event
    exact absurd rfl event

theorem begun_of_call (plain : c.bus.Plain) (call : c.callEvent .step = .call) :
    ∃ d, c.Begun d ∧ c.listed.instruction.isCall = true := by
  obtain ⟨d, begun, event⟩ := begun_of_event plain (call ▸ CallEvent.noConfusion)
  exact ⟨d, begun, CallEvent.isCall_of_of (event.symm.trans call)⟩

theorem begun_of_ret (plain : c.bus.Plain) (ret : c.callEvent .step = .ret) :
    ∃ d, c.Begun d ∧ c.listed.instruction = .rts := by
  obtain ⟨d, begun, event⟩ := begun_of_event plain (ret ▸ CallEvent.noConfusion)
  exact ⟨d, begun, CallEvent.eq_rts_of_of (event.symm.trans ret)⟩

/-- A step has executed a call. -/
structure Calls (c : Core) : Prop where
  succeeds : ∃ cycles, c.step.1 = .ok cycles
  stack : c.step.2.regs.s = c.decoded.s - 2
  /-- The operation behind the call, as a listing shows it before the step, lies on top of S. -/
  address : ∀ symbols, c.step.2.bus.memory.readWord c.step.2.regs.s =
    (Operation.decode c.bus.memory symbols c.regs.pc).next
  /-- The call goes to its effective address. -/
  target : ∃ ea, c.pastOpcode.effectiveAddress? c.bus.memory c.listed.mode = some ea ∧
    c.step.2.regs.pc = .ofInt ea
  memory : c.step.2.bus.memory = c.bus.memory.writeWord (c.decoded.s - 2) c.listed.next

theorem execute_call_of_plain (h : c.bus.Plain) {i : Instruction} (call : i.isCall = true) :
    (c.execute i).1 = .ok 0 ∧
      (c.execute i).2.regs = { c.regs with s := c.regs.s - 2, pc := c.cpu.ea } ∧
      (c.execute i).2.bus.memory = c.bus.memory.writeWord (c.regs.s - 2) c.regs.pc := by
  have pushed : (c.pushWord .s c.regs.pc).bus =
      c.bus.pokeWord (c.regs.s - 2) c.regs.pc := h.cpuWriteWord _ _
  rw [c.execute_of_isCall call]
  exact ⟨rfl, rfl, congrArg Bus.memory pushed⟩

theorem exists_effectiveAddress (r : Registers) (m : Memory) {mode : AddressMode}
    (other : mode ≠ .inherent) : ∃ ea, r.effectiveAddress? m mode = some ea := by
  cases mode with
  | inherent => exact absurd rfl other
  | _ => exact ⟨_, rfl⟩

theorem calls_of_call (plain : c.bus.Plain) (call : c.callEvent .step = .call) : c.Calls := by
  obtain ⟨d, begun, called⟩ := begun_of_call plain call
  obtain ⟨regs, address, memory, quiet⟩ := located_decoded begun.plain
  have instruction : d.fetched.instruction.isCall = true := begun.instruction ▸ called
  have behind : d.located.2.regs.pc = c.listed.next := by
    rw [← begun.listed]
    refine located_next begun.plain ?_
    intro software
    rw [begun.listed] at software
    rw [software] at called
    cases called
  obtain ⟨ok, after, written⟩ := execute_call_of_plain quiet instruction
  obtain ⟨cycles, stepped, bus⟩ := step_of_ok begun.begins ok
  have decoded : d.decoded = c.decoded := by
    unfold Core.decoded
    rw [begun.pastOpcode, begun.memory, begun.listed]
  rw [memory, behind, begun.memory, regs, decoded, ← bus] at written
  have s : c.step.2.regs.s = c.decoded.s - 2 := by
    rw [stepped, after, regs, decoded]
  have inherent : c.listed.mode ≠ .inherent := by
    intro inherent
    have unused : c.listed.instruction.usesAddress = false :=
      Opcode.not_usesAddress_of_inherent _ _ inherent
    cases named : c.listed.instruction <;> rw [named] at called unused <;> contradiction
  obtain ⟨ea, formula⟩ := exists_effectiveAddress c.pastOpcode c.bus.memory inherent
  refine ⟨⟨_, cycles⟩, s, ?_, ⟨ea, formula, ?_⟩, written⟩
  · intro symbols
    rw [s, written, Memory.readWord_writeWord_self]
    rfl
  · rw [stepped, after]
    apply address
    rw [begun.pastOpcode, begun.memory, begun.listed]
    exact formula

/-- A step has executed RTS. -/
structure ReturnsTo (c : Core) (address : UInt16) : Prop where
  succeeds : ∃ cycles, c.step.1 = .ok cycles
  pc : c.step.2.regs.pc = address
  stack : c.step.2.regs.s = c.regs.s + 2
  memory : c.step.2.bus.memory = c.bus.memory

theorem execute_rts_of_plain (h : c.bus.Plain) : c.execute .rts = (.ok 0, c.setRegs
    { c.regs with s := c.regs.s + 2, pc := c.bus.memory.readWord c.regs.s }) := by
  have word : c.pullWord .s = (c.bus.memory.readWord c.regs.s,
      c.setRegs { c.regs with s := c.regs.s + 2 }) := pullWord_of_plain h
  change (Except.ok 0, (c.pullWord .s).2.setRegs
    ((c.pullWord .s).2.regs.set .pc (c.pullWord .s).1)) = _
  rw [word]
  rfl

theorem returnsTo_of_ret (plain : c.bus.Plain) (ret : c.callEvent .step = .ret) :
    c.ReturnsTo (c.bus.memory.readWord c.regs.s) := by
  obtain ⟨d, begun, rts⟩ := begun_of_ret plain ret
  have instruction : d.fetched.instruction = .rts := begun.instruction.trans rts
  obtain ⟨⟨pc, regs⟩, memory, quiet⟩ := located_inherent begun.plain (fetched_mode instruction rfl)
  have pulled := execute_rts_of_plain quiet
  rw [← instruction] at pulled
  obtain ⟨cycles, stepped, bus⟩ := step_of_ok begun.begins (congrArg Prod.fst pulled)
  rw [pulled] at stepped bus
  refine ⟨⟨_, cycles⟩, ?_, ?_, ?_⟩
  · rw [stepped]
    change d.located.2.bus.memory.readWord d.located.2.regs.s = _
    rw [memory, begun.memory, regs, begun.regs]
  · rw [stepped]
    change d.located.2.regs.s + 2 = _
    rw [regs, begun.regs]
  · rw [bus]
    exact memory.trans begun.memory

/-! ### Runs -/

/-- The calls in the first stimuli of a run that have not returned, by the numbers of their steps, the
latest first. Each RTS is the return of the latest. -/
def openCalls (c : Core) (run : Nat → Stimulus) : Nat → List Nat
  | 0 => []
  | k + 1 =>
    match (c.trajectory run k).callEvent (run k) with
    | .call => k :: c.openCalls run k
    | .ret => (c.openCalls run k).tail
    | .other => c.openCalls run k

theorem openCalls_of_call (call : (c.trajectory run k).callEvent (run k) = .call) :
    c.openCalls run (k + 1) = k :: c.openCalls run k := by
  rw [openCalls, call]

theorem openCalls_of_ret (ret : (c.trajectory run k).callEvent (run k) = .ret) :
    c.openCalls run (k + 1) = (c.openCalls run k).tail := by
  rw [openCalls, ret]

theorem openCalls_of_other (other : (c.trajectory run k).callEvent (run k) = .other) :
    c.openCalls run (k + 1) = c.openCalls run k := by
  rw [openCalls, other]

/-- In the first stimuli of a run each RTS finds an open call, and while a call is open nothing else
moves S or writes its return address. -/
structure WellNested (c : Core) (run : Nat → Stimulus) (n : Nat) : Prop where
  matched : ∀ k < n, (c.trajectory run k).callEvent (run k) = .ret → c.openCalls run k ≠ []
  depth : ∀ k ≤ n, (c.openCalls run k).length < 32768
  /-- A call within another one does not move S by its operand. -/
  operands : ∀ k < n, (c.trajectory run k).callEvent (run k) = .call → c.openCalls run k ≠ [] →
    (c.trajectory run k).decoded.s = (c.trajectory run k).regs.s
  others : ∀ k < n, (c.trajectory run k).callEvent (run k) = .other → c.openCalls run k ≠ [] →
    (c.trajectory run (k + 1)).regs.s = (c.trajectory run k).regs.s ∧
      ∀ j ∈ c.openCalls run k,
        (c.trajectory run (k + 1)).bus.memory.readWord ((c.trajectory run j).decoded.s - 2) =
          (c.trajectory run k).bus.memory.readWord ((c.trajectory run j).decoded.s - 2)

/-- S before the push of a call and the address behind the call. -/
def slotOf (c : Core) (run : Nat → Stimulus) (j : Nat) : UInt16 × UInt16 :=
  ((c.trajectory run j).decoded.s, (c.trajectory run j).listed.next)

/-- Step `k` of a run returns from the call that step `j` executed: in between all calls have returned,
and it brings back S and goes on behind the call. -/
structure ReturnsFrom (c : Core) (run : Nat → Stimulus) (j k : Nat) : Prop where
  latest : c.openCalls run k = j :: c.openCalls run j
  before : j < k
  call : (c.trajectory run j).callEvent (run j) = .call
  succeeds : ∃ cycles, (c.trajectory run k).step.1 = .ok cycles
  pc : ∀ symbols, (c.trajectory run (k + 1)).regs.pc = (Operation.decode
    (c.trajectory run j).bus.memory symbols (c.trajectory run j).regs.pc).next
  stack : (c.trajectory run (k + 1)).regs.s = (c.trajectory run j).decoded.s

theorem plain_trajectory (plain : c.bus.Plain) (run : Nat → Stimulus) (k : Nat) :
    (c.trajectory run k).bus.Plain := by
  induction k with
  | zero => exact plain
  | succ k ih =>
      change ((c.trajectory run k).after (run k)).bus.Plain
      cases run k with
      | step => exact plain_stable.step ih
      | change request => exact ih
      | queue request => exact ih

/-- Only a step calls or returns. -/
theorem step_of_event {event : CallEvent} (active : event ≠ .other)
    (found : (c.trajectory run k).callEvent (run k) = event) :
    (c.trajectory run k).callEvent .step = event ∧
      c.trajectory run (k + 1) = (c.trajectory run k).step.2 := by
  change _ ∧ (c.trajectory run k).after (run k) = _
  revert found
  cases run k with
  | step => exact fun found => ⟨found, rfl⟩
  | change request => exact fun found => absurd found.symm active
  | queue request => exact fun found => absurd found.symm active

/-- The calls below an open one are those that were open as it was made. -/
theorem openCalls_of_suffix {j : Nat} {rest : List Nat} (inner : (j :: rest) <:+ c.openCalls run k) :
    rest = c.openCalls run j ∧ j < k ∧ (c.trajectory run j).callEvent (run j) = .call := by
  induction k with
  | zero => cases List.eq_nil_of_suffix_nil inner
  | succ k ih =>
      have earlier (older : (j :: rest) <:+ c.openCalls run k) : rest = c.openCalls run j ∧
          j < k + 1 ∧ (c.trajectory run j).callEvent (run j) = .call :=
        ⟨(ih older).1, Nat.lt_succ_of_lt (ih older).2.1, (ih older).2.2⟩
      cases event : (c.trajectory run k).callEvent (run k) with
      | call =>
          rw [openCalls_of_call event] at inner
          rcases List.suffix_cons_iff.mp inner with whole | older
          · obtain ⟨rfl, rfl⟩ := List.cons.inj whole
            exact ⟨rfl, Nat.lt_succ_self _, event⟩
          · exact earlier older
      | ret =>
          rw [openCalls_of_ret event] at inner
          exact earlier (inner.trans (List.tail_suffix _))
      | other =>
          rw [openCalls_of_other event] at inner
          exact earlier inner

/-- A call lays its return address on top of those of the calls that are open. -/
theorem Calls.holds (h : c.Calls) {calls : List (UInt16 × UInt16)}
    (held : c.bus.memory.HoldsCalls c.decoded.s calls) (few : calls.length < 32767) :
    c.step.2.bus.memory.HoldsCalls c.step.2.regs.s ((c.decoded.s, c.listed.next) :: calls) := by
  rw [h.stack, h.memory]
  exact ⟨rfl, Memory.readWord_writeWord_self _ _ _, held.push few _⟩

/-- As long as calls are well nested, the return addresses of the open ones lie on top of S. -/
theorem holdsCalls_trajectory (plain : c.bus.Plain) (nested : c.WellNested run n) (reached : k ≤ n) :
    (c.trajectory run k).bus.memory.HoldsCalls (c.trajectory run k).regs.s
      ((c.openCalls run k).map (c.slotOf run)) := by
  -- A call adds a slot on top and RTS takes one away; nothing else reaches those that there are.
  induction k with
  | zero => trivial
  | succ k ih =>
      have held := ih (Nat.le_of_succ_le reached)
      have quiet := plain_trajectory plain run k
      have below : k < n := reached
      cases event : (c.trajectory run k).callEvent (run k) with
      | call =>
          obtain ⟨call, next⟩ := step_of_event CallEvent.noConfusion event
          have few : ((c.openCalls run k).map (c.slotOf run)).length < 32767 := by
            have depth := nested.depth (k + 1) reached
            rw [openCalls_of_call event, List.length_cons] at depth
            rw [List.length_map]
            omega
          have outer : (c.trajectory run k).bus.memory.HoldsCalls (c.trajectory run k).decoded.s
              ((c.openCalls run k).map (c.slotOf run)) := by
            by_cases outermost : c.openCalls run k = []
            · rw [outermost]
              trivial
            · rw [nested.operands k below event outermost]
              exact held
          rw [openCalls_of_call event, List.map_cons, next]
          exact (calls_of_call quiet call).holds outer few
      | ret =>
          obtain ⟨ret, next⟩ := step_of_event CallEvent.noConfusion event
          have returned := returnsTo_of_ret quiet ret
          obtain ⟨j, rest, calls⟩ := List.exists_cons_of_ne_nil (nested.matched k below event)
          rw [calls] at held
          obtain ⟨top, -, others⟩ := held
          rw [openCalls_of_ret event, calls, next, returned.stack, returned.memory, top,
            UInt16.sub_add_cancel]
          exact others
      | other =>
          rw [openCalls_of_other event]
          by_cases none_open : c.openCalls run k = []
          · rw [none_open]
            trivial
          · obtain ⟨still, kept⟩ := nested.others k below event none_open
            rw [still]
            apply held.congr
            intro call member
            obtain ⟨j, listed, rfl⟩ := List.mem_map.mp member
            dsimp only [slotOf]
            exact kept j listed

/-- Without handlers calls and returns match, however deeply they are nested. A call pushes the address
of the operation behind it and goes to its effective address. In a run in which nothing else moves S or
writes the return addresses while calls are open, and never as many are open as half of the addresses,
each RTS goes on behind the latest call that has not returned, with S as it was before its push. -/
theorem returns_match_calls :
    (∀ c : Core, c.bus.Plain → c.callEvent .step = .call → c.Calls) ∧
    (∀ (c : Core) (run : Nat → Stimulus) (n : Nat), c.bus.Plain → c.WellNested run n →
      ∀ k < n, (c.trajectory run k).callEvent (run k) = .ret → ∃ j, c.ReturnsFrom run j k) := by
  refine ⟨fun c plain call => calls_of_call plain call, ?_⟩
  intro c run n plain nested k below event
  obtain ⟨ret, next⟩ := step_of_event CallEvent.noConfusion event
  have returned := returnsTo_of_ret (plain_trajectory plain run k) ret
  have held := holdsCalls_trajectory plain nested (Nat.le_of_lt below)
  obtain ⟨j, rest, calls⟩ := List.exists_cons_of_ne_nil (nested.matched k below event)
  have inner : (j :: rest) <:+ c.openCalls run k := calls.symm ▸ List.suffix_refl _
  obtain ⟨rfl, earlier, call⟩ := openCalls_of_suffix inner
  rw [calls] at held
  obtain ⟨top, address, -⟩ := held
  refine ⟨j, calls, earlier, call, returned.succeeds, ?_, ?_⟩
  · intro symbols
    rw [next, returned.pc, address]
    rfl
  · rw [next, returned.stack, top]
    exact UInt16.sub_add_cancel _ _

/-- A processor before JSR by a pointer that is S itself, which it moves down first. The routine there
calls another one, and the return addresses lie around address zero. -/
def nesting : Core where
  cpu := { Cpu.zero with regs := { Registers.zero with s := 0x0003, pc := 0x2000 } }
  bus := (Bus.blank.pokeBytes 0x2000 [0xAD, 0xE3]).pokeBytes 0x0001 [0x8D, 0x01, 0x39, 0x39]

theorem nesting_returns : nesting.step.2.regs.s = 0xFFFF ∧
    (nesting.trajectory (fun _ => .step) 3).regs.pc = 0x0003 ∧
      (nesting.trajectory (fun _ => .step) 4).regs.pc = 0x2002 ∧
        (nesting.trajectory (fun _ => .step) 4).regs.s = 0x0001 := by
  obtain ⟨single, runs⟩ := returns_match_calls
  have called := single nesting ⟨rfl, rfl⟩ (by decide +kernel)
  have nested : nesting.WellNested (fun _ => .step) 4 :=
    ⟨by decide +kernel, by decide +kernel, by decide +kernel, by decide +kernel⟩
  have returns := runs nesting _ 4 ⟨rfl, rfl⟩ nested
  obtain ⟨j, inner⟩ := returns 2 (by decide) (by decide +kernel)
  obtain ⟨i, outer⟩ := returns 3 (by decide) (by decide +kernel)
  have first : nesting.openCalls (fun _ => .step) 2 = [1, 0] := by decide +kernel
  have last : nesting.openCalls (fun _ => .step) 3 = [0] := by decide +kernel
  obtain rfl : 1 = j := (List.cons.inj (first.symm.trans inner.latest)).1
  obtain rfl : 0 = i := (List.cons.inj (last.symm.trans outer.latest)).1
  refine ⟨?_, ?_, ?_, ?_⟩
  · rw [called.stack]
    decide +kernel
  · rw [inner.pc .empty]
    decide +kernel
  · rw [outer.pc .empty]
    decide +kernel
  · rw [outer.stack]
    decide +kernel

end Core
end Sim6809
