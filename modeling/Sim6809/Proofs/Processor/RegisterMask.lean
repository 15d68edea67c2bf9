import Mathlib.Algebra.GroupWithZero.Nat
import Sim6809.Proofs.Interrupt.Wait

/-!
Pushes and pulls of the registers that a mask selects. Each bit of the mask stands for a register, and
the bytes of those that are selected lie on the stack in the order of their bits. A pull by the same
mask takes them back from there, on either stack and wherever the stack wraps.
-/
namespace Sim6809

namespace Register

/-- Whether two registers have a byte in common. -/
def overlaps : Register → Register → Bool
  | .d, .a | .d, .b | .a, .d | .b, .d => true
  | register, other => decide (register = other)

/-- But for D, which shares its bytes with A and B, different registers have none in common. -/
theorem overlaps_of_single {register other : Register} (ne : register ≠ other)
    (single : register ≠ .d) (single' : other ≠ .d) : register.overlaps other = false := by
  revert ne single single'
  cases register <;> cases other <;> decide

end Register

/-- The registers that a mask can select on a stack with the bits that select them, in the order in
which they lie on the stack from its top on. -/
def StackPointer.places (stack : StackPointer) : List (Register × UInt8) :=
  [(.cc, 0x01), (.a, 0x02), (.b, 0x04), (.dp, 0x08), (.x, 0x10), (.y, 0x20),
    (stack.other.register, 0x40), (.pc, 0x80)]

/-- The bytes that a mask selects: one for each of its four lowest bits and two for each other bit. -/
def maskBytes (mask : UInt8) : Nat :=
  ((maskBits mask).zipWith (fun chosen bytes => if chosen then bytes else 0)
    [1, 1, 1, 1, 2, 2, 2, 2]).sum

theorem sum_chosen_le (bits : List Bool) (sizes : List Nat) :
    (bits.zipWith (fun chosen bytes => if chosen then bytes else 0) sizes).sum ≤ sizes.sum := by
  induction bits generalizing sizes with
  | nil => exact Nat.zero_le _
  | cons chosen bits ih =>
      cases sizes with
      | nil => exact Nat.le_refl 0
      | cons bytes sizes =>
          have first : (if chosen then bytes else 0) ≤ bytes := by split <;> omega
          exact Nat.add_le_add first (ih sizes)

theorem maskBytes_le (mask : UInt8) : maskBytes mask ≤ 12 := sum_chosen_le _ _

namespace Registers

/-- The bytes that a mask selects, from the top of the stack on. -/
def maskImage (regs : Registers) (stack : StackPointer) (mask : UInt8) : List UInt8 :=
  stack.places.flatMap fun (register, bit) => if mask &&& bit != 0 then regs.bytes register else []

/-- Registers have become others by a pull by a mask: each register that the mask can select has the
value that it had as the registers were pushed if its bit is set, and stays as it is if not, and the
pointer of the stack is raised by the bytes that the mask selects. -/
structure TakenByMask (stack : StackPointer) (mask : UInt8) (pushed before after : Registers) :
    Prop where
  taken : ∀ place ∈ stack.places, after.get place.1 =
    if mask &&& place.2 != 0 then pushed.get place.1 else before.get place.1
  pointer : after.stack stack = before.stack stack + UInt16.ofNat (maskBytes mask)

end Registers

/-! ### Selected registers -/

namespace StackPointer

variable (stack : StackPointer) (mask : UInt8)

/-- A register is selected by its bit. -/
theorem mem_selected : ∀ place ∈ stack.places,
    (place.1 ∈ stack.selected mask ↔ (mask &&& place.2 != 0) = true) := by
  cases stack <;>
    simp [places, selected, maskOrder, maskBits, other, register, List.mem_filterMap]

/-- No mask selects D or the pointer of the stack itself. -/
theorem not_mem_selected {register : Register} (other : register ∉ stack.maskOrder) :
    register ∉ stack.selected mask := by
  intro selected
  obtain ⟨⟨listed, chosen⟩, member, picked⟩ := List.mem_filterMap.mp selected
  obtain ⟨-, same⟩ := Option.ite_none_right_eq_some.mp picked
  cases same
  exact other (List.of_mem_zip member).1

theorem register_not_selected : stack.register ∉ stack.selected mask :=
  stack.not_mem_selected mask (by cases stack <;> decide)

theorem d_not_selected : .d ∉ stack.selected mask :=
  stack.not_mem_selected mask (by cases stack <;> decide)

end StackPointer

namespace Registers

variable (regs saved : Registers) {stack : StackPointer} {mask : UInt8}

theorem frame_filterMap (places : List (Register × Bool)) :
    regs.frame (places.filterMap fun (register, chosen) => if chosen then some register else none) =
      places.flatMap fun (register, chosen) => if chosen then regs.bytes register else [] := by
  induction places with
  | nil => rfl
  | cons place places ih =>
      obtain ⟨register, chosen⟩ := place
      cases chosen with
      | false => exact ih
      | true => exact congrArg (regs.bytes register ++ ·) ih

theorem frame_selected : regs.frame (stack.selected mask) = regs.maskImage stack mask := by
  unfold StackPointer.selected
  rw [frame_filterMap]
  cases stack with
  | s => rfl
  | u => rfl

theorem length_maskImage : (regs.maskImage stack mask).length = maskBytes mask := by
  have lengths : (fun place : Register × UInt8 => List.length
      (if mask &&& place.2 != 0 then regs.bytes place.1 else [])) =
        fun place => if mask &&& place.2 != 0 then place.1.bytes else 0 := by
    funext place
    rw [apply_ite List.length, length_bytes]
    rfl
  unfold maskImage
  rw [List.length_flatMap, lengths]
  cases stack with
  | s => rfl
  | u => rfl

theorem frameBytes_selected (stack : StackPointer) (mask : UInt8) :
    Core.frameBytes (stack.selected mask) = maskBytes mask := by
  rw [← length_frame .zero, frame_selected, length_maskImage]

/-- A register that is given the value of one as wide as it has that value. -/
theorem get_set_of_width {register other : Register} (same : register.isWide = other.isWide) :
    (regs.set register (saved.get other)).get register = saved.get other := by
  by_cases wide : register.isWide = true
  · exact get_set_self_of_isWide regs wide _
  · rw [get_set_self_of_not_isWide regs wide, Core.toUInt16_lo_get (same ▸ wide)]

/-- A register keeps its value as one is set that shares no byte with it. -/
theorem get_set_apart {register other : Register} (apart : register.overlaps other = false)
    (value : UInt16) : (regs.set register value).get other = regs.get other := by
  cases register <;> cases other <;> first | rfl | cases apart

/-- The registers that are restored have the saved values, and the others keep theirs. -/
theorem get_restore {register : Register} {rs : List Register} (single : register ≠ .d)
    (singles : .d ∉ rs) : (regs.restore saved rs).get register =
      if register ∈ rs then saved.get register else regs.get register := by
  induction rs generalizing regs with
  | nil => rfl
  | cons first rs ih =>
      obtain ⟨single', rest⟩ := not_or.mp (mt List.mem_cons.mpr singles)
      change ((regs.set first (saved.get first)).restore saved rs).get register = _
      rw [ih _ rest]
      by_cases later : register ∈ rs
      · rw [if_pos later, if_pos (List.mem_cons_of_mem _ later)]
      · rw [if_neg later]
        by_cases same : first = register
        · subst same
          rw [if_pos List.mem_cons_self, get_set_of_width _ _ rfl]
        · rw [if_neg (List.not_mem_cons_of_ne_of_not_mem (Ne.symm same) later),
            get_set_apart _ (Register.overlaps_of_single same (Ne.symm single') single)]

theorem get_register (stack : StackPointer) : regs.get stack.register = regs.stack stack := by
  cases stack with
  | s => rfl
  | u => rfl

theorem takenByMask_restore : TakenByMask stack mask saved regs ((regs.setStack stack
    (regs.stack stack + UInt16.ofNat (maskBytes mask))).restore saved (stack.selected mask)) where
  taken := by
    have others : ∀ place ∈ stack.places, place.1 ≠ .d ∧ place.1 ≠ stack.register := by
      cases stack <;> decide
    intro place member
    obtain ⟨single, other⟩ := others place member
    rw [get_restore _ _ single (stack.d_not_selected mask), get_setStack _ other]
    exact if_congr (stack.mem_selected mask place member) rfl rfl
  pointer := by
    have single : stack.register ≠ .d := by cases stack <;> decide
    rw [← get_register, get_restore _ _ single (stack.d_not_selected mask),
      if_neg (stack.register_not_selected mask), get_register, stack_setStack]

end Registers

/-! ### Steps -/

namespace Core

variable {c d r f : Core} {stack : StackPointer} {mask : UInt8}

/-- The registers behind an instruction of two bytes. -/
def pastMask (c : Core) : Registers := { c.regs with pc := c.regs.pc + 2 }

/-- A step succeeds with these cycles, on top of those of the entry of an interrupt that it admits. -/
structure Costs (c : Core) (cycles : Nat) : Prop where
  step : c.step.1 = .ok (c.entryCost + cycles)
  alone : c.serves? .step = none → c.step.1 = .ok cycles

/-- A step has pushed what a mask selects from the registers of the processor that began the
instruction, behind the mask. -/
structure PushedByMask (c d : Core) (stack : StackPointer) (mask : UInt8) : Prop where
  cost : c.Costs (5 + maskBytes mask)
  regs : c.step.2.regs =
    d.pastMask.setStack stack (d.regs.stack stack - UInt16.ofNat (maskBytes mask))
  memory : c.step.2.bus.memory = d.bus.memory.writeBytes
    (d.regs.stack stack - UInt16.ofNat (maskBytes mask)) (d.pastMask.maskImage stack mask)
  length : (d.pastMask.maskImage stack mask).length = maskBytes mask

/-- A step executes a pull by a mask in the processor `f`, with the pointer of the stack where a push
left it and the bytes as they were there. Nothing is asked of the other registers. -/
structure Pulls (pushed : Core) (stack : StackPointer) (mask : UInt8) (r f : Core) : Prop where
  begins : r.begins? = some f
  plain : f.bus.Plain
  instruction : f.fetched.instruction = .pull stack
  operand : f.bus.memory.read (f.regs.pc + 1) = mask
  pointer : f.regs.stack stack = pushed.regs.stack stack
  bytes : f.bus.memory.readBytes (pushed.regs.stack stack) (maskBytes mask) =
    pushed.bus.memory.readBytes (pushed.regs.stack stack) (maskBytes mask)

theorem located_of_stack (plain : c.bus.Plain) (instruction : c.fetched.instruction = .push stack ∨
    c.fetched.instruction = .pull stack) (operand : c.bus.memory.read (c.regs.pc + 1) = mask) :
    c.fetched.cycles + c.located.1 = 5 ∧ c.located.2.regs = c.pastMask ∧
      c.located.2.operandByte = (mask, c.located.2) ∧
      c.located.2.bus.memory = c.bus.memory ∧ c.located.2.bus.Plain := by
  obtain ⟨short, cycles⟩ := Opcode.of_stack _ _ instruction
  have mode : c.fetched.mode = .immediate8 := by
    rcases instruction with push | pull
    · exact fetched_mode push rfl
    · exact fetched_mode pull rfl
  obtain ⟨none, regs, byte, memory, quiet⟩ := located_immediate8 plain mode short
  have cycles : c.fetched.cycles = 5 := cycles
  rw [operand] at byte
  exact ⟨by rw [cycles, none], regs, byte, memory, quiet⟩

theorem pastMask_stack (c : Core) (stack : StackPointer) :
    c.pastMask.stack stack = c.regs.stack stack := by
  cases stack with
  | s => rfl
  | u => rfl

theorem costs_of_ok {extra cycles : Nat} (begins : c.begins? = some d)
    (ok : (d.located.2.execute d.fetched.instruction).1 = .ok extra)
    (sum : d.fetched.cycles + d.located.1 + extra = cycles) : c.Costs cycles := by
  have spent := (step_of_ok begins ok).1
  rw [sum] at spent
  refine ⟨spent, ?_⟩
  intro unserved
  rw [spent, entryCost_of_unserved unserved, Nat.zero_add]

theorem pushedByMask (begins : c.begins? = some d) (plain : d.bus.Plain)
    (push : d.fetched.instruction = .push stack)
    (operand : d.bus.memory.read (d.regs.pc + 1) = mask) : c.PushedByMask d stack mask := by
  obtain ⟨base, regs, byte, memory, quiet⟩ := located_of_stack plain (.inl push) operand
  have bytes := Registers.frameBytes_selected stack mask
  have small : frameBytes (stack.selected mask) ≤ 65536 := by
    have few := maskBytes_le mask
    omega
  have executed : d.located.2.execute d.fetched.instruction =
      (.ok (maskBytes mask), d.located.2.pushRegisters stack (stack.selected mask)) := by
    rw [push, ← bytes]
    unfold execute
    rw [byte]
  have pushed := pushRegisters_of_plain quiet (stack.register_not_selected mask) small
  rw [regs, pastMask_stack, bytes, Registers.frame_selected] at pushed
  obtain ⟨-, after, bus⟩ := step_of_ok begins (congrArg Prod.fst executed)
  rw [executed, pushed] at after bus
  refine ⟨costs_of_ok begins (congrArg Prod.fst executed) (congrArg (· + _) base), after, ?_,
    Registers.length_maskImage _⟩
  rw [bus, ← memory]
  rfl

/-- On a bus without handlers a pull by a mask undoes the push by that mask, on either stack. The push
stores the bytes of the selected registers below the pointer, and lowers it by their number. From
whatever registers later have the pointer there, with the bytes unchanged, the pull brings back the
selected registers, the program counter as it was behind the push, and raises the pointer again. -/
theorem pull_undoes_push (begins : c.begins? = some d) (plain : d.bus.Plain)
    (push : d.fetched.instruction = .push stack)
    (operand : d.bus.memory.read (d.regs.pc + 1) = mask) :
    c.PushedByMask d stack mask ∧
      ∀ r f, Pulls c.step.2 stack mask r f → r.Costs (5 + maskBytes mask) ∧
        Registers.TakenByMask stack mask d.pastMask f.pastMask r.step.2.regs := by
  have pushed := pushedByMask begins plain push operand
  refine ⟨pushed, ?_⟩
  intro r f pulls
  obtain ⟨base, regs, byte, memory, quiet⟩ :=
    located_of_stack pulls.plain (.inr pulls.instruction) pulls.operand
  have few := maskBytes_le mask
  have bytes := Registers.frameBytes_selected stack mask
  have executed : f.located.2.execute f.fetched.instruction =
      (.ok (maskBytes mask), f.located.2.pullRegisters stack (stack.selected mask)) := by
    rw [pulls.instruction, ← bytes]
    unfold execute
    rw [byte]
  have held : f.located.2.bus.memory.readBytes (f.located.2.regs.stack stack)
      (frameBytes (stack.selected mask)) = d.pastMask.frame (stack.selected mask) := by
    rw [memory, regs, pastMask_stack, bytes, pulls.pointer, pulls.bytes, pushed.memory, pushed.regs,
      Registers.stack_setStack, Registers.frame_selected, ← pushed.length]
    exact Memory.readBytes_writeBytes_self _ (by rw [pushed.length]; omega)
  have pulled := pullRegisters_of_frame quiet (stack.register_not_selected mask) held
  obtain ⟨-, after, -⟩ := step_of_ok pulls.begins (congrArg Prod.fst executed)
  refine ⟨costs_of_ok pulls.begins (congrArg Prod.fst executed) (congrArg (· + _) base), ?_⟩
  rw [after, executed, pulled, regs, bytes]
  exact Registers.takenByMask_restore _ _

/-- A processor before a push of all registers on the user stack, which wraps around address zero. -/
def pushingAll : Core where
  cpu := { Cpu.zero with
    regs := { Registers.zero with
      a := 0x12, cc := .ofByte 0x81, y := 0x3456, s := 0x1000, u := 0x0005, pc := 0x2000 } }
  bus := (Bus.blank.pokeBytes 0x2000 [0x36, 0xFF]).pokeBytes 0x3000 [0x37, 0xFF]

/-- The processor of that push later, with the pull next and nothing in the other registers. -/
def pullingAll : Core :=
  pushingAll.step.2.setRegs { Registers.zero with u := 0xFFF9, pc := 0x3000 }

theorem pullingAll_restores : pullingAll.step.1 = .ok 17 ∧
    pullingAll.step.2.regs.get .cc = 0x81 ∧ pullingAll.step.2.regs.get .y = 0x3456 ∧
      pullingAll.step.2.regs.get .s = 0x1000 ∧ pullingAll.step.2.regs.get .pc = 0x2002 ∧
      pullingAll.step.2.regs.stack .u = 0x0005 := by
  have undone : pullingAll.Costs (5 + maskBytes 0xFF) ∧ Registers.TakenByMask .u 0xFF
      pushingAll.applyRequests.releaseSync.pastMask pullingAll.applyRequests.releaseSync.pastMask
        pullingAll.step.2.regs :=
    (pull_undoes_push (c := pushingAll) rfl ⟨rfl, rfl⟩ rfl rfl).2 pullingAll _
      ⟨rfl, ⟨rfl, rfl⟩, by rfl, by decide +kernel, by rfl, by decide +kernel⟩
  have taken := undone.2.taken
  exact ⟨undone.1.alone rfl, taken (.cc, 0x01) (by decide), taken (.y, 0x20) (by decide),
    taken (.s, 0x40) (by decide), taken (.pc, 0x80) (by decide), undone.2.pointer⟩

end Core
end Sim6809
