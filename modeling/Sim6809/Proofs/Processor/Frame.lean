import Sim6809.Listing.Operation
import Sim6809.Proofs.Memory.Bytes
import Sim6809.Proofs.Processor.Plain

/-!
Frames on a stack. Without handlers a push of registers leaves their bytes at the new top of the
stack, and a pull of the same registers from there brings back their values. The stack may wrap around
address zero.
-/
namespace Sim6809

/-- The register that points to the top of a stack. -/
def StackPointer.register : StackPointer → Register
  | s => .s
  | u => .u

namespace Registers

/-- The bytes that a register has on a stack. -/
def bytes (regs : Registers) (register : Register) : List UInt8 :=
  if register.isWide then wordBytes (regs.get register) else [Word.lo (regs.get register)]

/-- The bytes of several registers, from the top of the stack down. -/
def frame (regs : Registers) (rs : List Register) : List UInt8 := rs.flatMap regs.bytes

theorem length_bytes (regs : Registers) (register : Register) :
    (regs.bytes register).length = register.bytes := by
  unfold bytes Register.bytes
  split
  · rfl
  · rfl

theorem length_frame (regs : Registers) (rs : List Register) :
    (regs.frame rs).length = Core.frameBytes rs := by
  induction rs with
  | nil => rfl
  | cons register rs ih =>
      have split : regs.frame (register :: rs) = regs.bytes register ++ regs.frame rs := rfl
      rw [split, List.length_append, length_bytes, ih]
      rfl

/-- The values of some registers are brought back. -/
def restore (regs saved : Registers) (rs : List Register) : Registers :=
  rs.foldl (fun regs register => regs.set register (saved.get register)) regs

section
variable {stack : StackPointer} (regs : Registers)

@[simp] theorem stack_setStack (top : UInt16) : (regs.setStack stack top).stack stack = top := by
  cases stack with
  | s => rfl
  | u => rfl

@[simp] theorem setStack_setStack (top other : UInt16) :
    (regs.setStack stack other).setStack stack top = regs.setStack stack top := by
  cases stack with
  | s => rfl
  | u => rfl

@[simp] theorem setStack_stack : regs.setStack stack (regs.stack stack) = regs := by
  cases stack with
  | s => rfl
  | u => rfl

variable {register : Register} (other : register ≠ stack.register)
include other

/-- A register other than the pointer is the same wherever the stack ends. -/
theorem get_setStack (top : UInt16) : (regs.setStack stack top).get register = regs.get register := by
  cases stack with
  | s =>
      cases register with
      | s => exact absurd rfl other
      | _ => rfl
  | u =>
      cases register with
      | u => exact absurd rfl other
      | _ => rfl

theorem bytes_setStack (top : UInt16) : (regs.setStack stack top).bytes register =
    regs.bytes register := by
  unfold bytes
  rw [get_setStack regs other]

theorem set_setStack (value top : UInt16) : (regs.set register value).setStack stack top =
    (regs.setStack stack top).set register value := by
  cases stack with
  | s =>
      cases register with
      | s => exact absurd rfl other
      | _ => rfl
  | u =>
      cases register with
      | u => exact absurd rfl other
      | _ => rfl

theorem stack_set (value : UInt16) : (regs.set register value).stack stack = regs.stack stack := by
  cases stack with
  | s =>
      cases register with
      | s => exact absurd rfl other
      | _ => rfl
  | u =>
      cases register with
      | u => exact absurd rfl other
      | _ => rfl

end

end Registers

namespace Core

/-- A processor has pushed a frame onto its system stack. -/
structure Pushed (c d : Core) (frame : List UInt8) : Prop where
  regs : d.regs = { c.regs with s := c.regs.s - UInt16.ofNat frame.length }
  frame : d.bus.memory.readBytes d.regs.s frame.length = frame
  plain : d.bus.Plain

variable {c : Core} {stack : StackPointer}

/-- Pushing a register writes its bytes below the top of the stack. -/
theorem pushRegister_of_plain (h : c.bus.Plain) (register : Register) :
    c.pushRegister stack register =
      { c.setRegs (c.regs.setStack stack
          (c.regs.stack stack - UInt16.ofNat register.bytes)) with
        bus := c.bus.pokeBytes (c.regs.stack stack - UInt16.ofNat register.bytes)
          (c.regs.bytes register) } := by
  unfold pushRegister Registers.bytes Register.bytes
  split
  · exact congrArg
      (fun bus => { c.setRegs (c.regs.setStack stack (c.regs.stack stack - 2)) with bus })
      (h.cpuWriteWord (c.regs.stack stack - 2) (c.regs.get register))
  · exact congrArg
      (fun bus => { c.setRegs (c.regs.setStack stack (c.regs.stack stack - 1)) with bus })
      (h.cpuWrite (c.regs.stack stack - 1) (Word.lo (c.regs.get register)))

/-- Pushing registers other than the pointer writes their frame below the top of the stack. -/
theorem pushRegisters_of_plain (h : c.bus.Plain) {rs : List Register}
    (others : stack.register ∉ rs) (small : frameBytes rs ≤ 65536) :
    c.pushRegisters stack rs =
      { c.setRegs (c.regs.setStack stack (c.regs.stack stack - UInt16.ofNat (frameBytes rs))) with
        bus := c.bus.pokeBytes (c.regs.stack stack - UInt16.ofNat (frameBytes rs))
          (c.regs.frame rs) } := by
  induction rs with
  | nil =>
      have top : c.regs.stack stack - UInt16.ofNat 0 = c.regs.stack stack := UInt16.sub_zero _
      change c = { c.setRegs (c.regs.setStack stack (c.regs.stack stack - UInt16.ofNat 0)) with
        bus := c.bus }
      rw [top, Registers.setStack_stack]
      rfl
  | cons register rs ih =>
      -- The registers behind the first one are pushed before it, and it lies below their frame.
      have parts : frameBytes (register :: rs) = register.bytes + frameBytes rs := rfl
      obtain ⟨first, rest⟩ := not_or.mp (mt List.mem_cons.mpr others)
      have lower : c.regs.stack stack - UInt16.ofNat (frameBytes rs) - UInt16.ofNat register.bytes =
          c.regs.stack stack - UInt16.ofNat (frameBytes (register :: rs)) := by
        rw [Memory.sub_sub_eq, parts, UInt16.ofNat_add, UInt16.add_comm]
      have upper : c.regs.stack stack - UInt16.ofNat (frameBytes rs) =
          c.regs.stack stack - UInt16.ofNat (frameBytes (register :: rs)) +
            UInt16.ofNat (c.regs.bytes register).length := by
        rw [Registers.length_bytes, ← lower, UInt16.sub_add_cancel]
      have length : (c.regs.bytes register).length + (c.regs.frame rs).length ≤ 65536 := by
        rw [Registers.length_bytes, Registers.length_frame]
        exact small
      have stretch := Memory.writeBytes_below c.bus.memory
        (a := c.regs.stack stack - UInt16.ofNat (frameBytes (register :: rs))) length
      rw [← upper] at stretch
      change (c.pushRegisters stack rs).pushRegister stack register = _
      rw [ih rest (by omega)]
      generalize pushed : ({ c.setRegs _ with bus := _ } : Core) = d
      have plain : d.bus.Plain := pushed ▸ h
      have regs : d.regs = c.regs.setStack stack
          (c.regs.stack stack - UInt16.ofNat (frameBytes rs)) := by
        rw [← pushed]
        rfl
      rw [pushRegister_of_plain plain, regs, Registers.stack_setStack, Registers.setStack_setStack,
        Registers.bytes_setStack _ (Ne.symm first), lower, ← pushed]
      exact congrArg (fun memory => { c.setRegs _ with bus := { c.bus with memory } }) stretch

/-- Pushing a list of registers other than S leaves their frame. -/
theorem pushed_pushRegisters (h : c.bus.Plain) {rs : List Register} (others : .s ∉ rs)
    (small : frameBytes rs ≤ 65536) : Pushed c (c.pushRegisters .s rs) (c.regs.frame rs) := by
  have length := c.regs.length_frame rs
  rw [pushRegisters_of_plain h others small]
  refine ⟨by rw [length]; rfl, ?_, h⟩
  exact Memory.readBytes_writeBytes_self _ (length.symm ▸ small)

/-- The bytes that some registers have on a stack lie on top of the system stack, which ends below
them where the S among the registers has it. -/
structure Holds (c : Core) (saved : Registers) (rs : List Register) : Prop where
  frame : c.bus.memory.readBytes c.regs.s (frameBytes rs) = saved.frame rs
  stack : c.regs.s + UInt16.ofNat (frameBytes rs) = saved.s

theorem Pushed.holds {c d : Core} {rs : List Register} (p : Pushed c d (c.regs.frame rs)) :
    d.Holds c.regs rs := by
  have frame := p.frame
  have stack := congrArg Registers.s p.regs
  rw [Registers.length_frame] at frame stack
  refine ⟨frame, ?_⟩
  rw [stack]
  exact UInt16.sub_add_cancel _ _

/-- Whoever has the same top of the stack and the same bytes there holds the frame too. -/
theorem Holds.of_same {c d : Core} {saved : Registers} {rs : List Register} (h : c.Holds saved rs)
    (stack : d.regs.s = c.regs.s)
    (frame : d.bus.memory.readBytes c.regs.s (frameBytes rs) =
      c.bus.memory.readBytes c.regs.s (frameBytes rs)) : d.Holds saved rs := by
  constructor
  · rw [stack, frame]
    exact h.frame
  · rw [stack]
    exact h.stack

/-! ### Pulls -/

theorem pullByte_of_plain (h : c.bus.Plain) : c.pullByte stack =
    (c.bus.memory.read (c.regs.stack stack),
      c.setRegs (c.regs.setStack stack (c.regs.stack stack + 1))) :=
  readByte_of_plain (c := c.setRegs (c.regs.setStack stack (c.regs.stack stack + 1))) h _

theorem pullWord_of_plain (h : c.bus.Plain) : c.pullWord stack =
    (c.bus.memory.readWord (c.regs.stack stack),
      c.setRegs (c.regs.setStack stack (c.regs.stack stack + 2))) :=
  readWord_of_plain (c := c.setRegs (c.regs.setStack stack (c.regs.stack stack + 2))) h _

theorem toUInt16_lo_get {register : Register} (narrow : ¬ register.isWide = true)
    (regs : Registers) : (Word.lo (regs.get register)).toUInt16 = regs.get register := by
  cases register with
  | a => exact congrArg UInt8.toUInt16 (UInt8.toUInt8_toUInt16 regs.a)
  | b => exact congrArg UInt8.toUInt16 (UInt8.toUInt8_toUInt16 regs.b)
  | cc => exact congrArg UInt8.toUInt16 (UInt8.toUInt8_toUInt16 regs.cc.toByte)
  | dp => exact congrArg UInt8.toUInt16 (UInt8.toUInt8_toUInt16 regs.dp)
  | _ => exact absurd rfl narrow

/-- Pulling a register from its bytes brings back its value. -/
theorem pullRegister_of_bytes (h : c.bus.Plain) {saved : Registers} {register : Register}
    (held : c.bus.memory.readBytes (c.regs.stack stack) register.bytes = saved.bytes register) :
    c.pullRegister stack register = c.setRegs
      ((c.regs.setStack stack (c.regs.stack stack + UInt16.ofNat register.bytes)).set register
        (saved.get register)) := by
  unfold Registers.bytes Register.bytes at held
  unfold pullRegister Register.bytes
  by_cases wide : register.isWide = true
  · rw [if_pos wide, if_pos wide] at held
    obtain ⟨high, rest⟩ := List.cons.inj held
    obtain ⟨low, _⟩ := List.cons.inj rest
    have value : c.bus.memory.readWord (c.regs.stack stack) = saved.get register := by
      unfold Memory.readWord
      rw [high, low, Word.join_hi_lo]
    rw [if_pos wide, if_pos wide, pullWord_of_plain h, value]
    rfl
  · rw [if_neg wide, if_neg wide] at held
    obtain ⟨byte, _⟩ := List.cons.inj held
    rw [if_neg wide, if_neg wide, pullByte_of_plain h, byte]
    dsimp only
    rw [toUInt16_lo_get wide]
    rfl

theorem pullRegisters_cons (c : Core) (stack : StackPointer) (register : Register)
    (rs : List Register) : c.pullRegisters stack (register :: rs) =
      (c.pullRegister stack register).pullRegisters stack rs := rfl

/-- Pulling registers other than the pointer from their frame brings back their values. -/
theorem pullRegisters_of_frame (h : c.bus.Plain) {saved : Registers} {rs : List Register}
    (others : stack.register ∉ rs)
    (held : c.bus.memory.readBytes (c.regs.stack stack) (frameBytes rs) = saved.frame rs) :
    c.pullRegisters stack rs = c.setRegs ((c.regs.setStack stack
      (c.regs.stack stack + UInt16.ofNat (frameBytes rs))).restore saved rs) := by
  induction rs generalizing c with
  | nil =>
      have top : c.regs.stack stack + UInt16.ofNat 0 = c.regs.stack stack := UInt16.add_zero _
      change c = c.setRegs (c.regs.setStack stack (c.regs.stack stack + UInt16.ofNat 0))
      rw [top, Registers.setStack_stack]
      rfl
  | cons register rs ih =>
      -- The first register is on top, and pulling it raises the pointer to the frame of the others.
      obtain ⟨first, rest⟩ := not_or.mp (mt List.mem_cons.mpr others)
      have other := Ne.symm first
      have parts : frameBytes (register :: rs) = register.bytes + frameBytes rs := rfl
      have bytes : saved.frame (register :: rs) = saved.bytes register ++ saved.frame rs := rfl
      rw [parts, bytes, Memory.readBytes_add] at held
      obtain ⟨top, below⟩ := List.append_inj held (by
        rw [Memory.length_readBytes, Registers.length_bytes])
      have pulled := pullRegister_of_bytes h top
      generalize first : (c.regs.setStack stack (c.regs.stack stack +
        UInt16.ofNat register.bytes)).set register (saved.get register) = regs at pulled
      have pointer : regs.stack stack = c.regs.stack stack + UInt16.ofNat register.bytes := by
        rw [← first, Registers.stack_set _ other, Registers.stack_setStack]
      have later := ih (c := c.setRegs regs) h rest (by
        change c.bus.memory.readBytes (regs.stack stack) _ = _
        rw [pointer]
        exact below)
      have raised : regs.setStack stack (regs.stack stack + UInt16.ofNat (frameBytes rs)) =
          (c.regs.setStack stack (c.regs.stack stack +
            UInt16.ofNat (frameBytes (register :: rs)))).set register (saved.get register) := by
        rw [pointer, ← first, Registers.set_setStack _ other, Registers.setStack_setStack, parts,
          UInt16.ofNat_add, UInt16.add_assoc]
      rw [pullRegisters_cons, pulled, later]
      change c.setRegs ((regs.setStack stack
        (regs.stack stack + UInt16.ofNat (frameBytes rs))).restore saved rs) = _
      rw [raised]
      rfl

theorem restore_entireFrame (regs saved : Registers) :
    regs.restore saved entireFrame = { saved with s := regs.s } := by
  simp [Registers.restore, entireFrame, innerFrame, Registers.set, Registers.get, Word.lo]

theorem restore_fastFrame (regs saved : Registers) :
    regs.restore saved fastFrame = { regs with cc := saved.cc, pc := saved.pc } := by
  simp [Registers.restore, fastFrame, Registers.set, Registers.get, Word.lo]

/-- A pull of a frame takes the registers that its own E flag announces. -/
theorem pullFrame_eq (c : Core) : c.pullFrame =
    if (c.pullRegister .s .cc).regs.cc.entire then (true, c.pullRegisters .s entireFrame)
    else (false, c.pullRegisters .s fastFrame) := by
  have entire : entireFrame = .cc :: (innerFrame ++ [.pc]) := rfl
  rw [entire, fastFrame, pullRegisters_cons, pullRegisters_cons]
  rfl

/-- The condition codes come first in a frame. -/
theorem Holds.pullRegister_cc (h : c.bus.Plain) {saved : Registers} {rs : List Register}
    (held : c.Holds saved (.cc :: rs)) : (c.pullRegister .s .cc).regs.cc = saved.cc := by
  have frame := held.frame
  have parts : frameBytes (.cc :: rs) = Register.bytes .cc + frameBytes rs := rfl
  have bytes : saved.frame (.cc :: rs) = saved.bytes .cc ++ saved.frame rs := rfl
  rw [parts, bytes, Memory.readBytes_add] at frame
  obtain ⟨top, _⟩ := List.append_inj frame (by
    rw [Memory.length_readBytes, Registers.length_bytes])
  have pulled : c.pullRegister .s .cc = c.setRegs
      ({ c.regs with s := c.regs.s + 1 }.set .cc (saved.get .cc)) := pullRegister_of_bytes h top
  rw [pulled]
  change Flags.ofByte (Word.lo saved.cc.toByte.toUInt16) = saved.cc
  rw [Word.lo, UInt8.toUInt8_toUInt16, Flags.ofByte_toByte]

theorem Holds.pullRegisters (h : c.bus.Plain) {saved : Registers} {rs : List Register}
    (others : .s ∉ rs) (held : c.Holds saved rs) : c.pullRegisters .s rs =
      c.setRegs ({ c.regs with s := saved.s }.restore saved rs) := by
  have pulled : c.pullRegisters .s rs = c.setRegs
      ({ c.regs with s := c.regs.s + UInt16.ofNat (frameBytes rs) }.restore saved rs) :=
    pullRegisters_of_frame h others held.frame
  rw [pulled, held.stack]

theorem pullFrame_entire (h : c.bus.Plain) {saved : Registers} (entire : saved.cc.entire = true)
    (held : c.Holds saved entireFrame) : c.pullFrame = (true, c.setRegs saved) := by
  have flags := Holds.pullRegister_cc h held
  rw [pullFrame_eq, flags, entire, held.pullRegisters h (by decide), restore_entireFrame]
  rfl

theorem pullFrame_fast (h : c.bus.Plain) {saved : Registers} (fast : saved.cc.entire = false)
    (held : c.Holds saved fastFrame) : c.pullFrame = (false, c.setRegs
      { c.regs with cc := saved.cc, pc := saved.pc, s := saved.s }) := by
  have flags := Holds.pullRegister_cc h held
  rw [pullFrame_eq, flags, fast, held.pullRegisters h (by decide), restore_fastFrame]
  rfl

end Core
end Sim6809
