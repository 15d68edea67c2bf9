import Sim6809.Proofs.Interrupt.Wait
import Sim6809.Proofs.Processor.Fault

/-!
Which flags a step can change. An instruction computes a few of them, which follow from the kind of
instruction alone, or it writes the condition codes as a whole, by an operand or from a stack. All other
flags stay as they are, whatever handlers the bus has, as a handler reaches no register.
-/
namespace Sim6809

/-! ### The flags of an operation -/

/-- Two condition codes differ in no flags but these. -/
def Flags.SameBut (changed : List Flag) (before after : Flags) : Prop :=
  ∀ flag, flag ∉ changed → after.get flag = before.get flag

theorem Flags.SameBut.refl (changed : List Flag) (flags : Flags) : SameBut changed flags flags :=
  fun _ _ => rfl

def ByteOp.computedFlags : ByteOp → List Flag
  | add | adc => [.h, .n, .z, .v, .c]
  | sub | sbc | cmp => [.n, .z, .v, .c]
  | and | bit | eor | or => [.n, .z, .v]

def UnaryOp.computedFlags : UnaryOp → List Flag
  | neg | com | clr | asl | rol => [.n, .z, .v, .c]
  | lsr | asr | ror => [.n, .z, .c]
  | inc | dec => [.n, .z, .v]

namespace Alu

open Flags (SameBut)

theorem sameBut_logic8 (flags : Flags) (b : UInt8) : SameBut [.n, .z, .v] flags (logic8 flags b) := by
  intro flag other
  cases flag <;> simp_all [logic8, Flags.get]

theorem sameBut_logic16 (flags : Flags) (w : UInt16) :
    SameBut [.n, .z, .v] flags (logic16 flags w) := by
  intro flag other
  cases flag <;> simp_all [logic16, Flags.get]

theorem sameBut_arith8 (flags : Flags) (result : UInt8) (overflow carry : Bool) :
    SameBut [.n, .z, .v, .c] flags (arith8 flags result overflow carry) := by
  intro flag other
  cases flag <;> simp_all [arith8, Flags.get]

theorem sameBut_arith16 (flags : Flags) (result : UInt16) (overflow carry : Bool) :
    SameBut [.n, .z, .v, .c] flags (arith16 flags result overflow carry) := by
  intro flag other
  cases flag <;> simp_all [arith16, Flags.get]

theorem sameBut_add8 (flags : Flags) (l r : UInt8) (carry : Bool) :
    SameBut [.h, .n, .z, .v, .c] flags (add8 flags l r carry).2 := by
  intro flag other
  cases flag <;> simp_all [add8, arith8, Flags.get]

theorem sameBut_byteOp (op : ByteOp) (flags : Flags) (l r : UInt8) :
    SameBut op.computedFlags flags (byteOp op flags l r).2 := by
  cases op with
  | add => exact sameBut_add8 flags l r false
  | adc => exact sameBut_add8 flags l r flags.carry
  | sub => exact sameBut_arith8 flags _ _ _
  | sbc => exact sameBut_arith8 flags _ _ _
  | cmp => exact sameBut_arith8 flags _ _ _
  | and => exact sameBut_logic8 flags _
  | bit => exact sameBut_logic8 flags _
  | eor => exact sameBut_logic8 flags _
  | or => exact sameBut_logic8 flags _

theorem sameBut_shiftLeft (flags : Flags) (result : UInt8) (carry : Bool) :
    SameBut [.n, .z, .v, .c] flags (shiftLeft flags result carry) := by
  intro flag other
  cases flag <;> simp_all [shiftLeft, Flags.get]

theorem sameBut_shiftRight (flags : Flags) (result : UInt8) (carry : Bool) :
    SameBut [.n, .z, .c] flags (shiftRight flags result carry) := by
  intro flag other
  cases flag <;> simp_all [shiftRight, Flags.get]

theorem sameBut_count (flags : Flags) (result : UInt8) (overflow : Bool) :
    SameBut [.n, .z, .v] flags (count flags result overflow) := by
  intro flag other
  cases flag <;> simp_all [count, Flags.get]

theorem sameBut_unary (op : UnaryOp) (flags : Flags) (b : UInt8) :
    SameBut op.computedFlags flags (unary op flags b).2 := by
  cases op with
  | neg => exact sameBut_arith8 flags _ _ _
  | com =>
      intro flag other
      cases flag <;> simp_all [UnaryOp.computedFlags, unary, logic8, Flags.get]
  | clr => exact sameBut_arith8 flags _ _ _
  | asl => exact sameBut_shiftLeft flags _ _
  | rol => exact sameBut_shiftLeft flags _ _
  | lsr => exact sameBut_shiftRight flags _ _
  | asr => exact sameBut_shiftRight flags _ _
  | ror => exact sameBut_shiftRight flags _ _
  | inc => exact sameBut_count flags _ _
  | dec => exact sameBut_count flags _ _

theorem sameBut_mul (flags : Flags) (l r : UInt8) : SameBut [.z, .c] flags (mul flags l r).2 := by
  intro flag other
  cases flag <;> simp_all [mul, Flags.get]

theorem sameBut_sex (flags : Flags) (b : UInt8) : SameBut [.n, .z] flags (sex flags b).2 := by
  intro flag other
  cases flag <;> simp_all [sex, Flags.get]

theorem sameBut_daa (flags : Flags) (b : UInt8) : SameBut [.n, .z, .c] flags (daa flags b).2 := by
  intro flag other
  cases flag <;> simp_all [daa, Flags.get]

end Alu

/-! ### The flags of an instruction -/

namespace Instruction

/-- Whether an instruction with the given operand byte writes the condition codes as a whole: pulls of
them and transfers into them do so as well. -/
def writesFlags (i : Instruction) (operand : UInt8) : Bool :=
  match i with
  | andcc | orcc | cwai | rti => true
  | pull _ => operand &&& 0x01 != 0
  | tfr => Register.ofCode? (operand &&& 0x0F) == some .cc
  | exg => Register.ofCode? (operand >>> 4) == some .cc ||
      Register.ofCode? (operand &&& 0x0F) == some .cc
  | _ => false

/-- The flags that an instruction sets by itself. -/
def computedFlags : Instruction → List Flag
  | byteOp op _ => op.computedFlags
  | load _ | store _ | loadWord _ | storeWord _ | test _ | testMemory => [.n, .z, .v]
  | addd | subd | compareWord _ => [.n, .z, .v, .c]
  | loadAddress .x | loadAddress .y => [.z]
  | unary op _ | modify op => op.computedFlags
  | mul => [.z, .c]
  | daa => [.n, .z, .c]
  | sex => [.n, .z]
  | swi => [.e, .f, .i]
  | swi2 | swi3 => [.e]
  | _ => []

/-- The instructions in between which a program can carry on a computation of several words: the loop
counts, moves data and calls, and the carry goes through. -/
def keepsCarry : Instruction → Bool
  | load _ | store _ | loadWord _ | storeWord _ | loadAddress _ => true
  | unary .inc _ | unary .dec _ | modify .inc | modify .dec | test _ | testMemory => true
  | byteOp .and _ | byteOp .or _ | byteOp .eor _ | byteOp .bit _ => true
  | sex | abx | branch _ | longBranch _ | jmp | bsr | lbsr | jsr | rts | push _ => true
  | nop | illegal => true
  | _ => false

/-- No instruction that keeps the carry writes the condition codes or computes it. -/
theorem carry_of_keepsCarry {i : Instruction} (h : i.keepsCarry = true) :
    (∀ operand, i.writesFlags operand = false) ∧ .c ∉ i.computedFlags := by
  cases i with
  | byteOp op acc =>
      cases op <;> simp_all [keepsCarry, writesFlags, computedFlags, ByteOp.computedFlags]
  | unary op acc =>
      cases op <;> simp_all [keepsCarry, writesFlags, computedFlags, UnaryOp.computedFlags]
  | modify op =>
      cases op <;> simp_all [keepsCarry, writesFlags, computedFlags, UnaryOp.computedFlags]
  | loadAddress register => cases register <;> simp [writesFlags, computedFlags]
  | _ => simp_all [keepsCarry, writesFlags, computedFlags]

/-- The masks are set by SWI, the E flag by software interrupts, and the half carry by additions of
bytes. -/
theorem eq_of_computedFlags (i : Instruction) :
    (.i ∈ i.computedFlags → i = .swi) ∧ (.f ∈ i.computedFlags → i = .swi) ∧
      (.e ∈ i.computedFlags → i = .swi ∨ i = .swi2 ∨ i = .swi3) ∧
      (.h ∈ i.computedFlags → ∃ acc, i = .byteOp .add acc ∨ i = .byteOp .adc acc) := by
  cases i with
  | byteOp op acc => cases op <;> simp [computedFlags, ByteOp.computedFlags]
  | unary op acc => cases op <;> simp [computedFlags, UnaryOp.computedFlags]
  | modify op => cases op <;> simp [computedFlags, UnaryOp.computedFlags]
  | loadAddress register => cases register <;> simp [computedFlags]
  | _ => simp [computedFlags]

end Instruction

theorem StackPointer.cc_not_selected (stack : StackPointer) {mask : UInt8}
    (h : (mask &&& 0x01 != 0) = false) : .cc ∉ stack.selected mask := by
  intro selected
  obtain ⟨⟨register, chosen⟩, member, picked⟩ := List.mem_filterMap.mp selected
  cases stack <;> simp_all [maskOrder, maskBits]

namespace Registers

theorem cc_setStack (r : Registers) (stack : StackPointer) (value : UInt16) :
    (r.setStack stack value).cc = r.cc := by
  cases stack with
  | s => rfl
  | u => rfl

theorem cc_setIndex (r : Registers) (register : IndexRegister) (value : UInt16) :
    (r.setIndex register value).cc = r.cc := by
  cases register with
  | x => rfl
  | y => rfl
  | u => rfl
  | s => rfl

theorem cc_set {register : Register} (h : register ≠ .cc) (r : Registers) (value : UInt16) :
    (r.set register value).cc = r.cc := by
  cases register with
  | cc => exact absurd rfl h
  | _ => rfl

end Registers

namespace Core

open Flags (SameBut)

variable {c d : Core}

theorem pushEntire_cc (c : Core) : c.pushEntire.regs.cc = { c.regs.cc with entire := true } :=
  (c.setFlags { c.regs.cc with entire := true }).pushRegisters_part
    Registers.cc (fun r => r.cc_setStack .s) entireFrame

theorem softwareInterrupt_cc (c : Core) (event : Event) (masks : Bool) :
    (c.softwareInterrupt event masks).regs.cc =
      if masks then Flags.maskInterrupts { c.regs.cc with entire := true }
      else { c.regs.cc with entire := true } := by
  have pushed := c.pushEntire_cc
  unfold softwareInterrupt
  generalize c.pushEntire = d at pushed
  rw [← pushed]
  cases masks with
  | true => rfl
  | false => rfl

/-- An instruction that does not write the condition codes as a whole changes no flags but those that
it computes. -/
theorem execute_flags {i : Instruction} (h : i.writesFlags c.operandByte.1 = false) :
    SameBut i.computedFlags c.regs.cc (c.execute i).2.regs.cc := by
  have kept {d : Core} (same : d.regs.cc = c.regs.cc) : SameBut [] c.regs.cc d.regs.cc :=
    same ▸ .refl [] _
  cases i with
  | nop => exact kept rfl
  | illegal => exact kept rfl
  | byteOp op acc => exact Alu.sameBut_byteOp op _ _ _
  | load acc => exact Alu.sameBut_logic8 _ _
  | store acc => exact Alu.sameBut_logic8 _ _
  | addd => exact Alu.sameBut_arith16 _ _ _ _
  | subd => exact Alu.sameBut_arith16 _ _ _ _
  | compareWord register => exact Alu.sameBut_arith16 _ _ _ _
  | loadWord register => exact Alu.sameBut_logic16 _ _
  | storeWord register => exact Alu.sameBut_logic16 _ _
  | loadAddress register =>
      -- LEAX and LEAY tell whether the address is zero; LEAU and LEAS tell nothing.
      have zero (ea : UInt16) : SameBut [.z] c.regs.cc { c.regs.cc with zero := ea == 0 } := by
        intro flag other
        cases flag <;> simp_all [Flags.get]
      cases register with
      | x => exact zero c.cpu.ea
      | y => exact zero c.cpu.ea
      | u => exact kept rfl
      | s => exact kept rfl
  | unary op acc => exact Alu.sameBut_unary op _ _
  | modify op => exact Alu.sameBut_unary op _ _
  | test acc => exact Alu.sameBut_logic8 _ _
  | testMemory => exact Alu.sameBut_logic8 _ _
  | abx => exact kept rfl
  | mul => exact Alu.sameBut_mul _ _ _
  | daa => exact Alu.sameBut_daa _ _
  | sex => exact Alu.sameBut_sex _ _
  | tfr =>
      refine kept (c.onPair_part Registers.cc fun pair named r => ?_)
      rw [c.selectPair_ok named]
      exact Registers.cc_set (selectRegister_ne _ Register.noConfusion h) _ _
  | exg =>
      obtain ⟨first, second⟩ := Bool.or_eq_false_iff.mp h
      refine kept (c.onPair_part Registers.cc fun pair named r => ?_)
      rw [c.selectPair_ok named]
      exact (Registers.cc_set (selectRegister_ne _ Register.noConfusion second) _ _).trans
        (Registers.cc_set (selectRegister_ne _ Register.noConfusion first) _ _)
  | branch condition =>
      simp only [execute]
      split
      · exact kept rfl
      · exact kept rfl
  | longBranch condition =>
      simp only [execute]
      split
      · exact kept rfl
      · exact kept rfl
  | bsr => exact kept rfl
  | lbsr => exact kept rfl
  | jsr => exact kept rfl
  | jmp => exact kept rfl
  | rts =>
      exact kept (c.pullRegister_part Registers.cc (fun r => r.cc_setStack .s)
        (Registers.cc_set Register.noConfusion))
  | push stack =>
      exact kept (pushRegisters_part _ Registers.cc (fun r => r.cc_setStack stack) _)
  | pull stack =>
      refine kept (pullRegisters_part _ Registers.cc (fun r => r.cc_setStack stack) ?_)
      intro register member
      exact Registers.cc_set fun same => stack.cc_not_selected h (same ▸ member)
  | swi =>
      simp only [execute]
      rw [softwareInterrupt_cc]
      intro flag other
      cases flag <;> simp_all [Instruction.computedFlags, Flags.maskInterrupts, Flags.get]
  | swi2 =>
      simp only [execute]
      rw [softwareInterrupt_cc]
      intro flag other
      cases flag <;> simp_all [Instruction.computedFlags, Flags.get]
  | swi3 =>
      simp only [execute]
      rw [softwareInterrupt_cc]
      intro flag other
      cases flag <;> simp_all [Instruction.computedFlags, Flags.get]
  | sync => exact kept rfl
  -- The others write the codes as a whole.
  | andcc => cases h
  | orcc => cases h
  | cwai => cases h
  | rti => cases h

/-! ### What precedes an instruction -/

theorem noteReserved_regs (c : Core) (postbyte : UInt8) (start : UInt16) :
    (c.noteReserved postbyte start).regs = c.regs := by
  unfold noteReserved
  split
  · rfl
  · rfl

theorem resolve_regs (c : Core) (address : UInt16) (decoded : IndexedPostbyte) :
    (c.resolve address decoded).2.regs = c.regs := by
  unfold resolve
  split
  · rfl
  · rfl

section Located

variable {α : Type} (part : Registers → α) (pc : ∀ r pc, part { r with pc } = part r)
  (index : ∀ r i value, part (r.setIndex i value) = part r)
include pc index

theorem indexedAddress_part (c : Core) (register : IndexRegister) (form : IndexedForm) :
    part (c.indexedAddress register form).2.regs = part c.regs := by
  cases form with
  | postIncrement1 => exact index c.regs register _
  | postIncrement2 => exact index c.regs register _
  | preDecrement1 => exact index c.regs register _
  | preDecrement2 => exact index c.regs register _
  | offset8 => exact pc c.regs _
  | pcRelative8 => exact pc c.regs _
  | offset16 => exact (pc _ _).trans (pc c.regs _)
  | pcRelative16 => exact (pc _ _).trans (pc c.regs _)
  | extendedIndirect => exact (pc _ _).trans (pc c.regs _)
  | _ => rfl

theorem locate_part (c : Core) (mode : AddressMode) :
    part (c.locate mode).2.regs = part c.regs := by
  cases mode with
  | inherent => rfl
  | immediate8 => exact pc c.regs _
  | immediate16 => exact pc c.regs _
  | direct => exact pc c.regs _
  | extended => exact (pc _ _).trans (pc c.regs _)
  | relative8 => exact pc c.regs _
  | relative16 => exact (pc _ _).trans (pc c.regs _)
  | indexed =>
      change part c.locateIndexed.2.regs = _
      rw [locateIndexed_eq]
      dsimp only
      rw [resolve_regs, indexedAddress_part part pc index, noteReserved_regs]
      exact pc c.regs _

/-- Before an instruction is executed only the program counter and an index register move. -/
theorem located_part (c : Core) : part c.located.2.regs = part c.regs := by
  unfold located
  rw [locate_part part pc index, noteUndefined_regs, fetchOpcode_regs, pc]

end Located

theorem located_cc (c : Core) : c.located.2.regs.cc = c.regs.cc :=
  located_part Registers.cc (fun _ _ => rfl) Registers.cc_setIndex c

/-! ### Steps -/

/-- The instruction that a processor begins writes the condition codes as a whole. -/
def WritesFlags (c : Core) : Prop :=
  c.fetched.instruction.writesFlags c.located.2.operandByte.1 = true

theorem perform_flags (h : ¬ c.WritesFlags) :
    SameBut c.fetched.instruction.computedFlags c.regs.cc c.perform.2.regs.cc := by
  rw [perform_eq, ← c.located_cc]
  exact execute_flags (Bool.of_not_eq_true h)

/-- An instruction that fails puts back all registers. -/
theorem conclude_flags (h : ¬ c.WritesFlags) (spent : Nat) :
    SameBut c.fetched.instruction.computedFlags c.regs.cc
      (c.conclude spent c.perform).2.regs.cc := by
  have performed := perform_flags h
  revert performed
  rcases c.perform with ⟨answer, d⟩
  intro performed
  cases answer with
  | ok cycles => exact performed
  | error fault => exact .refl _ _

/-- A step that changes a flag without an interrupt does so by its instruction, which writes the
condition codes as a whole or computes the flag. -/
theorem flag_changed (unserved : c.serves? .step = none) (flag : Flag)
    (changed : c.step.2.regs.cc.get flag ≠ c.regs.cc.get flag) : ∃ d, c.begins? = some d ∧
      (d.WritesFlags ∨ flag ∈ d.fetched.instruction.computedFlags) := by
  have regs := roused_regs_of_unserved unserved
  cases begins : c.begins? with
  | none =>
      obtain ⟨cycles, stepped⟩ := step_of_unbegun begins
      rw [stepped] at changed
      exact absurd (congrArg (fun regs : Registers => regs.cc.get flag) regs) changed
  | some d =>
      obtain ⟨spent, stepped⟩ := step_of_begins? begins
      refine ⟨d, rfl, Classical.byContradiction fun neither => ?_⟩
      obtain ⟨partly, uncomputed⟩ := not_or.mp neither
      have kept := conclude_flags partly spent flag uncomputed
      rw [stepped, ← regs, ← eq_roused_of_begins? begins] at changed
      exact changed kept

/-- A step and the flags that a program relies on. Each rule names the instructions that may change
them. -/
structure FlagsGuarded (c : Core) : Prop where
  masks (flag : Flag) : flag = .i ∨ flag = .f →
    c.step.2.regs.cc.get flag ≠ c.regs.cc.get flag →
    ∃ d, c.begins? = some d ∧ (d.WritesFlags ∨ d.fetched.instruction = .swi)
  entire : c.step.2.regs.cc.entire ≠ c.regs.cc.entire → ∃ d, c.begins? = some d ∧ (d.WritesFlags ∨
    d.fetched.instruction = .swi ∨ d.fetched.instruction = .swi2 ∨ d.fetched.instruction = .swi3)
  halfCarry : c.step.2.regs.cc.halfCarry ≠ c.regs.cc.halfCarry → ∃ d, c.begins? = some d ∧
    (d.WritesFlags ∨ ∃ acc, d.fetched.instruction = .byteOp .add acc ∨
      d.fetched.instruction = .byteOp .adc acc)
  carry (d : Core) : c.begins? = some d → d.fetched.instruction.keepsCarry = true →
    c.step.2.regs.cc.carry = c.regs.cc.carry
  failed (fault : Fault) : c.step.1 = .error fault → c.step.2.regs.cc = c.regs.cc
  waiting : c.begins? = none → c.step.2.regs.cc = c.regs.cc

/-- A step that admits no interrupt changes a flag by nothing but its instruction, and no instruction
writes a flag that it has no business with. -/
theorem step_guards_flags (unserved : c.serves? .step = none) : c.FlagsGuarded := by
  have regs := roused_regs_of_unserved unserved
  refine ⟨?_, ?_, ?_, ?_, ?_, ?_⟩
  · intro flag mask changed
    obtain ⟨d, begins, cause⟩ := flag_changed unserved flag changed
    refine ⟨d, begins, cause.imp_right ?_⟩
    rcases mask with rfl | rfl
    · exact d.fetched.instruction.eq_of_computedFlags.1
    · exact d.fetched.instruction.eq_of_computedFlags.2.1
  · intro changed
    obtain ⟨d, begins, cause⟩ := flag_changed unserved .e changed
    exact ⟨d, begins, cause.imp_right d.fetched.instruction.eq_of_computedFlags.2.2.1⟩
  · intro changed
    obtain ⟨d, begins, cause⟩ := flag_changed unserved .h changed
    exact ⟨d, begins, cause.imp_right d.fetched.instruction.eq_of_computedFlags.2.2.2⟩
  · intro d begins keeps
    obtain ⟨partly, uncomputed⟩ := Instruction.carry_of_keepsCarry keeps
    refine Classical.byContradiction fun changed => ?_
    obtain ⟨e, begun, cause⟩ := flag_changed unserved .c changed
    rw [begins] at begun
    obtain rfl : d = e := Option.some.inj begun
    rcases cause with writes | computes
    · rw [WritesFlags, partly] at writes
      cases writes
    · exact uncomputed computes
  · intro fault failed
    rw [regs_of_error failed, regs]
  · intro unbegun
    obtain ⟨cycles, stepped⟩ := step_of_unbegun unbegun
    rw [stepped]
    exact congrArg Registers.cc regs

/-- A processor with all flags set and a masked request, before INCA. -/
def flagged : Core where
  cpu := { Cpu.zero with
    regs := { Registers.zero with pc := 0x2000, cc := .ofByte 0xFF }
    latches := ⟨false, true, true⟩ }
  bus := Bus.blank.poke 0x2000 0x4C

theorem flagged_keeps : flagged.step.2.regs.a = 1 ∧
    flagged.step.2.regs.cc.carry = true ∧ flagged.step.2.regs.cc.text = "EFHI---C" ∧
    (mismatched .clear).step.2.regs.cc = (mismatched .clear).regs.cc := by
  have carry := (step_guards_flags (c := flagged) rfl).carry _ rfl rfl
  have failed : (mismatched .clear).step.1 = .error (.mismatchedRegisters .a .x) := by rfl
  have kept := (step_guards_flags (c := mismatched .clear) rfl).failed _ failed
  exact ⟨by rfl, carry, by rfl, kept⟩

end Core
end Sim6809
