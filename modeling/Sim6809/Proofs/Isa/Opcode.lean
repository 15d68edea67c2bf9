import Sim6809.Isa.Opcode

/-!
What the opcode map says of an instruction wherever it stands: whether it has an operand to work on,
and the mode of those that have only one. Each fact is read off the three pages once.
-/
namespace Sim6809

namespace Instruction

/-- The instructions that work on the operand's address. -/
def usesAddress : Instruction → Bool
  | unary _ _ | test _ | nop | illegal | abx | mul | daa | sex | rts | rti | swi | swi2 | swi3
  | sync => false
  | _ => true

/-- The only mode of the instructions that have no other. -/
def mode? : Instruction → Option AddressMode
  | branch _ | bsr => some .relative8
  | longBranch _ | lbsr => some .relative16
  | tfr | exg | push _ | pull _ | andcc | orcc | cwai => some .immediate8
  | unary _ _ | test _ | nop | illegal | abx | mul | daa | sex | rts | rti | swi | swi2 | swi3
  | sync => some .inherent
  | _ => none

end Instruction

/-- A page that a byte opens has that byte as its prefix, and the opcode is a second byte. -/
theorem Page.prefixed_of_ofByte? {b : UInt8} {page : Page} (h : ofByte? b = some page) :
    page.prefixByte? = some b ∧ page.opcodeLength = 2 := by
  unfold ofByte? at h
  split at h
  · rename_i first
    cases h
    exact ⟨congrArg some first.symm, rfl⟩
  · split at h
    · rename_i first
      cases h
      exact ⟨congrArg some first.symm, rfl⟩
    · cases h

namespace Opcode

/-- An undefined opcode and every other one without an operand leaves the operand's address alone,
so nothing may depend on what a former instruction left there. -/
theorem not_usesAddress_of_inherent (page : Page) (byte : UInt8)
    (h : (lookup page byte).mode = .inherent) :
    (lookup page byte).instruction.usesAddress = false := by
  have all : ∀ n : Fin 256, (lookup page (UInt8.ofFin n)).mode = .inherent →
      (lookup page (UInt8.ofFin n)).instruction.usesAddress = false := by
    cases page <;> decide +kernel
  exact all byte.toFin h

theorem mode_of_mode? (page : Page) (byte : UInt8) {mode : AddressMode}
    (h : (lookup page byte).instruction.mode? = some mode) : (lookup page byte).mode = mode := by
  have all : ∀ n : Fin 256, ∀ only ∈ (lookup page (.ofFin n)).instruction.mode?,
      (lookup page (.ofFin n)).mode = only := by
    cases page <;> decide +kernel
  exact all byte.toFin mode h

/-- The instructions that wait have no prefix. -/
theorem unprefixed_of_waits (page : Page) (byte : UInt8)
    (h : (lookup page byte).instruction = .cwai ∨ (lookup page byte).instruction = .sync) :
    page = .unprefixed := by
  have all : ∀ n : Fin 256, (lookup page (.ofFin n)).instruction = .cwai ∨
      (lookup page (.ofFin n)).instruction = .sync → page = .unprefixed := by
    cases page <;> decide +kernel
  exact all byte.toFin h

/-- Transfers and exchanges have no prefix. -/
theorem unprefixed_of_transfers (page : Page) (byte : UInt8)
    (h : (lookup page byte).instruction = .tfr ∨ (lookup page byte).instruction = .exg) :
    page = .unprefixed := by
  have all : ∀ n : Fin 256, (lookup page (.ofFin n)).instruction = .tfr ∨
      (lookup page (.ofFin n)).instruction = .exg → page = .unprefixed := by
    cases page <;> decide +kernel
  exact all byte.toFin h

/-- The pushes and pulls by a mask have no prefix, and the same base cycles. -/
theorem of_stack (page : Page) (byte : UInt8) {stack : StackPointer}
    (h : (lookup page byte).instruction = .push stack ∨
      (lookup page byte).instruction = .pull stack) :
    page = .unprefixed ∧ (lookup page byte).cycles = 5 := by
  have all : ∀ n : Fin 256, (lookup page (.ofFin n)).instruction = .push stack ∨
      (lookup page (.ofFin n)).instruction = .pull stack →
      page = .unprefixed ∧ (lookup page (.ofFin n)).cycles = 5 := by
    cases stack <;> cases page <;> decide +kernel
  exact all byte.toFin h

theorem lookup_undefined {page : Page} {byte : UInt8} (h : lookup? page byte = none) :
    lookup page byte = undefined := by
  unfold lookup
  rw [h]
  rfl

end Opcode
end Sim6809
