import Sim6809.Registers

/-!
The postbyte of an indexed operand. It selects a base register, says where the offset comes from
and whether the address found is that of the operand or that of a word that points to it.
-/
namespace Sim6809

inductive IndexedForm
  | offset5 (offset : UInt8)
  | postIncrement1
  | postIncrement2
  | preDecrement1
  | preDecrement2
  | noOffset
  | accumulatorB
  | accumulatorA
  | offset8
  | offset16
  | accumulatorD
  | pcRelative8
  | pcRelative16
  | extendedIndirect
  | reserved
  deriving DecidableEq, Repr

namespace IndexedForm

def ofLowDigit : Nat → IndexedForm
  | 0x0 => postIncrement1
  | 0x1 => postIncrement2
  | 0x2 => preDecrement1
  | 0x3 => preDecrement2
  | 0x4 => noOffset
  | 0x5 => accumulatorB
  | 0x6 => accumulatorA
  | 0x8 => offset8
  | 0x9 => offset16
  | 0xB => accumulatorD
  | 0xC => pcRelative8
  | 0xD => pcRelative16
  | 0xF => extendedIndirect
  | _ => reserved

def offsetLength : IndexedForm → Nat
  | offset8 | pcRelative8 => 1
  | offset16 | pcRelative16 | extendedIndirect => 2
  | _ => 0

/-- The cycles of the form without indirection; those of an absolute indirect address include
it. -/
def cycles : IndexedForm → Nat
  | offset5 _ => 1
  | postIncrement1 | preDecrement1 => 2
  | postIncrement2 | preDecrement2 => 3
  | noOffset | reserved => 0
  | accumulatorA | accumulatorB => 1
  | offset8 | pcRelative8 => 1
  | offset16 | accumulatorD => 4
  | pcRelative16 => 5
  | extendedIndirect => 5

end IndexedForm

structure IndexedPostbyte where
  register : IndexRegister
  form : IndexedForm
  indirect : Bool
  deriving DecidableEq, Repr

namespace IndexedPostbyte

def registerOf (b : UInt8) : IndexRegister :=
  match b.toNat / 32 % 4 with
  | 0 => .x
  | 1 => .y
  | 2 => .u
  | _ => .s

/-- The low five bits of a byte, with the sign in bit 4 carried into the bits above. -/
def offset5 (b : UInt8) : UInt8 := if b &&& 0x10 = 0 then b &&& 0x0F else b ||| 0xE0

def decode (b : UInt8) : IndexedPostbyte :=
  if b < 0x80 then ⟨registerOf b, .offset5 (offset5 b), false⟩
  else
    let form := IndexedForm.ofLowDigit (b.toNat % 16)
    ⟨registerOf b, form, b &&& 0x10 != 0 || form == .extendedIndirect⟩

def offsetLength (p : IndexedPostbyte) : Nat := p.form.offsetLength

def cycles (p : IndexedPostbyte) : Nat :=
  if p.indirect && p.form != .extendedIndirect then p.form.cycles + 3 else p.form.cycles

theorem offsetLength_le (p : IndexedPostbyte) : p.offsetLength ≤ 2 := by
  obtain ⟨register, form, indirect⟩ := p
  cases form <;> simp [offsetLength, IndexedForm.offsetLength]

theorem cycles_le (p : IndexedPostbyte) : p.cycles ≤ 8 := by
  obtain ⟨register, form, indirect⟩ := p
  cases form <;> cases indirect <;> simp [cycles, IndexedForm.cycles]

end IndexedPostbyte
end Sim6809
