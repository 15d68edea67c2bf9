/-!
The condition codes. The eight flags are packed into one byte, E in the top bit and C in the
lowest, and packing loses nothing.
-/
namespace Sim6809

structure Flags where
  entire : Bool
  firqMask : Bool
  halfCarry : Bool
  irqMask : Bool
  negative : Bool
  zero : Bool
  overflow : Bool
  carry : Bool
  deriving DecidableEq, Repr

inductive Flag
  | e | f | h | i | n | z | v | c
  deriving DecidableEq, Repr

namespace Flags

def clear : Flags := ⟨false, false, false, false, false, false, false, false⟩

def bit (flag : Bool) (weight : UInt8) : UInt8 := if flag then weight else 0

def toByte (flags : Flags) : UInt8 :=
  bit flags.entire 0x80 ||| bit flags.firqMask 0x40 ||| bit flags.halfCarry 0x20 |||
    bit flags.irqMask 0x10 ||| bit flags.negative 0x08 ||| bit flags.zero 0x04 |||
    bit flags.overflow 0x02 ||| bit flags.carry 0x01

def ofByte (b : UInt8) : Flags where
  entire := b &&& 0x80 != 0
  firqMask := b &&& 0x40 != 0
  halfCarry := b &&& 0x20 != 0
  irqMask := b &&& 0x10 != 0
  negative := b &&& 0x08 != 0
  zero := b &&& 0x04 != 0
  overflow := b &&& 0x02 != 0
  carry := b &&& 0x01 != 0

def get (flags : Flags) : Flag → Bool
  | .e => flags.entire
  | .f => flags.firqMask
  | .h => flags.halfCarry
  | .i => flags.irqMask
  | .n => flags.negative
  | .z => flags.zero
  | .v => flags.overflow
  | .c => flags.carry

def set (flags : Flags) (flag : Flag) (value : Bool) : Flags :=
  match flag with
  | .e => { flags with entire := value }
  | .f => { flags with firqMask := value }
  | .h => { flags with halfCarry := value }
  | .i => { flags with irqMask := value }
  | .n => { flags with negative := value }
  | .z => { flags with zero := value }
  | .v => { flags with overflow := value }
  | .c => { flags with carry := value }

def keep (flags : Flags) (mask : UInt8) : Flags := ofByte (flags.toByte &&& mask)

def raise (flags : Flags) (mask : UInt8) : Flags := ofByte (flags.toByte ||| mask)

def maskInterrupts (flags : Flags) : Flags := { flags with irqMask := true, firqMask := true }

def text (flags : Flags) : String :=
  let letter (flag : Bool) (c : Char) := if flag then c else '-'
  String.ofList [letter flags.entire 'E', letter flags.firqMask 'F', letter flags.halfCarry 'H',
    letter flags.irqMask 'I', letter flags.negative 'N', letter flags.zero 'Z',
    letter flags.overflow 'V', letter flags.carry 'C']

@[simp] theorem ofByte_toByte (flags : Flags) : ofByte flags.toByte = flags := by
  obtain ⟨e, f, h, i, n, z, v, c⟩ := flags
  cases e <;> cases f <;> cases h <;> cases i <;> cases n <;> cases z <;> cases v <;> cases c <;> rfl

@[simp] theorem toByte_ofByte (b : UInt8) : (ofByte b).toByte = b := by
  have all : ∀ n : Fin 256, (ofByte (UInt8.ofFin n)).toByte = UInt8.ofFin n := by decide +kernel
  simpa using all b.toFin

theorem text_injective {f g : Flags} (h : f.text = g.text) : f = g := by
  have letters := String.ofList_injective h
  obtain ⟨e, f, h, i, n, z, v, c⟩ := f
  obtain ⟨e', f', h', i', n', z', v', c'⟩ := g
  simp only [List.cons.injEq, and_true] at letters
  obtain ⟨he, hf, hh, hi, hn, hz, hv, hc⟩ := letters
  have eq (a b : Bool) (x : Char) (hx : x ≠ '-')
      (hab : (if a then x else '-') = if b then x else '-') : a = b := by
    cases a <;> cases b <;> simp_all [eq_comm]
  rw [eq _ _ _ (by decide) he, eq _ _ _ (by decide) hf, eq _ _ _ (by decide) hh,
    eq _ _ _ (by decide) hi, eq _ _ _ (by decide) hn, eq _ _ _ (by decide) hz,
    eq _ _ _ (by decide) hv, eq _ _ _ (by decide) hc]

end Flags
end Sim6809
