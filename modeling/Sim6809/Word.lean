/-!
Bytes and big-endian words. A word is its high byte followed by its low byte, and an offset
byte is widened by its sign before it is added to an address.
-/
namespace Sim6809.Word

def hi (w : UInt16) : UInt8 := (w >>> 8).toUInt8

def lo (w : UInt16) : UInt8 := w.toUInt8

def join (high low : UInt8) : UInt16 := (high.toUInt16 <<< 8) ||| low.toUInt16

def signExtend (b : UInt8) : UInt16 := if b < 0x80 then b.toUInt16 else 0xFF00 ||| b.toUInt16

def signed (b : UInt8) : Int := if b < 0x80 then b.toNat else (b.toNat : Int) - 256

theorem toNat_hi (w : UInt16) : (hi w).toNat = w.toNat / 256 := by
  have h := w.toNat_lt
  simp only [hi, UInt16.toNat_toUInt8, UInt16.toNat_shiftRight, UInt16.reduceToNat,
    Nat.shiftRight_eq_div_pow, Nat.reduceMod, Nat.reducePow]
  omega

theorem toNat_lo (w : UInt16) : (lo w).toNat = w.toNat % 256 := by
  simp [lo]

theorem toNat_join (high low : UInt8) : (join high low).toNat = high.toNat * 256 + low.toNat := by
  have h := high.toNat_lt
  have l := low.toNat_lt
  simp only [join, UInt16.toNat_or, UInt16.toNat_shiftLeft, UInt8.toNat_toUInt16,
    UInt16.reduceToNat]
  rw [Nat.shiftLeft_eq, show (8 % 16) = 8 from rfl, Nat.mod_eq_of_lt (by omega),
    Nat.mul_comm, ← Nat.two_pow_add_eq_or_of_lt (i := 8) l, Nat.mul_comm]

@[simp] theorem join_hi_lo (w : UInt16) : join (hi w) (lo w) = w := by
  apply UInt16.toNat_inj.1
  rw [toNat_join, toNat_hi, toNat_lo]
  omega

@[simp] theorem hi_join (high low : UInt8) : hi (join high low) = high := by
  have l := low.toNat_lt
  apply UInt8.toNat_inj.1
  rw [toNat_hi, toNat_join]
  omega

@[simp] theorem lo_join (high low : UInt8) : lo (join high low) = low := by
  have l := low.toNat_lt
  apply UInt8.toNat_inj.1
  rw [toNat_lo, toNat_join]
  omega

theorem ext {v w : UInt16} (high : hi v = hi w) (low : lo v = lo w) : v = w := by
  rw [← join_hi_lo v, ← join_hi_lo w, high, low]

end Sim6809.Word
