import Mathlib.Algebra.GroupWithZero.Nat
import Mathlib.Algebra.Group.Int.Defs
import Sim6809.Isa.Indexed
import Sim6809.Word

/-!
Words as integers. A word stands for the integers that leave it modulo 65536, and sums of words stand
for sums of integers. A number's lowest bits also have a value in two's complement, which is what
widening by the sign keeps.
-/
namespace Sim6809.Word

/-- The two's-complement value of the lowest bits of an integer. -/
def signedBits (bits : Nat) (i : Int) : Int := Int.bmod i (2 ^ bits)

theorem ofInt_toNat (w : UInt16) : UInt16.ofInt w.toNat = w := by
  have bound := w.toNat_lt
  apply UInt16.toNat_inj.1
  change (UInt16.ofNat ((w.toNat : Int) % 65536).toNat).toNat = w.toNat
  rw [UInt16.toNat_ofNat']
  omega

theorem ofInt_congr {i j : Int} (same : i % 65536 = j % 65536) :
    UInt16.ofInt i = UInt16.ofInt j := by
  change UInt16.ofNat (i % 65536).toNat = UInt16.ofNat (j % 65536).toNat
  rw [same]

theorem toNat_ofInt (i : Int) : ((UInt16.ofInt i).toNat : Int) = i % 65536 := by
  change ((UInt16.ofNat (i % 65536).toNat).toNat : Int) = i % 65536
  rw [UInt16.toNat_ofNat']
  omega

/-- The sign of a word does not matter modulo 65536. -/
theorem ofInt_signedBits (i : Int) : UInt16.ofInt (signedBits 16 i) = UInt16.ofInt i :=
  ofInt_congr (Int.bmod_emod (m := 65536))

theorem signExtend_eq_ofInt (b : UInt8) : signExtend b = UInt16.ofInt (signedBits 8 b.toNat) := by
  have all : ∀ n : Fin 256,
      signExtend (.ofFin n) = UInt16.ofInt (signedBits 8 (UInt8.ofFin n).toNat) := by
    decide +kernel
  exact all b.toFin

/-- The constant in a postbyte keeps the value of its five bits. -/
theorem signExtend_offset5 (b : UInt8) :
    signExtend (IndexedPostbyte.offset5 b) = UInt16.ofInt (signedBits 5 b.toNat) := by
  have all : ∀ n : Fin 256, signExtend (IndexedPostbyte.offset5 (.ofFin n)) =
      UInt16.ofInt (signedBits 5 (UInt8.ofFin n).toNat) := by
    decide +kernel
  exact all b.toFin

theorem join_eq_ofInt (high low : UInt8) :
    join high low = UInt16.ofInt (256 * high.toNat + low.toNat) := by
  have value : (256 * high.toNat + low.toNat : Int) = ((join high low).toNat : Int) := by
    rw [toNat_join]
    omega
  rw [value, ofInt_toNat]

end Sim6809.Word
