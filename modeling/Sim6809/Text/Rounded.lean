/-!
Nonnegative doubles as whole numbers. A double is a natural number times a power of two, so it is
rounded exactly; a value halfway between two whole numbers goes to the even one.
-/
namespace Sim6809.Rounded

/-- The quotient rounded to the nearest whole number, a half to the even one. -/
def divNearest (num den : Nat) : Nat :=
  let q := num / den
  let r := num % den
  if 2 * r < den then q
  else if den < 2 * r then q + 1
  else if q % 2 = 0 then q else q + 1

def significand (bits : UInt64) : Nat :=
  let fraction := bits.toNat % (1 <<< 52)
  if (bits.toNat >>> 52) % (1 <<< 11) = 0 then fraction else fraction + (1 <<< 52)

def scale (bits : UInt64) : Nat := max ((bits.toNat >>> 52) % (1 <<< 11)) 1

/-- The whole number nearest to a nonnegative finite double given by its bits. -/
def nearest (bits : UInt64) : Nat :=
  if 1075 ≤ scale bits then significand bits <<< (scale bits - 1075)
  else divNearest (significand bits) (1 <<< (1075 - scale bits))

end Sim6809.Rounded
