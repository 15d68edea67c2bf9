import Sim6809.Isa.Instruction

/-!
The arithmetic and logic unit. Every operation takes the condition codes that were there and gives
its result with the condition codes that it leaves; a flag that an operation does not name stays
as it was.
-/
namespace Sim6809.Alu

def negative8 (b : UInt8) : Bool := b &&& 0x80 != 0

def negative16 (w : UInt16) : Bool := w &&& 0x8000 != 0

def carryIn (carry : Bool) : UInt8 := if carry then 1 else 0

def logic8 (flags : Flags) (b : UInt8) : Flags :=
  { flags with negative := negative8 b, zero := b == 0, overflow := false }

def logic16 (flags : Flags) (w : UInt16) : Flags :=
  { flags with negative := negative16 w, zero := w == 0, overflow := false }

def arith8 (flags : Flags) (result : UInt8) (overflow carry : Bool) : Flags :=
  { flags with negative := negative8 result, zero := result == 0, overflow, carry }

def arith16 (flags : Flags) (result : UInt16) (overflow carry : Bool) : Flags :=
  { flags with negative := negative16 result, zero := result == 0, overflow, carry }

def add8 (flags : Flags) (l r : UInt8) (carry : Bool) : UInt8 × Flags :=
  let sum := l.toNat + r.toNat + carry.toNat
  let result := l + r + carryIn carry
  let flags := { flags with halfCarry := (l ^^^ r ^^^ result) &&& 0x10 != 0 }
  (result, arith8 flags result (negative8 ((l ^^^ result) &&& (r ^^^ result))) (255 < sum))

def sub8 (flags : Flags) (l r : UInt8) (borrow : Bool) : UInt8 × Flags :=
  let result := l - r - carryIn borrow
  (result, arith8 flags result (negative8 ((l ^^^ r) &&& (l ^^^ result)))
    (l.toNat < r.toNat + borrow.toNat))

def add16 (flags : Flags) (l r : UInt16) : UInt16 × Flags :=
  let result := l + r
  (result, arith16 flags result (negative16 ((l ^^^ result) &&& (r ^^^ result)))
    (65535 < l.toNat + r.toNat))

def sub16 (flags : Flags) (l r : UInt16) : UInt16 × Flags :=
  let result := l - r
  (result, arith16 flags result (negative16 ((l ^^^ r) &&& (l ^^^ result))) (l < r))

/-- An operation on an accumulator and a byte; compares and bit tests give the accumulator
back. -/
def byteOp (op : ByteOp) (flags : Flags) (l r : UInt8) : UInt8 × Flags :=
  match op with
  | .add => add8 flags l r false
  | .adc => add8 flags l r flags.carry
  | .sub => sub8 flags l r false
  | .sbc => sub8 flags l r flags.carry
  | .cmp => (l, (sub8 flags l r false).2)
  | .and => (l &&& r, logic8 flags (l &&& r))
  | .bit => (l, logic8 flags (l &&& r))
  | .eor => (l ^^^ r, logic8 flags (l ^^^ r))
  | .or => (l ||| r, logic8 flags (l ||| r))

def shiftLeft (flags : Flags) (result : UInt8) (carry : Bool) : Flags :=
  { flags with
    negative := negative8 result
    zero := result == 0
    overflow := negative8 result ^^ carry
    carry }

def shiftRight (flags : Flags) (result : UInt8) (carry : Bool) : Flags :=
  { flags with negative := negative8 result, zero := result == 0, carry }

def count (flags : Flags) (result : UInt8) (overflow : Bool) : Flags :=
  { flags with negative := negative8 result, zero := result == 0, overflow }

def unary (op : UnaryOp) (flags : Flags) (b : UInt8) : UInt8 × Flags :=
  match op with
  | .neg => (0 - b, arith8 flags (0 - b) (b == 0x80) (b != 0))
  | .com => (~~~b, { logic8 flags (~~~b) with carry := true })
  | .inc => (b + 1, count flags (b + 1) (b == 0x7F))
  | .dec => (b - 1, count flags (b - 1) (b == 0x80))
  | .clr => (0, arith8 flags 0 false false)
  | .asl => (b <<< 1, shiftLeft flags (b <<< 1) (negative8 b))
  | .rol =>
    let result := (b <<< 1) ||| carryIn flags.carry
    (result, shiftLeft flags result (negative8 b))
  | .lsr => (b >>> 1, shiftRight flags (b >>> 1) (b &&& 1 != 0))
  | .asr =>
    let result := (b >>> 1) ||| (b &&& 0x80)
    (result, shiftRight flags result (b &&& 1 != 0))
  | .ror =>
    let result := (b >>> 1) ||| (carryIn flags.carry <<< 7)
    (result, shiftRight flags result (b &&& 1 != 0))

/-- The unsigned product of two bytes; the carry is the top bit of its low byte. -/
def mul (flags : Flags) (l r : UInt8) : UInt16 × Flags :=
  let product := l.toUInt16 * r.toUInt16
  (product, { flags with zero := product == 0, carry := negative8 (Word.lo product) })

def sex (flags : Flags) (b : UInt8) : UInt16 × Flags :=
  let word := Word.signExtend b
  (word, { flags with negative := negative16 word, zero := word == 0 })

def decimalCorrection (flags : Flags) (b : UInt8) : UInt8 :=
  let low := b &&& 0x0F
  let high := b &&& 0xF0
  (if 9 < low || flags.halfCarry then 0x06 else 0) |||
    (if 0x90 < high || flags.carry || (0x80 < high && 9 < low) then 0x60 else 0)

/-- The decimal adjustment of a sum of packed decimal digits; it never clears the carry. -/
def daa (flags : Flags) (b : UInt8) : UInt8 × Flags :=
  let correction := decimalCorrection flags b
  let result := b + correction
  (result, { flags with
    negative := negative8 result
    zero := result == 0
    carry := flags.carry || 0x60 ≤ correction })

end Sim6809.Alu
