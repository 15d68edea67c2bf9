import Sim6809.Proofs.Arithmetic.Addition

/-!
Sums of packed decimal numbers of any length. A byte holds two decimal digits. The addition of two such
bytes leaves in H whether the lower digits carry, and DAA corrects both digits by it; the carry that it
leaves is that of the decimal sum.
-/
namespace Sim6809

/-- A byte of two decimal digits. -/
def Packed (b : UInt8) : Prop := b.toNat / 16 ≤ 9 ∧ b.toNat % 16 ≤ 9

instance (b : UInt8) : Decidable (Packed b) := inferInstanceAs (Decidable (_ ∧ _))

/-- The number that the two decimal digits of a byte make. -/
def decimal (b : UInt8) : Nat := 10 * (b.toNat / 16) + b.toNat % 16

/-- The decimal number in the first bytes, the lowest first. -/
def decimalNumber (byte : Nat → UInt8) (n : Nat) : Nat := number 100 (fun k => decimal (byte k)) n

theorem decimal_lt {b : UInt8} (packed : Packed b) : decimal b < 100 := by
  unfold Packed at packed
  unfold decimal
  omega

/-- A sum below its base and a carry are what remains of the total, and whether it reaches the base. -/
theorem sum_of_balance {base sum total : Nat} {carry : Bool} (small : sum < base)
    (balance : sum + base * carry.toNat = total) :
    sum = total % base ∧ (carry = true ↔ base ≤ total) := by
  subst balance
  refine ⟨?_, ?_⟩
  · rw [Nat.add_mul_mod_self_left, Nat.mod_eq_of_lt small]
  · cases carry with
    | false => exact ⟨Bool.noConfusion, fun large => absurd large (Nat.not_le.mpr small)⟩
    | true => exact ⟨fun _ => by rw [Bool.toNat_true]; omega, fun _ => rfl⟩

namespace Alu

theorem bit4_eq (b : UInt8) : (b &&& 0x10 != 0) = b.toBitVec.getLsbD 4 := by
  have bit : (0x10 : UInt8).toBitVec = BitVec.twoPow 8 4 := rfl
  rw [Bool.eq_iff_iff, bne_iff_ne, Ne, ← UInt8.toBitVec_inj, UInt8.toBitVec_and, bit,
    BitVec.and_twoPow]
  cases b.toBitVec.getLsbD 4 <;> decide

/-- The half carry of an addition is the carry out of the lower digits. -/
theorem halfCarry_add8 (flags : Flags) (l r : UInt8) (carry : Bool) :
    (add8 flags l r carry).2.halfCarry = true ↔
      16 ≤ l.toNat % 16 + r.toNat % 16 + carry.toNat := by
  have added : (l + r + carryIn carry).toBitVec =
      l.toBitVec + r.toBitVec + (BitVec.ofBool carry).setWidth 8 := by
    cases carry <;> rfl
  have bit := BitVec.getLsbD_add_add_bool (by decide : 4 < 8) l.toBitVec r.toBitVec carry
  -- Bit 4 of the sum is that of both bytes and the carry into it, which the exclusive ors leave.
  have cancel (x y z : Bool) : (x ^^ y ^^ (x ^^ (y ^^ z))) = z := by
    cases x <;> cases y <;> cases z <;> rfl
  change ((l ^^^ r ^^^ (l + r + carryIn carry)) &&& 0x10 != 0) = true ↔ _
  rw [bit4_eq, UInt8.toBitVec_xor, UInt8.toBitVec_xor, added, BitVec.getLsbD_xor,
    BitVec.getLsbD_xor, bit, cancel]
  exact decide_eq_true_iff

/-- DAA adjusts the lower digit, by 6. -/
def adjustsLow (flags : Flags) (b : UInt8) : Bool := 9 < b.toNat % 16 || flags.halfCarry

/-- DAA adjusts the upper digit, by 6 as well: it is too large, or becomes so by the carry of the lower
one. -/
def adjustsHigh (flags : Flags) (b : UInt8) : Bool :=
  9 < b.toNat / 16 || flags.carry || (8 < b.toNat / 16 && 9 < b.toNat % 16)

theorem daa_eq (flags : Flags) (b : UInt8) : (daa flags b).1.toNat =
    (b.toNat + 6 * (adjustsLow flags b).toNat + 96 * (adjustsHigh flags b).toNat) % 256 ∧
      (daa flags b).2.carry = adjustsHigh flags b := by
  -- DAA reads no more than the byte, H and C.
  have all : ∀ halfCarry carry : Bool, ∀ n : Fin 256,
      let only := { Flags.clear with halfCarry, carry }
      (daa only (.ofFin n)).1.toNat = ((UInt8.ofFin n).toNat +
        6 * (adjustsLow only (.ofFin n)).toNat + 96 * (adjustsHigh only (.ofFin n)).toNat) % 256 ∧
      (daa only (.ofFin n)).2.carry = adjustsHigh only (.ofFin n) := by
    decide +kernel
  exact all flags.halfCarry flags.carry b.toFin

/-- The adjusted sum of decimal digits and a carry is the decimal sum, and so is the carry. -/
theorem daa_adc (flags : Flags) {l r : UInt8} (left : Packed l) (right : Packed r) :
    let sum := add8 flags l r flags.carry
    Packed (daa sum.2 sum.1).1 ∧ decimal (daa sum.2 sum.1).1 +
      100 * (daa sum.2 sum.1).2.carry.toNat = decimal l + decimal r + flags.carry.toNat := by
  intro sum
  have bound := flags.carry.toNat_le
  have balance : sum.1.toNat + 256 * sum.2.carry.toNat = l.toNat + r.toNat + flags.carry.toNat :=
    (links_add8 flags l r flags.carry).adds.balance
  have half : sum.2.halfCarry = true ↔ 16 ≤ l.toNat % 16 + r.toNat % 16 + flags.carry.toNat :=
    halfCarry_add8 flags l r flags.carry
  have carry : sum.2.carry = true ↔ 256 ≤ l.toNat + r.toNat + flags.carry.toNat :=
    decide_eq_true_iff.trans Nat.lt_iff_add_one_le
  have low : adjustsLow sum.2 sum.1 = true ↔
      10 ≤ l.toNat % 16 + r.toNat % 16 + flags.carry.toNat := by
    unfold adjustsLow
    rw [Bool.or_eq_true, decide_eq_true_iff, half]
    unfold Packed at left right
    omega
  -- The upper digit has the carry of an adjusted lower digit from the addition, or is still to get
  -- it from the adjustment. The third condition of DAA foresees the latter.
  have high : adjustsHigh sum.2 sum.1 = true ↔
      10 ≤ l.toNat / 16 + r.toNat / 16 + (adjustsLow sum.2 sum.1).toNat := by
    unfold adjustsHigh
    rw [Bool.or_eq_true, Bool.or_eq_true, Bool.and_eq_true, decide_eq_true_iff, decide_eq_true_iff,
      decide_eq_true_iff, carry]
    unfold Packed at left right
    cases adjusted : adjustsLow sum.2 sum.1 with
    | false =>
        have small := mt low.mpr (by rw [adjusted]; decide)
        rw [Bool.toNat_false]
        omega
    | true =>
        have large := low.mp adjusted
        rw [Bool.toNat_true]
        omega
  obtain ⟨value, codes⟩ := daa_eq sum.2 sum.1
  rw [codes]
  unfold Packed decimal at *
  rw [value]
  -- What is adjusted is known in each case, and the digits of the sum decide.
  revert low high
  cases adjustsLow sum.2 sum.1 <;> cases adjustsHigh sum.2 sum.1 <;>
    simp only [Bool.false_eq_true, false_iff, true_iff, Bool.toNat_false, Bool.toNat_true] <;> omega

end Alu
namespace Core

variable {left right : Nat → UInt8} {cell : Nat → UInt16} {n : Nat} {before : Nat → Core}

/-- The steps that add two decimal numbers of one byte more than given: for each byte, the lowest
first, a load, an addition with the carry, the adjustment and a store. Before the steps for the next
byte anything may happen that leaves the carry, which is clear at first. -/
structure AddsDecimals (left right : Nat → UInt8) (cell : Nat → UInt16) (n : Nat)
    (before : Nat → Core) : Prop where
  load : ∀ k ≤ n, (before k).Takes (.load .a) (left k)
  add : ∀ k ≤ n, ((before k).stepped 1).Takes (.byteOp .adc .a) (right k)
  adjust : ∀ k ≤ n, ∃ d, ((before k).stepped 2).Undertakes .daa d
  store : ∀ k ≤ n, ((before k).stepped 3).WorksAt (.store .a) (cell k)
  carried : ∀ k < n, (before (k + 1)).regs.cc.carry = ((before k).stepped 4).regs.cc.carry
  clear : (before 0).regs.cc.carry = false

/-- The byte in A as it is adjusted. -/
def adjusted (before : Nat → Core) (k : Nat) : UInt8 := ((before k).stepped 3).regs.a

namespace AddsDecimals

/-- The sum of two bytes and the carry, before its adjustment. -/
def sum (left right : Nat → UInt8) (before : Nat → Core) (k : Nat) : UInt8 × Flags :=
  Alu.add8 ((before k).stepped 1).regs.cc (left k) (right k)
    ((before k).stepped 1).regs.cc.carry

theorem leaves_adjusted (h : AddsDecimals left right cell n before) {k : Nat} (place : k ≤ n) :
    ((before k).stepped 2).Leaves .a
      (Alu.daa (sum left right before k).2 (sum left right before k).1) := by
  obtain ⟨d, begun⟩ := h.adjust k place
  obtain ⟨⟨-, result, codes⟩, -⟩ := leaves_loaded (h.load k place) (h.add k place)
  have done := leaves_daa begun
  change ((before k).stepped 2).regs.acc .a = (sum left right before k).1 at result
  change ((before k).stepped 2).regs.cc = (sum left right before k).2 at codes
  rw [result, codes] at done
  exact done

/-- The carry into the addition for a place. -/
theorem carry_into (h : AddsDecimals left right cell n before) {k : Nat} (place : k ≤ n) :
    ((before k).stepped 1).regs.cc.carry = carryInto (fun j => (before j).stepped 3) k := by
  refine (carry_load (h.load k place)).trans ?_
  cases k with
  | zero => exact h.clear
  | succ k => exact (h.carried k place).trans (carry_store (h.store k (Nat.le_of_lt place)))

theorem column (h : AddsDecimals left right cell n before) {k : Nat} (place : k ≤ n)
    (first : Packed (left k)) (second : Packed (right k)) : Packed (adjusted before k) ∧
      decimal (adjusted before k) +
        100 * (carryInto (fun j => (before j).stepped 3) (k + 1)).toNat =
      decimal (left k) + decimal (right k) + (carryInto (fun j => (before j).stepped 3) k).toNat := by
  obtain ⟨-, result, codes⟩ := h.leaves_adjusted place
  have added := Alu.daa_adc ((before k).stepped 1).regs.cc first second
  change adjusted before k = _ at result
  change ((before k).stepped 3).regs.cc = _ at codes
  change Packed (Alu.daa (sum left right before k).2 (sum left right before k).1).1 ∧ _ at added
  rw [← h.carry_into place, result, carryInto, codes]
  exact added

theorem succeeds (h : AddsDecimals left right cell n before) {k : Nat} (place : k ≤ n) {i : Nat}
    (step : i < 4) : ∃ cycles, ((before k).stepped i).step.1 = .ok cycles := by
  match i, step with
  | 0, _ => exact (leaves_load (h.load k place)).succeeds
  | 1, _ => exact (leaves_loaded (h.load k place) (h.add k place)).1.succeeds
  | 2, _ => exact (h.leaves_adjusted place).succeeds
  | 3, _ =>
      obtain ⟨d, begun, -⟩ := h.store k place
      exact (leaves_store begun).1.succeeds

theorem memory (h : AddsDecimals left right cell n before) {k : Nat} (place : k ≤ n)
    (plain : (before k).bus.Plain) : ((before k).stepped 4).bus.memory =
      (before k).bus.memory.write (cell k) (adjusted before k) := by
  obtain ⟨d, begun⟩ := h.adjust k place
  have corrected := begun.unwritten (plain_stepped plain 2) rfl
  change ((before k).stepped 3).bus.memory = ((before k).stepped 2).bus.memory at corrected
  have stored := memory_store (h.store k place) (plain_stepped plain 3)
  rw [corrected, memory_loaded (h.load k place) (h.add k place) plain] at stored
  exact stored

end AddsDecimals

/-- The result of steps that have added two decimal numbers. -/
structure AddsExactly (left right : Nat → UInt8) (cell : Nat → UInt16) (n : Nat)
    (before : Nat → Core) : Prop where
  succeeds : ∀ k ≤ n, ∀ i < 4, ∃ cycles, ((before k).stepped i).step.1 = .ok cycles
  packed : ∀ k ≤ n, Packed (adjusted before k)
  sum : decimalNumber (adjusted before) (n + 1) =
    (decimalNumber left (n + 1) + decimalNumber right (n + 1)) % 100 ^ (n + 1)
  carry : ((before n).stepped 4).regs.cc.carry = true ↔
    100 ^ (n + 1) ≤ decimalNumber left (n + 1) + decimalNumber right (n + 1)
  /-- After each adjustment two codes tell of the adjusted byte. -/
  codes : ∀ k ≤ n,
    (((before k).stepped 3).regs.cc.zero = true ↔ adjusted before k = 0) ∧
      (((before k).stepped 3).regs.cc.negative = true ↔ 128 ≤ (adjusted before k).toNat)
  /-- The adjusted bytes are stored. -/
  stores : ∀ k ≤ n, ∃ d, ((before k).stepped 3).Undertakes (.store .a) d ∧
    ((before k).stepped 4).bus = d.located.2.bus.cpuWrite (cell k) (adjusted before k)
  /-- Without handlers they lie in memory in the end. -/
  memory : (∀ k ≤ n, (before k).bus.Plain) → Rounds cell n before (fun k => (before k).stepped 4) →
    ∀ k ≤ n, ((before n).stepped 4).bus.memory.read (cell k) = adjusted before k

/-- Packed decimal numbers of any length are added exactly, byte by byte from the lowest one on and on
any bus. The bytes that are stored are packed decimal digits of the sum modulo the range of the length,
and the carry in the end tells whether the sum reaches that range. -/
theorem addsExactly (h : AddsDecimals left right cell n before) (first : ∀ k ≤ n, Packed (left k))
    (second : ∀ k ≤ n, Packed (right k)) : AddsExactly left right cell n before := by
  have column (k : Nat) (place : k ≤ n) := h.column place (first k place) (second k place)
  have balance : decimalNumber (adjusted before) (n + 1) +
      100 ^ (n + 1) * ((before n).stepped 3).regs.cc.carry.toNat =
        decimalNumber left (n + 1) + decimalNumber right (n + 1) :=
    number_balance (c := fun k => (carryInto (fun j => (before j).stepped 3) k).toNat)
      fun k below => (column k (Nat.le_of_lt_succ below)).2
  have small : decimalNumber (adjusted before) (n + 1) < 100 ^ (n + 1) :=
    number_lt fun k below => decimal_lt (column k (Nat.le_of_lt_succ below)).1
  obtain ⟨sum, carry⟩ := sum_of_balance small balance
  refine ⟨fun k place i step => h.succeeds place step, fun k place => (column k place).1, sum, ?_, ?_,
    ?_, ?_⟩
  · rw [← carry, ← carry_store (h.store n (Nat.le_refl n))]
    rfl
  · intro k place
    obtain ⟨-, result, codes⟩ := h.leaves_adjusted place
    change adjusted before k = _ at result
    change ((before k).stepped 3).regs.cc = _ at codes
    rw [codes, result]
    exact ⟨beq_iff_eq, Alu.negative8_iff _⟩
  · intro k place
    obtain ⟨d, begun, address⟩ := h.store k place
    exact ⟨d, begun, address ▸ (leaves_store begun).2⟩
  · intro plain rounds k place
    exact rounds.written (fun j last => h.memory last (plain j last)) place (Nat.le_refl n)

/-- A processor before the sum of 9945 and 0155 in the bytes at 20 and 30. -/
def decimals : Core where
  cpu := { Cpu.zero with regs := { Registers.zero with pc := 0x2000 } }
  bus := ((Bus.blank.pokeBytes 0x2000
    [0x96, 0x21, 0x99, 0x31, 0x19, 0x97, 0x41, 0x96, 0x20, 0x99, 0x30, 0x19, 0x97, 0x40]).pokeWord
      0x20 0x9945).pokeWord 0x30 0x0155

theorem addsDecimals_decimals : AddsDecimals (fun k => if k = 0 then 0x45 else 0x99)
    (fun k => if k = 0 then 0x55 else 0x01) (fun k => 0x41 - .ofNat k) 1
    (fun k => decimals.stepped (4 * k)) where
  load
    | 0, _ => ⟨_, ⟨rfl, rfl, rfl⟩, rfl⟩
    | 1, _ => ⟨_, ⟨rfl, rfl, rfl⟩, rfl⟩
  add
    | 0, _ => ⟨_, ⟨rfl, rfl, rfl⟩, rfl⟩
    | 1, _ => ⟨_, ⟨rfl, rfl, rfl⟩, rfl⟩
  adjust
    | 0, _ => ⟨_, rfl, rfl, rfl⟩
    | 1, _ => ⟨_, rfl, rfl, rfl⟩
  store
    | 0, _ => ⟨_, ⟨rfl, rfl, rfl⟩, rfl⟩
    | 1, _ => ⟨_, ⟨rfl, rfl, rfl⟩, rfl⟩
  carried
    | 0, _ => rfl
  clear := rfl

/-- The sum is 10100: its lower four digits are stored, and the fifth one is the carry. -/
theorem decimals_added : decimalNumber (adjusted fun k => decimals.stepped (4 * k)) 2 = 100 ∧
    (decimals.stepped 8).regs.cc.carry = true ∧
    (decimals.stepped 8).bus.memory.read 0x40 = (decimals.stepped 7).regs.a := by
  have exact := addsExactly addsDecimals_decimals (by decide) (by decide)
  have apart : ∀ j ≤ 1, ∀ k ≤ 1, j ≠ k → (0x41 : UInt16) - .ofNat j ≠ 0x41 - .ofNat k := by decide
  have rounds := rounds_of_straight decimals 4 apart
  have memory := exact.memory (fun k _ => plain_stepped ⟨rfl, rfl⟩ (4 * k)) rounds
  exact ⟨exact.sum.trans (by decide), exact.carry.mpr (by decide), memory 1 (by decide)⟩

end Core
end Sim6809
