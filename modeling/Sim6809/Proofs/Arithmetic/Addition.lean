import Sim6809.Proofs.Arithmetic.Column
import Sim6809.Proofs.Processor.Comparison

/-!
Sums and differences of numbers of any length. The first bytes are combined without a carry and the
others with the carry that the bytes below them have left, which the load and the store in between keep.
-/
namespace Sim6809

/-! ### Bytes and words -/

/-- The overflow that the processor computes is made of top bits. -/
theorem adds_bits {width : Nat} (left right sum : BitVec (width + 1))
    {carryIn carry overflow : Bool}
    (balance : sum.toNat + 2 ^ (width + 1) * carry.toNat =
      left.toNat + right.toNat + carryIn.toNat)
    (top : overflow = ((left ^^^ sum) &&& (right ^^^ sum)).msb) :
    Adds (2 ^ width) left.toNat right.toNat carryIn sum.toNat carry overflow := by
  have range : 2 * 2 ^ width = 2 ^ (width + 1) := by rw [Nat.mul_comm, ← Nat.pow_succ]
  have msb (b : BitVec (width + 1)) : 2 ^ width ≤ b.toNat ↔ b.msb = true :=
    (Comparison.msb_iff b).symm
  refine ⟨?_, ?_, ?_⟩
  · rw [range]
    exact ⟨left.isLt, right.isLt, sum.isLt⟩
  · rw [range]
    exact balance
  · rw [top, BitVec.msb_and, BitVec.msb_xor, BitVec.msb_xor, msb, msb, msb]
    cases left.msb <;> cases right.msb <;> cases sum.msb <;> decide

/-- The carry is told by a comparison. -/
theorem balance_of_decide {p : Prop} [Decidable p] {sum base total : Nat}
    (carries : p → sum + base = total) (fits : ¬ p → sum = total) :
    sum + base * (decide p).toNat = total := by
  by_cases h : p
  · rw [decide_eq_true h]
    exact (congrArg (sum + ·) base.mul_one).trans (carries h)
  · rw [decide_eq_false h]
    exact fits h

namespace Alu

theorem negative8_iff (b : UInt8) : negative8 b = true ↔ 128 ≤ b.toNat := by
  rw [negative8_eq_msb, Comparison.msb_iff]
  rfl

theorem negative16_iff (w : UInt16) : negative16 w = true ↔ 32768 ≤ w.toNat := by
  rw [negative16_eq_msb, Comparison.msb_iff]
  rfl

theorem toNat_carryIn (carry : Bool) : (carryIn carry).toNat = carry.toNat := by
  cases carry <;> rfl

theorem links_add8 (flags : Flags) (l r : UInt8) (carry : Bool) :
    Combination.sum.Links 128 l.toNat r.toNat carry (add8 flags l r carry).1.toNat
      (add8 flags l r carry).2 := by
  refine ⟨adds_bits l.toBitVec r.toBitVec _ ?_ (negative8_eq_msb _), negative8_iff _⟩
  have sum : (l + r + carryIn carry).toNat = (l.toNat + r.toNat + carry.toNat) % 256 := by
    rw [UInt8.toNat_add, UInt8.toNat_add, toNat_carryIn, Nat.mod_add_mod]
  have bounds := And.intro l.toNat_lt (And.intro r.toNat_lt carry.toNat_le)
  change (l + r + carryIn carry).toNat + 256 * _ = l.toNat + r.toNat + carry.toNat
  rw [sum]
  exact balance_of_decide (fun carries => by omega) fun fits => by omega

theorem links_sub8 (flags : Flags) (l r : UInt8) (borrow : Bool) :
    Combination.difference.Links 128 l.toNat r.toNat borrow (sub8 flags l r borrow).1.toNat
      (sub8 flags l r borrow).2 := by
  have bounds := And.intro l.toNat_lt (And.intro r.toNat_lt borrow.toNat_le)
  -- Twice the range is added so that no subtraction of natural numbers falls below zero.
  have difference : (l - r - carryIn borrow).toNat =
      (l.toNat + 512 - r.toNat - borrow.toNat) % 256 := by
    rw [UInt8.toNat_sub, UInt8.toNat_sub, toNat_carryIn]
    omega
  have adds : Adds 128 (l - r - carryIn borrow).toNat r.toNat borrow l.toNat
      (l.toNat < r.toNat + borrow.toNat)
      (negative8 ((l ^^^ r) &&& (l ^^^ (l - r - carryIn borrow)))) := by
    refine adds_bits _ r.toBitVec l.toBitVec ?_ ?_
    · change l.toNat + 256 * _ = (l - r - carryIn borrow).toNat + r.toNat + borrow.toNat
      rw [difference]
      exact balance_of_decide (fun borrows => by omega) fun fits => by omega
    · rw [BitVec.and_comm, BitVec.xor_comm r.toBitVec, BitVec.xor_comm _ l.toBitVec]
      exact negative8_eq_msb _
  exact ⟨adds, negative8_iff _⟩

theorem links_add16 (flags : Flags) (l r : UInt16) :
    Combination.sum.Links 32768 l.toNat r.toNat false (add16 flags l r).1.toNat
      (add16 flags l r).2 := by
  refine ⟨adds_bits l.toBitVec r.toBitVec _ ?_ (negative16_eq_msb _), negative16_iff _⟩
  have bounds := And.intro l.toNat_lt r.toNat_lt
  change (l + r).toNat + 65536 * _ = l.toNat + r.toNat
  rw [UInt16.toNat_add]
  exact balance_of_decide (fun carries => by omega) fun fits => by omega

theorem links_sub16 (flags : Flags) (l r : UInt16) :
    Combination.difference.Links 32768 l.toNat r.toNat false (sub16 flags l r).1.toNat
      (sub16 flags l r).2 := by
  have bounds := And.intro l.toNat_lt r.toNat_lt
  have adds : Adds 32768 (l - r).toNat r.toNat false l.toNat (l.toNat < r.toNat)
      (negative16 ((l ^^^ r) &&& (l ^^^ (l - r)))) := by
    refine adds_bits _ r.toBitVec l.toBitVec ?_ ?_
    · change l.toNat + 65536 * _ = (l - r).toNat + r.toNat
      rw [UInt16.toNat_sub]
      exact balance_of_decide (fun borrows => by omega) fun fits => by omega
    · rw [BitVec.and_comm, BitVec.xor_comm r.toBitVec, BitVec.xor_comm _ l.toBitVec]
      exact negative16_eq_msb _
  exact ⟨adds, negative16_iff _⟩

end Alu

namespace Combination

/-- The operation for the byte at a place: only the lowest one takes no carry. -/
def byteOp : Combination → Nat → ByteOp
  | sum, 0 => .add
  | sum, _ + 1 => .adc
  | difference, 0 => .sub
  | difference, _ + 1 => .sbc

/-- The carry that goes into the operation for a place. -/
def carryIn (flags : Flags) : Nat → Bool
  | 0 => false
  | _ + 1 => flags.carry

theorem links_byteOp (op : Combination) (place : Nat) (flags : Flags) (l r : UInt8) :
    op.Links 128 l.toNat r.toNat (carryIn flags place)
      (Alu.byteOp (op.byteOp place) flags l r).1.toNat
      (Alu.byteOp (op.byteOp place) flags l r).2 := by
  cases op with
  | sum =>
      cases place with
      | zero => exact Alu.links_add8 flags l r false
      | succ place => exact Alu.links_add8 flags l r flags.carry
  | difference =>
      cases place with
      | zero => exact Alu.links_sub8 flags l r false
      | succ place => exact Alu.links_sub8 flags l r flags.carry

/-- The operation on words. -/
def wordOp : Combination → Instruction
  | sum => .addd
  | difference => .subd

end Combination

namespace Core

variable {op : Combination} {acc : Accumulator} {left right : Nat → UInt8} {cell : Nat → UInt16}
  {n : Nat} {before : Nat → Core}

/-- The steps that combine two numbers of one byte more than given through an accumulator: for each
byte, the lowest first, a load, an addition or subtraction, and a store. Before the steps for the next
byte anything may happen that leaves the carry. -/
structure Combines (op : Combination) (acc : Accumulator) (left right : Nat → UInt8)
    (cell : Nat → UInt16) (n : Nat) (before : Nat → Core) : Prop where
  load : ∀ k ≤ n, (before k).Takes (.load acc) (left k)
  combine : ∀ k ≤ n, ((before k).stepped 1).Takes (.byteOp (op.byteOp k) acc) (right k)
  store : ∀ k ≤ n, ((before k).stepped 2).WorksAt (.store acc) (cell k)
  carried : ∀ k < n, (before (k + 1)).regs.cc.carry = ((before k).stepped 3).regs.cc.carry

/-- Half of the range of a number of bytes. -/
theorem half_bytes (n : Nat) : 128 * 256 ^ n = 2 ^ (8 * (n + 1) - 1) := by
  have width : 8 * (n + 1) - 1 = 7 + 8 * n := by omega
  rw [width, Nat.pow_add, Nat.pow_mul]

/-- Bytes whose carries go from place to place make the result of the numbers. -/
theorem gives_bytes {result : Nat → UInt8} (after : Nat → Core)
    (links : ∀ k ≤ n, op.Links 128 (left k).toNat (right k).toNat (carryInto after k)
      (result k).toNat (after k).regs.cc) :
    op.Gives (8 * (n + 1)) (bytesNumber left (n + 1)) (bytesNumber right (n + 1))
      (bytesNumber result (n + 1)) (after n).regs.cc := by
  have numbers := Combination.links_number (fun k _ => rfl) links
  have half : 128 * (2 * 128) ^ n = _ := half_bytes n
  rw [half] at numbers
  exact numbers.gives (by omega)

/-- The byte in an accumulator as the steps for a place are about to store it. -/
def combined (acc : Accumulator) (before : Nat → Core) (k : Nat) : UInt8 :=
  ((before k).stepped 2).regs.acc acc

namespace Combines

theorem links (h : Combines op acc left right cell n before) {k : Nat} (place : k ≤ n) :
    op.Links 128 (left k).toNat (right k).toNat
      (carryInto (fun j => (before j).stepped 2) k)
      (combined acc before k).toNat ((before k).stepped 2).regs.cc := by
  obtain ⟨done, kept⟩ := leaves_loaded (h.load k place) (h.combine k place)
  have linked := op.links_byteOp k ((before k).stepped 1).regs.cc (left k) (right k)
  rw [← done.acc, ← done.cc] at linked
  -- The load keeps the carry, and so does the store of the byte below.
  have carry : Combination.carryIn ((before k).stepped 1).regs.cc k =
      carryInto (fun j => (before j).stepped 2) k := by
    cases k with
    | zero => rfl
    | succ k =>
        exact kept.trans ((h.carried k place).trans (carry_store (h.store k (Nat.le_of_lt place))))
  rw [carry] at linked
  exact linked

theorem gives (h : Combines op acc left right cell n before) :
    op.Gives (8 * (n + 1)) (bytesNumber left (n + 1)) (bytesNumber right (n + 1))
      (bytesNumber (combined acc before) (n + 1)) ((before n).stepped 2).regs.cc :=
  gives_bytes (fun k => (before k).stepped 2) fun _ place => h.links place

theorem succeeds (h : Combines op acc left right cell n before) {k : Nat} (place : k ≤ n) {i : Nat}
    (step : i < 3) : ∃ cycles, ((before k).stepped i).step.1 = .ok cycles := by
  match i, step with
  | 0, _ => exact (leaves_load (h.load k place)).succeeds
  | 1, _ => exact (leaves_loaded (h.load k place) (h.combine k place)).1.succeeds
  | 2, _ =>
      obtain ⟨d, begun, -⟩ := h.store k place
      exact (leaves_store begun).1.succeeds

theorem memory (h : Combines op acc left right cell n before) {k : Nat} (place : k ≤ n)
    (plain : (before k).bus.Plain) : ((before k).stepped 3).bus.memory =
      (before k).bus.memory.write (cell k) (combined acc before k) := by
  have stored := memory_store (h.store k place) (plain_stepped plain 2)
  rw [memory_loaded (h.load k place) (h.combine k place) plain] at stored
  exact stored

end Combines

/-! ### Words -/

/-- A step has taken the sum or the difference of D and a word. -/
theorem gives_word {c : Core} {operand : UInt16} (h : c.TakesWord op.wordOp operand) :
    (∃ cycles, c.step.1 = .ok cycles) ∧
      op.Gives 16 c.regs.d.toNat operand.toNat c.step.2.regs.d.toNat c.step.2.regs.cc := by
  obtain ⟨d, begun, rfl⟩ := h
  rw [← begun.word]
  cases op with
  | sum =>
      obtain ⟨ok, result, codes⟩ := begun.leaves_word (e := d.located.2.operandWord.2) rfl
      rw [result, codes]
      exact ⟨ok, (Alu.links_add16 _ _ _).gives (by decide)⟩
  | difference =>
      obtain ⟨ok, result, codes⟩ := begun.leaves_word (e := d.located.2.operandWord.2) rfl
      rw [result, codes]
      exact ⟨ok, (Alu.links_sub16 _ _ _).gives (by decide)⟩

/-- The result of steps that have combined two numbers. -/
structure CombinesExactly (op : Combination) (acc : Accumulator) (left right : Nat → UInt8)
    (cell : Nat → UInt16) (n : Nat) (before : Nat → Core) : Prop where
  succeeds : ∀ k ≤ n, ∀ i < 3, ∃ cycles, ((before k).stepped i).step.1 = .ok cycles
  /-- The bytes that are stored, with the condition codes right after the last operation. -/
  gives : op.Gives (8 * (n + 1)) (bytesNumber left (n + 1)) (bytesNumber right (n + 1))
    (bytesNumber (combined acc before) (n + 1)) ((before n).stepped 2).regs.cc
  stores : ∀ k ≤ n, ∃ d, ((before k).stepped 2).Undertakes (.store acc) d ∧
    ((before k).stepped 3).bus = d.located.2.bus.cpuWrite (cell k) (combined acc before k)
  /-- Without handlers they lie in memory in the end. -/
  memory : (∀ k ≤ n, (before k).bus.Plain) → Rounds cell n before (fun k => (before k).stepped 3) →
    ∀ k ≤ n, ((before n).stepped 3).bus.memory.read (cell k) = combined acc before k
  /-- For two bytes the operation on words does the same with D. -/
  word : n = 1 → ∀ (c : Core) (operand : UInt16), c.TakesWord op.wordOp operand →
    c.regs.d.toNat = bytesNumber left 2 → operand.toNat = bytesNumber right 2 →
    (∃ cycles, c.step.1 = .ok cycles) ∧
      c.step.2.regs.d.toNat = bytesNumber (combined acc before) 2 ∧
      c.step.2.regs.cc.carry = ((before 1).stepped 2).regs.cc.carry ∧
      c.step.2.regs.cc.overflow = ((before 1).stepped 2).regs.cc.overflow ∧
      c.step.2.regs.cc.negative = ((before 1).stepped 2).regs.cc.negative

/-- Numbers of any length are combined exactly, byte by byte from the lowest one on, through either
accumulator and on any bus. The bytes are those of the sum or difference modulo the range of the length;
right after the last operation C is its carry or borrow, V tells whether the signed result overflows, and
N is the sign bit of the result. Two bytes are combined like one word. -/
theorem combinesExactly (h : Combines op acc left right cell n before) :
    CombinesExactly op acc left right cell n before where
  succeeds _ place _ step := h.succeeds place step
  gives := h.gives
  stores k place := by
    obtain ⟨d, begun, address⟩ := h.store k place
    exact ⟨d, begun, address ▸ (leaves_store begun).2⟩
  memory plain rounds k place :=
    rounds.written (fun j last => h.memory last (plain j last)) place (Nat.le_refl n)
  word := by
    rintro rfl c operand taken first second
    obtain ⟨ok, gives⟩ := gives_word taken
    rw [first, second] at gives
    exact ⟨ok, gives.unique h.gives⟩

/-- A processor before the subtraction of 1 from the lowest word, through B and byte by byte. -/
def lowestWord : Core where
  cpu := { Cpu.zero with regs := { Registers.zero with pc := 0x2000 } }
  bus := ((Bus.blank.pokeBytes 0x2000
    [0xD6, 0x21, 0xD0, 0x31, 0xD7, 0x41, 0xD6, 0x20, 0xD2, 0x30, 0xD7, 0x40]).pokeWord
      0x20 0x8000).pokeWord 0x30 0x0001

theorem combines_lowestWord : Combines .difference .b (fun k => if k = 0 then 0x00 else 0x80)
    (fun k => if k = 0 then 0x01 else 0x00) (fun k => 0x41 - .ofNat k) 1
    (fun k => lowestWord.stepped (3 * k)) where
  load
    | 0, _ => ⟨_, ⟨rfl, rfl, rfl⟩, rfl⟩
    | 1, _ => ⟨_, ⟨rfl, rfl, rfl⟩, rfl⟩
  combine
    | 0, _ => ⟨_, ⟨rfl, rfl, rfl⟩, rfl⟩
    | 1, _ => ⟨_, ⟨rfl, rfl, rfl⟩, rfl⟩
  store
    | 0, _ => ⟨_, ⟨rfl, rfl, rfl⟩, rfl⟩
    | 1, _ => ⟨_, ⟨rfl, rfl, rfl⟩, rfl⟩
  carried
    | 0, _ => rfl

/-- The same numbers before SUBD. -/
def lowestWordInD : Core where
  cpu := { Cpu.zero with regs := { Registers.zero with a := 0x80, pc := 0x2000 } }
  bus := lowestWord.bus.pokeBytes 0x2000 [0x93, 0x30]

/-- The difference overflows without a borrow, and both ways leave 7FFF. -/
theorem lowestWord_overflows : (lowestWord.stepped 5).regs.cc.overflow = true ∧
    (lowestWord.stepped 5).regs.cc.carry = false ∧
    (lowestWord.stepped 6).bus.memory.read 0x41 = 0xFF ∧
    (lowestWord.stepped 6).bus.memory.read 0x40 = 0x7F ∧
    lowestWordInD.step.2.regs.d.toNat = 0x7FFF ∧
    lowestWordInD.step.2.regs.cc.overflow = true := by
  have exact := combinesExactly combines_lowestWord
  have apart : ∀ j ≤ 1, ∀ k ≤ 1, j ≠ k → (0x41 : UInt16) - .ofNat j ≠ 0x41 - .ofNat k := by decide
  have rounds := rounds_of_straight lowestWord 3 apart
  have memory := exact.memory (fun k _ => plain_stepped ⟨rfl, rfl⟩ (3 * k)) rounds
  have overflow := exact.gives.overflow.mpr (by unfold Combination.Overflows; decide)
  have covered := mt exact.gives.carry.mp (by unfold Combination.Carries; decide)
  have word := exact.word rfl lowestWordInD 0x0001 ⟨_, ⟨rfl, rfl, rfl⟩, rfl⟩ rfl rfl
  exact ⟨overflow, Bool.of_not_eq_true covered, memory 0 (by decide), memory 1 (by decide), word.2.1,
    word.2.2.2.1.trans overflow⟩

end Core
end Sim6809
