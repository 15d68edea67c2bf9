import Sim6809.Proofs.Arithmetic.Addition

/-!
Shifts of numbers of any length in memory. To the left the lowest byte is shifted and the others are
rotated, so that each takes the bit that the byte below it has lost: the number is added to itself. To
the right the highest byte is shifted and the others are rotated in falling order: the number is twice
its half and the bit that is lost in the end. A rotation keeps the bit that it loses in C, and the
rotation to the other side puts it back.
-/
namespace Sim6809

/-! ### Bytes -/

/-- The shift to the left for the byte at a place. -/
def leftShift : Nat → UnaryOp
  | 0 => .asl
  | _ + 1 => .rol

/-- How a number is divided by two: without a sign, or with one. -/
inductive Halving
  | logical
  | arithmetic
  deriving DecidableEq, Repr

namespace Halving

/-- The shift to the right for the byte with so many above it. -/
def rightShift : Halving → Nat → UnaryOp
  | logical, 0 => .lsr
  | arithmetic, 0 => .asr
  | _, _ + 1 => .ror

/-- The bit that comes in from above: the highest byte keeps its own top bit, or has none. -/
def topIn (kind : Halving) (b : UInt8) : Bool :=
  match kind with
  | logical => false
  | arithmetic => 128 ≤ b.toNat

/-- A number of a width in bits is half of another one, rounded down. -/
def Halves (kind : Halving) (width value half : Nat) : Prop :=
  match kind with
  | logical => half = value / 2
  | arithmetic => Word.signedBits width half = Word.signedBits width value / 2

/-- What is left of a number that is twice that, but for the bits at both ends, is half of it. -/
theorem halves_of_whole (kind : Halving) {width half value left : Nat} {highest : UInt8}
    {carry : Bool} (range : 2 ^ width = 2 * half) (proper : value < 2 * half ∧ left < 2 * half)
    (top : half ≤ value ↔ 128 ≤ highest.toNat)
    (whole : value + 2 * half * (kind.topIn highest).toNat = left + left + carry.toNat) :
    kind.Halves width value left ∧ (carry = true ↔ value % 2 = 1) := by
  have bit : carry.toNat = 1 ↔ carry = true := Bool.toNat_eq_one
  have bound := carry.toNat_le
  cases kind with
  | logical =>
      change value + 2 * half * 0 = _ at whole
      refine ⟨?_, by rw [← bit]; omega⟩
      unfold Halves
      omega
  | arithmetic =>
      -- The bit that comes in is the sign, which therefore stays.
      unfold topIn at whole
      unfold Halves
      rw [Combination.signedBits_eq range proper.1, Combination.signedBits_eq range proper.2,
        ← bit]
      unfold signedBelow
      by_cases large : 128 ≤ highest.toNat
      · rw [decide_eq_true large, Bool.toNat_true] at whole
        refine ⟨?_, by omega⟩
        rw [if_neg (by omega), if_neg (by omega)]
        omega
      · rw [decide_eq_false large, Bool.toNat_false] at whole
        refine ⟨?_, by omega⟩
        rw [if_pos (by omega), if_pos (by omega)]
        omega

end Halving

namespace Alu

/-- A rotation to the left adds a byte to itself. -/
theorem links_rol (flags : Flags) (b : UInt8) : Combination.sum.Links 128 b.toNat b.toNat flags.carry
    (unary .rol flags b).1.toNat (unary .rol flags b).2 := by
  have all : ∀ carry : Bool, ∀ n : Fin 256,
      let only := { Flags.clear with carry }
      (unary .rol only (.ofFin n)).1.toNat + 256 * (unary .rol only (.ofFin n)).2.carry.toNat =
        n + n + carry.toNat ∧
      ((unary .rol only (.ofFin n)).2.overflow = true ↔
        ¬ (128 ≤ n.val ↔ 128 ≤ (unary .rol only (.ofFin n)).1.toNat)) := by
    decide +kernel
  have checked := all flags.carry b.toFin
  refine ⟨⟨⟨b.toNat_lt, b.toNat_lt, UInt8.toNat_lt _⟩, checked.1, ?_⟩, negative8_iff _⟩
  exact checked.2.trans (and_iff_right Iff.rfl).symm

theorem links_asl (flags : Flags) (b : UInt8) : Combination.sum.Links 128 b.toNat b.toNat false
    (unary .asl flags b).1.toNat (unary .asl flags b).2 := by
  -- A shift is a rotation that takes in no carry.
  have same : unary .asl flags b = unary .rol { flags with carry := false } b := by
    change _ = (b <<< 1 ||| 0, shiftLeft _ (b <<< 1 ||| 0) _)
    rw [UInt8.or_zero]
    rfl
  rw [same]
  exact links_rol { flags with carry := false } b

theorem links_leftShift (place : Nat) (flags : Flags) (b : UInt8) :
    Combination.sum.Links 128 b.toNat b.toNat (Combination.carryIn flags place)
      (unary (leftShift place) flags b).1.toNat (unary (leftShift place) flags b).2 := by
  cases place with
  | zero => exact links_asl flags b
  | succ place => exact links_rol flags b

/-- A shift to the right takes a bit in from above and gives one away below. -/
theorem balance_rightShift (kind : Halving) (above : Nat) (flags : Flags) (b : UInt8) :
    b.toNat + 256 * (if above = 0 then kind.topIn b else flags.carry).toNat =
      (unary (kind.rightShift above) flags b).1.toNat +
        (unary (kind.rightShift above) flags b).1.toNat +
        (unary (kind.rightShift above) flags b).2.carry.toNat := by
  -- The byte and the carry are told by the byte and C alone, so that other flags may be clear.
  have logical : ∀ n : Fin 256, n.val = (unary .lsr .clear (.ofFin n)).1.toNat +
      (unary .lsr .clear (.ofFin n)).1.toNat + (unary .lsr .clear (.ofFin n)).2.carry.toNat := by
    decide +kernel
  have arithmetic : ∀ n : Fin 256, n + 256 * (decide (128 ≤ n.val)).toNat =
      (unary .asr .clear (.ofFin n)).1.toNat + (unary .asr .clear (.ofFin n)).1.toNat +
        (unary .asr .clear (.ofFin n)).2.carry.toNat := by
    decide +kernel
  have rotated : ∀ carry : Bool, ∀ n : Fin 256,
      let only := { Flags.clear with carry }
      n + 256 * carry.toNat = (unary .ror only (.ofFin n)).1.toNat +
        (unary .ror only (.ofFin n)).1.toNat + (unary .ror only (.ofFin n)).2.carry.toNat := by
    decide +kernel
  cases above with
  | zero =>
      cases kind with
      | logical => exact logical b.toFin
      | arithmetic => exact arithmetic b.toFin
  | succ above =>
      cases kind with
      | logical => exact rotated flags.carry b.toFin
      | arithmetic => exact rotated flags.carry b.toFin

theorem overflow_rightShift (kind : Halving) (above : Nat) (flags : Flags) (b : UInt8) :
    (unary (kind.rightShift above) flags b).2.overflow = flags.overflow := by
  cases above <;> cases kind <;> rfl

/-- A rotation to the right undoes one to the left. -/
theorem ror_rol (flags codes : Flags) (b : UInt8)
    (carry : codes.carry = (unary .rol flags b).2.carry) :
    (unary .ror codes (unary .rol flags b).1).1 = b ∧
      (unary .ror codes (unary .rol flags b).1).2.carry = flags.carry := by
  have all : ∀ carry : Bool, ∀ n : Fin 256,
      let rotated := unary .rol { Flags.clear with carry } (.ofFin n)
      let back := unary .ror { Flags.clear with carry := rotated.2.carry } rotated.1
      back.1 = .ofFin n ∧ back.2.carry = carry := by
    decide +kernel
  change (unary .ror { Flags.clear with carry := codes.carry } _).1 = b ∧
    (unary .ror { Flags.clear with carry := codes.carry } _).2.carry = flags.carry
  rw [carry]
  exact all flags.carry b.toFin

end Alu

/-! ### Numbers -/

namespace Core

variable {cell : Nat → UInt16} {n : Nat} {before : Nat → Core} {op : Nat → UnaryOp} {kind : Halving}

/-- The steps that shift a number in memory cells without handlers: one for each byte, in whatever
order. Before the next one anything may happen that leaves the carry and the bytes. -/
structure Shifts (op : Nat → UnaryOp) (cell : Nat → UInt16) (n : Nat) (before : Nat → Core) :
    Prop where
  shift : ∀ k ≤ n, (before k).WorksInMemory (.modify (op k)) (cell k)
  carried : ∀ k < n, (before (k + 1)).regs.cc.carry = (before k).step.2.regs.cc.carry
  rounds : Rounds cell n before fun k => (before k).step.2

namespace Shifts

/-- The byte that a shift finds, and what it makes of it. -/
def result (op : Nat → UnaryOp) (cell : Nat → UInt16) (before : Nat → Core) (k : Nat) :
    UInt8 × Flags :=
  Alu.unary (op k) (before k).regs.cc ((before 0).bus.memory.read (cell k))

theorem modifies (h : Shifts op cell n before) {k : Nat} (place : k ≤ n) :
    (before k).Modifies (op k) (cell k) :=
  modifies_of_worksInMemory (h.shift k place)

/-- Each shift finds the byte that was there at first, and the results are there in the end. -/
theorem shifted (h : Shifts op cell n before) {k : Nat} (place : k ≤ n) :
    (before k).step.2.regs.cc = (result op cell before k).2 ∧
      (before n).step.2.bus.memory.read (cell k) = (result op cell before k).1 := by
  have writes (j : Nat) (last : j ≤ n) := (h.modifies last).memory
  have found : (before k).bus.memory.read (cell k) = (before 0).bus.memory.read (cell k) :=
    h.rounds.unwritten writes (Nat.le_refl k) place
  unfold result
  rw [← found]
  exact ⟨(h.modifies place).cc, h.rounds.written writes place (Nat.le_refl n)⟩

end Shifts

/-- A number in memory has been shifted to the left. -/
structure ShiftedLeft (cell : Nat → UInt16) (n : Nat) (before : Nat → Core) : Prop where
  succeeds : ∀ k ≤ n, ∃ cycles, (before k).step.1 = .ok cycles
  doubled : (before n).step.2.bus.memory.number cell (n + 1) =
    2 * (before 0).bus.memory.number cell (n + 1) % 256 ^ (n + 1)
  /-- The carry is the old top bit. -/
  carry : (before n).step.2.regs.cc.carry = true ↔
    2 ^ (8 * (n + 1) - 1) ≤ (before 0).bus.memory.number cell (n + 1)
  /-- The signed number does not fit once it is doubled. -/
  overflow : (before n).step.2.regs.cc.overflow = true ↔
    ¬ (-2 ^ (8 * (n + 1) - 1) ≤
        2 * Word.signedBits (8 * (n + 1)) ((before 0).bus.memory.number cell (n + 1)) ∧
      2 * Word.signedBits (8 * (n + 1)) ((before 0).bus.memory.number cell (n + 1)) <
        2 ^ (8 * (n + 1) - 1))

theorem shiftedLeft (h : Shifts leftShift cell n before) : ShiftedLeft cell n before := by
  have gives : Combination.sum.Gives (8 * (n + 1)) ((before 0).bus.memory.number cell (n + 1))
      ((before 0).bus.memory.number cell (n + 1))
      ((before n).step.2.bus.memory.number cell (n + 1)) (before n).step.2.regs.cc := by
    refine gives_bytes (fun k => (before k).step.2) fun k place => ?_
    obtain ⟨codes, result⟩ := h.shifted place
    have linked := Alu.links_leftShift k (before k).regs.cc ((before 0).bus.memory.read (cell k))
    have carry : Combination.carryIn (before k).regs.cc k =
        carryInto (fun j => (before j).step.2) k := by
      cases k with
      | zero => rfl
      | succ k => exact h.carried k place
    rw [codes, result, ← carry]
    exact linked
  refine ⟨fun k place => (h.modifies place).succeeds, ?_, ?_, ?_⟩
  · have exact : ((before n).step.2.bus.memory.number cell (n + 1) : Int) =
        ((before 0).bus.memory.number cell (n + 1) + (before 0).bus.memory.number cell (n + 1)) %
          2 ^ (8 * (n + 1)) := gives.exact
    have modulus : 256 ^ (n + 1) = 2 ^ (8 * (n + 1)) := (Nat.pow_mul 2 8 (n + 1)).symm
    rw [modulus, Nat.two_mul]
    exact_mod_cast exact
  · have range : 2 ^ (8 * (n + 1) - 1) * 2 = 2 ^ (8 * (n + 1)) :=
      Nat.two_pow_pred_mul_two (by omega)
    rw [gives.carry]
    unfold Combination.Carries
    omega
  · rw [gives.overflow, Int.two_mul]
    rfl

/-- The bit that comes into a byte, where so many have been shifted above it. -/
def bitInto (kind : Halving) (top : UInt8) (before : Nat → Core) : Nat → Bool
  | 0 => kind.topIn top
  | k + 1 => (before k).step.2.regs.cc.carry

theorem Shifts.balance (h : Shifts kind.rightShift cell n before) {k : Nat} (place : k ≤ n) :
    ((before 0).bus.memory.read (cell k)).toNat +
        256 * (bitInto kind ((before 0).bus.memory.read (cell 0)) before k).toNat =
      ((before n).step.2.bus.memory.read (cell k)).toNat +
        ((before n).step.2.bus.memory.read (cell k)).toNat +
        (bitInto kind ((before 0).bus.memory.read (cell 0)) before (k + 1)).toNat := by
  obtain ⟨codes, result⟩ := h.shifted place
  have balance := Alu.balance_rightShift kind k (before k).regs.cc
    ((before 0).bus.memory.read (cell k))
  have bit : (if k = 0 then kind.topIn ((before 0).bus.memory.read (cell k))
      else (before k).regs.cc.carry) =
        bitInto kind ((before 0).bus.memory.read (cell 0)) before k := by
    cases k with
    | zero => rfl
    | succ k => exact h.carried k place
  rw [bit] at balance
  rw [result, bitInto, codes]
  exact balance

/-- A number in memory has been shifted to the right. -/
structure ShiftedRight (kind : Halving) (cell : Nat → UInt16) (n : Nat) (before : Nat → Core) :
    Prop where
  succeeds : ∀ k ≤ n, ∃ cycles, (before k).step.1 = .ok cycles
  halved : kind.Halves (8 * (n + 1)) ((before 0).bus.memory.number cell (n + 1))
    ((before n).step.2.bus.memory.number cell (n + 1))
  /-- The carry is the old lowest bit. -/
  carry : (before n).step.2.regs.cc.carry = true ↔
    (before 0).bus.memory.number cell (n + 1) % 2 = 1
  overflow : ∀ k ≤ n, (before k).step.2.regs.cc.overflow = (before k).regs.cc.overflow

/-- A number in memory is twice what is left of it, but for the bits at both ends. -/
theorem Shifts.whole (h : Shifts kind.rightShift (fun k => cell (n - k)) n before) :
    (before 0).bus.memory.number cell (n + 1) + 256 ^ (n + 1) *
        (kind.topIn ((before 0).bus.memory.read (cell n))).toNat =
      (before n).step.2.bus.memory.number cell (n + 1) +
        (before n).step.2.bus.memory.number cell (n + 1) +
        (before n).step.2.regs.cc.carry.toNat := by
  -- The highest byte comes first: the byte at a place is shifted after all those above it.
  have column (p : Nat) (below : p < n + 1) :
      ((before 0).bus.memory.read (cell p)).toNat +
          256 * (bitInto kind ((before 0).bus.memory.read (cell n)) before (n + 1 - (p + 1))).toNat =
        ((before n).step.2.bus.memory.read (cell p)).toNat +
          ((before n).step.2.bus.memory.read (cell p)).toNat +
          (bitInto kind ((before 0).bus.memory.read (cell n)) before (n + 1 - p)).toNat := by
    have balance := h.balance (Nat.sub_le n p)
    have next : n + 1 - p = n - p + 1 := by omega
    simp only [Nat.sub_sub_self (Nat.le_of_lt_succ below), Nat.sub_zero] at balance
    rw [next, Nat.add_sub_add_right]
    exact balance
  have balance := number_balance
    (c := fun p => (bitInto kind ((before 0).bus.memory.read (cell n)) before (n + 1 - p)).toNat)
    column
  rw [Nat.sub_self] at balance
  exact balance

theorem shiftedRight (h : Shifts kind.rightShift (fun k => cell (n - k)) n before) :
    ShiftedRight kind cell n before := by
  have whole := h.whole
  have range : 256 ^ (n + 1) = 2 * (128 * 256 ^ n) := by rw [Nat.pow_succ]; omega
  have top : 128 * 256 ^ n ≤ (before 0).bus.memory.number cell (n + 1) ↔
      128 ≤ ((before 0).bus.memory.read (cell n)).toNat :=
    half_le_number_iff fun k _ => UInt8.toNat_lt _
  have width : 2 ^ (8 * (n + 1)) = 2 * (128 * 256 ^ n) := by
    rw [← range]
    exact Nat.pow_mul 2 8 (n + 1)
  have proper (m : Memory) : m.number cell (n + 1) < 2 * (128 * 256 ^ n) := by
    rw [← range]
    exact number_lt fun k _ => UInt8.toNat_lt _
  rw [range] at whole
  obtain ⟨halved, carry⟩ := kind.halves_of_whole width ⟨proper _, proper _⟩ top whole
  refine ⟨fun k place => (h.modifies place).succeeds, halved, carry, ?_⟩
  intro k place
  rw [(h.shifted place).1]
  exact Alu.overflow_rightShift kind k _ _

/-! ### Rotations -/

/-- Steps that rotate a byte in memory to the left and, later, to the right. Between them anything may
happen that leaves the byte and the carry. -/
structure RotatesBack (address : UInt16) (c d : Core) : Prop where
  left : c.WorksInMemory (.modify .rol) address
  right : d.WorksInMemory (.modify .ror) address
  byte : d.bus.memory.read address = c.step.2.bus.memory.read address
  carry : d.regs.cc.carry = c.step.2.regs.cc.carry

/-- Steps that rotate an accumulator to the left and, later, to the right. -/
structure RotatesAccBack (acc : Accumulator) (c d : Core) : Prop where
  left : ∃ e, c.Undertakes (.unary .rol acc) e
  right : ∃ e, d.Undertakes (.unary .ror acc) e
  byte : d.regs.acc acc = c.step.2.regs.acc acc
  carry : d.regs.cc.carry = c.step.2.regs.cc.carry

/-- Both steps succeed, and in the end a byte and the carry are as before the first one. -/
structure Restored (held : Core → UInt8) (c d : Core) : Prop where
  succeeds : (∃ cycles, c.step.1 = .ok cycles) ∧ ∃ cycles, d.step.1 = .ok cycles
  byte : held d.step.2 = held c
  carry : d.step.2.regs.cc.carry = c.regs.cc.carry

theorem RotatesBack.restored {address : UInt16} {c d : Core} (h : RotatesBack address c d) :
    Restored (fun e => e.bus.memory.read address) c d := by
  have rolled := modifies_of_worksInMemory h.left
  have back := modifies_of_worksInMemory h.right
  have byte := h.byte
  have carry := h.carry
  rw [rolled.memory, Memory.read_write_self] at byte
  rw [rolled.cc] at carry
  obtain ⟨same, kept⟩ := Alu.ror_rol c.regs.cc d.regs.cc (c.bus.memory.read address) carry
  refine ⟨⟨rolled.succeeds, back.succeeds⟩, ?_, ?_⟩
  · rw [back.memory, Memory.read_write_self, byte]
    exact same
  · rw [back.cc, byte]
    exact kept

theorem RotatesAccBack.restored {acc : Accumulator} {c d : Core} (h : RotatesAccBack acc c d) :
    Restored (fun e => e.regs.acc acc) c d := by
  obtain ⟨e, left⟩ := h.left
  obtain ⟨f, right⟩ := h.right
  have rolled := leaves_unary left
  have back := leaves_unary right
  have carry := h.carry
  rw [rolled.cc] at carry
  obtain ⟨same, kept⟩ := Alu.ror_rol c.regs.cc d.regs.cc (c.regs.acc acc) carry
  refine ⟨⟨rolled.succeeds, back.succeeds⟩, ?_, ?_⟩
  · rw [back.acc, h.byte, rolled.acc]
    exact same
  · rw [back.cc, h.byte, rolled.acc]
    exact kept

/-- Numbers of any length in memory cells without handlers are shifted exactly. To the left they are
doubled modulo the range of their length: in the end C is the old top bit, and V tells whether the signed
number overflows. To the right they are halved and rounded down, with or without a sign: in the end C is
the old lowest bit, and no step changes V. A rotation to the right undoes one to the left, with its carry,
in memory and in an accumulator. -/
theorem shifts_exact :
    (∀ (cell : Nat → UInt16) (n : Nat) (before : Nat → Core), Shifts leftShift cell n before →
      ShiftedLeft cell n before) ∧
    (∀ (kind : Halving) (cell : Nat → UInt16) (n : Nat) (before : Nat → Core),
      Shifts kind.rightShift (fun k => cell (n - k)) n before → ShiftedRight kind cell n before) ∧
    (∀ (address : UInt16) (c d : Core), RotatesBack address c d →
      Restored (fun e => e.bus.memory.read address) c d) ∧
    ∀ (acc : Accumulator) (c d : Core), RotatesAccBack acc c d →
      Restored (fun e => e.regs.acc acc) c d :=
  ⟨fun _ _ _ => shiftedLeft, fun _ _ _ _ => shiftedRight, fun _ _ _ => RotatesBack.restored,
    fun _ _ _ => RotatesAccBack.restored⟩

/-- A processor before a program that works on the word 8001 at 20. -/
def shifting (program : List UInt8) : Core where
  cpu := { Cpu.zero with regs := { Registers.zero with pc := 0x2000 } }
  bus := (Bus.blank.pokeBytes 0x2000 program).pokeWord 0x20 0x8001

/-- The word is doubled by ASL and ROL. -/
def doubling : Core := shifting [0x08, 0x21, 0x09, 0x20]

/-- The word is halved with its sign by ASR and ROR. -/
def halving : Core := shifting [0x07, 0x20, 0x06, 0x21]

/-- The lower byte is rotated to the left and back. -/
def rocking : Core := shifting [0x09, 0x21, 0x06, 0x21]

theorem shifts_doubling : Shifts leftShift (fun k => 0x21 - .ofNat k) 1
    (fun k => doubling.stepped (1 * k)) where
  shift
    | 0, _ => WorksAt.inMemory ⟨_, ⟨rfl, rfl, rfl⟩, rfl⟩ ⟨rfl, rfl⟩
    | 1, _ => WorksAt.inMemory ⟨_, ⟨rfl, rfl, rfl⟩, rfl⟩ ⟨rfl, rfl⟩
  carried
    | 0, _ => rfl
  rounds := rounds_of_straight _ 1 (by decide)

theorem shifts_halving : Shifts Halving.arithmetic.rightShift (fun k => 0x21 - .ofNat (1 - k)) 1
    (fun k => halving.stepped (1 * k)) where
  shift
    | 0, _ => WorksAt.inMemory ⟨_, ⟨rfl, rfl, rfl⟩, rfl⟩ ⟨rfl, rfl⟩
    | 1, _ => WorksAt.inMemory ⟨_, ⟨rfl, rfl, rfl⟩, rfl⟩ ⟨rfl, rfl⟩
  carried
    | 0, _ => rfl
  rounds := rounds_of_straight _ 1 (by decide)

/-- The doubled word is 2 and overflows; the halved one is -16384, as -32767 is rounded down. -/
theorem shifting_shifted :
    (doubling.stepped 2).bus.memory.number (fun k => 0x21 - .ofNat k) 2 = 2 ∧
    (doubling.stepped 2).regs.cc.overflow = true ∧
    Word.signedBits 16 ((halving.stepped 2).bus.memory.number (fun k => 0x21 - .ofNat k) 2) =
      -16384 ∧
    (halving.stepped 2).regs.cc.carry = true ∧
    (rocking.stepped 2).bus.memory.read 0x21 = 0x01 := by
  obtain ⟨left, right, rotate, -⟩ := shifts_exact
  have doubled := left _ 1 _ shifts_doubling
  have halved := right .arithmetic (fun k => 0x21 - .ofNat k) 1 _ shifts_halving
  have restored := rotate 0x21 rocking rocking.step.2
    ⟨WorksAt.inMemory ⟨_, ⟨rfl, rfl, rfl⟩, rfl⟩ ⟨rfl, rfl⟩,
      WorksAt.inMemory ⟨_, ⟨rfl, rfl, rfl⟩, rfl⟩ ⟨rfl, rfl⟩, rfl, rfl⟩
  exact ⟨doubled.doubled.trans (by decide), doubled.overflow.mpr (by decide),
    halved.halved.trans (by decide), halved.carry.mpr (by decide), restored.byte⟩

end Core
end Sim6809
