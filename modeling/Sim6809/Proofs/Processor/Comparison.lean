import Sim6809.Proofs.Processor.ConditionCodes
import Sim6809.Proofs.Word.Integer

/-!
Compares and the branches that follow them. A compare and a subtraction leave condition codes in which
every branch condition is a relation between the two numbers: their order as unsigned or as
two's-complement integers, or a property of their difference.
-/
namespace Sim6809

/-- Two numbers of a width in bits that are subtracted from one another, the second from the first. -/
structure Comparison where
  width : Nat
  left : Nat
  right : Nat
  deriving DecidableEq, Repr

namespace Comparison

def signedLeft (p : Comparison) : Int := Word.signedBits p.width p.left

def signedRight (p : Comparison) : Int := Word.signedBits p.width p.right

/-- The difference, wrapped to the width. -/
def wrapped (p : Comparison) : Int := ((p.left : Int) - p.right) % 2 ^ p.width

/-- The top bit of the wrapped difference is set. -/
def IsNegative (p : Comparison) : Prop := 2 ^ (p.width - 1) ≤ p.wrapped

/-- The signed difference is representable in the width. -/
def Fits (p : Comparison) : Prop :=
  -2 ^ (p.width - 1) ≤ p.signedLeft - p.signedRight ∧
    p.signedLeft - p.signedRight < 2 ^ (p.width - 1)

/-- What a branch condition says of two numbers. -/
def Satisfies (p : Comparison) : Condition → Prop
  | .ra => True
  | .rn => False
  | .eq => p.left = p.right
  | .ne => p.left ≠ p.right
  | .hi => p.right < p.left
  | .ls => p.left ≤ p.right
  | .cc => p.right ≤ p.left
  | .cs => p.left < p.right
  | .gt => p.signedRight < p.signedLeft
  | .le => p.signedLeft ≤ p.signedRight
  | .ge => p.signedRight ≤ p.signedLeft
  | .lt => p.signedLeft < p.signedRight
  | .vs => ¬ p.Fits
  | .vc => p.Fits
  | .mi => p.IsNegative
  | .pl => ¬ p.IsNegative

/-- Numbers of bytes or words. -/
structure Proper (p : Comparison) : Prop where
  width : p.width = 8 ∨ p.width = 16
  left : p.left < 2 ^ p.width
  right : p.right < 2 ^ p.width

/-- The condition codes of a subtraction. -/
structure Told (p : Comparison) (flags : Flags) : Prop where
  zero : flags.zero = true ↔ p.left = p.right
  carry : flags.carry = true ↔ p.left < p.right
  negative : flags.negative = true ↔ p.IsNegative
  overflow : flags.overflow = true ↔ ¬ p.Fits

variable {p : Comparison} {flags : Flags}

/-- The signed order is in the sign of the difference, which an overflow turns round. -/
theorem Proper.signed_lt_iff (h : p.Proper) :
    p.signedLeft < p.signedRight ↔ ¬ (p.IsNegative ↔ ¬ p.Fits) := by
  obtain ⟨width, left, right⟩ := p
  obtain ⟨rfl | rfl, small, small'⟩ := h
  all_goals
    simp only [Nat.reducePow] at small small'
    simp only [signedLeft, signedRight, IsNegative, Fits, wrapped, Word.signedBits, Int.bmod,
      Nat.reducePow, Nat.reduceSub, Int.reducePow]
    omega

theorem Proper.signed_eq_iff (h : p.Proper) :
    p.signedLeft = p.signedRight ↔ p.left = p.right := by
  obtain ⟨width, left, right⟩ := p
  obtain ⟨rfl | rfl, small, small'⟩ := h
  all_goals
    simp only [Nat.reducePow] at small small'
    simp only [signedLeft, signedRight, Word.signedBits, Int.bmod, Nat.reducePow]
    omega

theorem Told.congr {other : Flags} (told : p.Told flags)
    (same : flags.SameBut [.e, .f, .h, .i] other) : p.Told other := by
  have zero : other.zero = flags.zero := same .z (by decide)
  have carry : other.carry = flags.carry := same .c (by decide)
  have negative : other.negative = flags.negative := same .n (by decide)
  have overflow : other.overflow = flags.overflow := same .v (by decide)
  exact ⟨zero ▸ told.zero, carry ▸ told.carry, negative ▸ told.negative, overflow ▸ told.overflow⟩

/-- A branch condition holds of the codes of a subtraction exactly if it is true of the numbers. -/
theorem Told.holds_iff (told : p.Told flags) (h : p.Proper) (condition : Condition) :
    condition.holds flags = true ↔ p.Satisfies condition := by
  have lt : (flags.negative != flags.overflow) = true ↔ p.signedLeft < p.signedRight := by
    rw [h.signed_lt_iff, ← told.negative, ← told.overflow, ← Bool.eq_iff_iff, bne_iff_ne]
  have ge : (flags.negative == flags.overflow) = true ↔ ¬ p.signedLeft < p.signedRight := by
    rw [← lt, bne_iff_ne, beq_iff_eq, Decidable.not_not]
  have signed := h.signed_eq_iff
  unfold Condition.holds Satisfies
  cases condition with
  | ra => exact ⟨fun _ => trivial, fun _ => rfl⟩
  | rn => exact ⟨Bool.noConfusion, False.elim⟩
  | eq => exact told.zero
  | cs => exact told.carry
  | vs => exact told.overflow
  | mi => exact told.negative
  | lt => exact lt
  | ne => rw [Bool.not_eq_true', Bool.eq_false_iff, Ne, told.zero]
  | cc =>
      rw [Bool.not_eq_true', Bool.eq_false_iff, Ne, told.carry]
      exact Nat.not_lt
  | pl => rw [Bool.not_eq_true', Bool.eq_false_iff, Ne, told.negative]
  | vc => rw [Bool.not_eq_true', Bool.eq_false_iff, Ne, told.overflow, Classical.not_not]
  | ge => exact ge.trans Int.not_lt
  | hi =>
      simp only [Bool.and_eq_true, Bool.not_eq_true', Bool.eq_false_iff, Ne, told.carry, told.zero]
      omega
  | ls =>
      simp only [Bool.or_eq_true, told.carry, told.zero]
      omega
  | gt =>
      simp only [Bool.and_eq_true, Bool.not_eq_true', Bool.eq_false_iff, Ne, ge, told.zero]
      omega
  | le =>
      simp only [Bool.or_eq_true, lt, told.zero]
      omega

/-- An overflow shows in the top bits: those of the numbers differ, and the difference has not that of
the first. -/
theorem Proper.not_fits_iff (h : p.Proper) : ¬ p.Fits ↔
    ¬ (2 ^ (p.width - 1) ≤ p.left ↔ 2 ^ (p.width - 1) ≤ p.right) ∧
      ¬ (2 ^ (p.width - 1) ≤ p.left ↔ p.IsNegative) := by
  obtain ⟨width, left, right⟩ := p
  obtain ⟨rfl | rfl, small, small'⟩ := h
  all_goals
    simp only [Nat.reducePow] at small small'
    simp only [signedLeft, signedRight, IsNegative, Fits, wrapped, Word.signedBits, Int.bmod,
      Nat.reducePow, Nat.reduceSub, Int.reducePow]
    omega

/-! ### Bits -/

variable {width : Nat} {l r : BitVec width}

/-- The numbers of two bit strings. -/
def ofBits (l r : BitVec width) : Comparison := ⟨width, l.toNat, r.toNat⟩

theorem proper_ofBits (size : width = 8 ∨ width = 16) : (ofBits l r).Proper :=
  ⟨size, l.isLt, r.isLt⟩

theorem msb_iff (b : BitVec width) : b.msb = true ↔ 2 ^ (width - 1) ≤ b.toNat := by
  rw [BitVec.msb_eq_decide, decide_eq_true_iff]

theorem wrapped_ofBits : (ofBits l r).wrapped = (l - r).toNat := by
  have bound : r.toNat ≤ 2 ^ width := Nat.le_of_lt r.isLt
  have sum : ((2 ^ width - r.toNat + l.toNat : Nat) : Int) =
      l.toNat - r.toNat + (2 ^ width : Nat) := by
    omega
  rw [BitVec.toNat_sub, Int.natCast_emod, sum, Int.add_emod_right, Int.natCast_pow]
  rfl

theorem isNegative_ofBits : (ofBits l r).IsNegative ↔ (l - r).msb = true := by
  rw [msb_iff, IsNegative, wrapped_ofBits]
  exact_mod_cast Iff.rfl

/-- Condition codes that are made of the bits of a difference tell of the numbers. -/
theorem told_ofBits (size : width = 8 ∨ width = 16)
    (zero : flags.zero = true ↔ l = r) (carry : flags.carry = true ↔ l < r)
    (negative : flags.negative = (l - r).msb)
    (overflow : flags.overflow = ((l ^^^ r) &&& (l ^^^ (l - r))).msb) :
    (ofBits l r).Told flags where
  zero := zero.trans BitVec.toNat_inj.symm
  carry := carry
  negative := by
    rw [negative, isNegative_ofBits]
  overflow := by
    rw [(proper_ofBits size).not_fits_iff, isNegative_ofBits, overflow, BitVec.msb_and,
      BitVec.msb_xor, BitVec.msb_xor, Bool.and_eq_true]
    change _ ↔ ¬ (2 ^ (width - 1) ≤ l.toNat ↔ 2 ^ (width - 1) ≤ r.toNat) ∧
      ¬ (2 ^ (width - 1) ≤ l.toNat ↔ _)
    rw [← msb_iff, ← msb_iff, ← Bool.eq_iff_iff, ← Bool.eq_iff_iff]
    exact and_congr bne_iff_ne bne_iff_ne

end Comparison

namespace Alu

open Comparison (ofBits told_ofBits)

theorem negative8_eq_msb (b : UInt8) : negative8 b = b.toBitVec.msb := by
  have top : (0x80 : UInt8).toBitVec = BitVec.twoPow 8 7 := rfl
  unfold negative8
  rw [BitVec.msb_eq_getLsbD_last, Bool.eq_iff_iff, bne_iff_ne, Ne, ← UInt8.toBitVec_inj,
    UInt8.toBitVec_and, top, BitVec.and_twoPow]
  cases b.toBitVec.getLsbD 7 <;> decide

theorem negative16_eq_msb (w : UInt16) : negative16 w = w.toBitVec.msb := by
  have top : (0x8000 : UInt16).toBitVec = BitVec.twoPow 16 15 := rfl
  unfold negative16
  rw [BitVec.msb_eq_getLsbD_last, Bool.eq_iff_iff, bne_iff_ne, Ne, ← UInt16.toBitVec_inj,
    UInt16.toBitVec_and, top, BitVec.and_twoPow]
  cases w.toBitVec.getLsbD 15 <;> decide

theorem told_sub8 (flags : Flags) (l r : UInt8) :
    (ofBits l.toBitVec r.toBitVec).Told (sub8 flags l r false).2 := by
  have unborrowed : sub8 flags l r false = (l - r, arith8 flags (l - r)
      (negative8 ((l ^^^ r) &&& (l ^^^ (l - r)))) (l.toNat < r.toNat)) := by
    unfold sub8 carryIn
    rw [if_neg Bool.false_ne_true, UInt8.sub_zero]
    rfl
  rw [unborrowed]
  refine told_ofBits (.inl rfl) ?_ decide_eq_true_iff (negative8_eq_msb _) (negative8_eq_msb _)
  change (l - r == 0) = true ↔ _
  rw [beq_iff_eq, UInt8.sub_eq_iff_eq_add, UInt8.zero_add, UInt8.toBitVec_inj]

theorem told_sub16 (flags : Flags) (l r : UInt16) :
    (ofBits l.toBitVec r.toBitVec).Told (sub16 flags l r).2 := by
  refine told_ofBits (.inr rfl) ?_ decide_eq_true_iff (negative16_eq_msb _) (negative16_eq_msb _)
  change (l - r == 0) = true ↔ _
  rw [beq_iff_eq, UInt16.sub_eq_iff_eq_add, UInt16.zero_add, UInt16.toBitVec_inj]

end Alu

/-- A compare drops the difference. -/
def Instruction.isCompare : Instruction → Bool
  | byteOp .cmp _ | compareWord _ => true
  | _ => false

namespace Core

open Flags (SameBut)
open Comparison (ofBits)

variable {c d : Core} {p : Comparison}

/-- The numbers of which a compare or a subtraction without a borrow takes the difference: the value of
its register and its operand, which has been located. -/
def comparison? (c : Core) : Instruction → Option Comparison
  | .byteOp .cmp acc | .byteOp .sub acc =>
    some (ofBits (c.regs.acc acc).toBitVec c.operandByte.1.toBitVec)
  | .compareWord register =>
    some (ofBits (c.regs.word register).toBitVec c.operandWord.1.toBitVec)
  | .subd => some (ofBits c.regs.d.toBitVec c.operandWord.1.toBitVec)
  | _ => none

/-- An instruction that takes a difference succeeds, and its condition codes tell of the numbers. -/
theorem execute_comparison {i : Instruction} (compared : c.comparison? i = some p) :
    (c.execute i).1 = .ok 0 ∧ p.Proper ∧ p.Told (c.execute i).2.regs.cc := by
  unfold comparison? at compared
  split at compared
  · obtain rfl := Option.some.inj compared
    exact ⟨rfl, Comparison.proper_ofBits (.inl rfl), Alu.told_sub8 _ _ _⟩
  · obtain rfl := Option.some.inj compared
    exact ⟨rfl, Comparison.proper_ofBits (.inl rfl), Alu.told_sub8 _ _ _⟩
  · obtain rfl := Option.some.inj compared
    exact ⟨rfl, Comparison.proper_ofBits (.inr rfl), Alu.told_sub16 _ _ _⟩
  · obtain rfl := Option.some.inj compared
    exact ⟨rfl, Comparison.proper_ofBits (.inr rfl), Alu.told_sub16 _ _ _⟩
  · cases compared

/-- A compare changes nothing but the condition codes. -/
theorem execute_compare_regs {i : Instruction} (compare : i.isCompare = true) :
    (c.execute i).2.regs = { c.regs with cc := (c.execute i).2.regs.cc } ∧
      SameBut [.n, .z, .v, .c] c.regs.cc (c.execute i).2.regs.cc := by
  unfold Instruction.isCompare at compare
  split at compare
  · rename_i acc
    refine ⟨?_, Alu.sameBut_arith8 _ _ _ _⟩
    cases acc with
    | a => rfl
    | b => rfl
  · exact ⟨rfl, Alu.sameBut_arith16 _ _ _ _⟩
  · cases compare

/-! ### Steps -/

theorem pushFast_cc (c : Core) : c.pushFast.regs.cc = { c.regs.cc with entire := false } :=
  (c.setFlags { c.regs.cc with entire := false }).pushRegisters_part
    Registers.cc (fun r => r.cc_setStack .s) fastFrame

theorem enter_flags (c : Core) (line : InterruptLine) :
    SameBut [.e, .f, .h, .i] c.regs.cc (c.enter line).regs.cc := by
  have framed : (c.pushFrame line).regs.cc = c.regs.cc ∨
      ∃ entire, (c.pushFrame line).regs.cc = { c.regs.cc with entire } := by
    unfold pushFrame
    split
    · exact .inl rfl
    · exact .inr ⟨false, c.pushFast_cc⟩
    · exact .inr ⟨true, c.pushEntire_cc⟩
  intro flag other
  rw [enter_cc]
  rcases framed with same | ⟨entire, same⟩
  · rw [same]
    cases flag <;> simp_all [Flags.maskInterrupts, Flags.get]
  · rw [same]
    cases flag <;> simp_all [Flags.maskInterrupts, Flags.get]

/-- The entry of an interrupt before an instruction keeps the codes that branches look at. -/
theorem flags_of_begins? (begins : c.begins? = some d) :
    SameBut [.e, .f, .h, .i] c.regs.cc d.regs.cc := by
  rw [eq_roused_of_begins? begins]
  cases served : c.serves? .step with
  | none =>
      rw [roused_regs_of_unserved served]
      exact .refl _ _
  | some line =>
      rw [roused_of_serves served]
      exact c.applyRequests.enter_flags line

/-- A branch succeeds and goes to its address exactly if its condition holds of the codes before the
step. -/
theorem step_branch {condition : Condition} (begins : c.begins? = some d)
    (branch : d.fetched.instruction = .branch condition ∨
      d.fetched.instruction = .longBranch condition) :
    (∃ cycles, c.step.1 = .ok cycles) ∧
      (c.step.2.regs.pc = if condition.holds d.regs.cc then d.located.2.cpu.ea
        else d.located.2.regs.pc) := by
  obtain ⟨extra, ok⟩ : ∃ extra, (d.located.2.execute d.fetched.instruction).1 = .ok extra := by
    rcases branch with short | long
    · rw [short]
      exact ⟨0, rfl⟩
    · rw [long]
      simp only [execute]
      split
      · exact ⟨_, rfl⟩
      · exact ⟨_, rfl⟩
  obtain ⟨cycles, regs, -⟩ := step_of_ok begins ok
  rw [regs, ← located_cc]
  exact ⟨⟨_, cycles⟩, execute_branch_pc _ branch⟩

/-- A step has taken the difference of two numbers, and branches decide by them. -/
structure DecidesBranches (c : Core) (p : Comparison) : Prop where
  succeeds : ∃ cycles, c.step.1 = .ok cycles
  /-- Of a branch that begins with the codes of the difference, at once or after steps that keep them,
  the condition is a relation of the two numbers: it goes to its address if that is true of them and
  behind the branch if it is not. -/
  branches {e f : Core} {condition : Condition} :
    SameBut [.e, .f, .h, .i] c.step.2.regs.cc e.regs.cc → e.begins? = some f →
    f.fetched.instruction = .branch condition ∨ f.fetched.instruction = .longBranch condition →
      (∃ cycles, e.step.1 = .ok cycles) ∧
        (p.Satisfies condition → e.step.2.regs.pc = f.located.2.cpu.ea) ∧
        (¬ p.Satisfies condition → e.step.2.regs.pc = f.located.2.regs.pc)

/-- After a compare or a subtraction, whatever its operand and addressing mode, each branch is taken
exactly if its relation holds of the two numbers as integers. A compare leaves the registers as they
are once its operand is located, and the flags that no difference has. -/
theorem decidesBranches_of_comparison (begins : c.begins? = some d)
    (compared : d.located.2.comparison? d.fetched.instruction = some p) :
    c.DecidesBranches p ∧
      (d.fetched.instruction.isCompare = true →
        c.step.2.regs = { d.located.2.regs with cc := c.step.2.regs.cc } ∧
          SameBut [.n, .z, .v, .c] d.regs.cc c.step.2.regs.cc) := by
  obtain ⟨ok, proper, told⟩ := execute_comparison compared
  obtain ⟨cycles, regs, -⟩ := step_of_ok begins ok
  rw [← regs] at told
  refine ⟨⟨⟨_, cycles⟩, ?_⟩, ?_⟩
  · intro e f condition same begun branch
    obtain ⟨succeeds, pc⟩ := step_branch begun branch
    have decides := ((told.congr same).congr (flags_of_begins? begun)).holds_iff proper condition
    refine ⟨succeeds, ?_, ?_⟩
    · intro satisfied
      rw [pc, if_pos (decides.mpr satisfied)]
    · intro unsatisfied
      rw [pc, if_neg (mt decides.mp unsatisfied)]
  · intro compare
    obtain ⟨kept, flags⟩ := execute_compare_regs (c := d.located.2) compare
    rw [← regs, located_cc] at flags
    rw [← regs] at kept
    exact ⟨kept, flags⟩

/-- A processor before a branch behind a compare of the lowest byte with 1, whose signed difference no
byte holds. -/
def lowest (branch : List UInt8) : Core where
  cpu := { Cpu.zero with regs := { Registers.zero with a := 0x80, pc := 0x2000 } }
  bus := Bus.blank.pokeBytes 0x2000 ([0x81, 0x01] ++ branch)

/-- BLT is taken, as -128 is below 1, and LBLS is not, as 128 is above it. -/
theorem lowest_branches : (lowest [0x2D, 0x10]).step.2.step.2.regs.pc = 0x2014 ∧
    (lowest [0x10, 0x23, 0x10, 0x00]).step.2.step.2.regs.pc = 0x2006 ∧
      (lowest []).step.2.regs.a = 0x80 := by
  have signed := (decidesBranches_of_comparison (c := lowest [0x2D, 0x10]) rfl
    (by rfl : _ = some ⟨8, 0x80, 1⟩)).1.branches (.refl _ _) rfl (.inl rfl)
  have unsigned := (decidesBranches_of_comparison (c := lowest [0x10, 0x23, 0x10, 0x00]) rfl
    (by rfl : _ = some ⟨8, 0x80, 1⟩)).1.branches (.refl _ _) rfl (.inr rfl)
  have kept := (decidesBranches_of_comparison (c := lowest []) rfl rfl).2 rfl
  have below : Comparison.signedLeft ⟨8, 0x80, 1⟩ < Comparison.signedRight ⟨8, 0x80, 1⟩ := by decide
  have above : ¬ 0x80 ≤ 1 := by decide
  exact ⟨signed.2.1 below, unsigned.2.2 above, by rw [kept.1]; rfl⟩

end Core
end Sim6809
