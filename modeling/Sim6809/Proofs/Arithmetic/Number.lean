import Mathlib.Data.Nat.Digits.Defs
import Sim6809.Flags
import Sim6809.Proofs.Word.Integer

/-!
Numbers of any length and their sums. A number is made of digits, the lowest first. When digits are
added from the lowest one on, each with the carry out of the one below it, the carry out of the highest
one is that of the whole numbers, and the overflow there is the overflow of the whole signed sum. A
difference is read as the sum that gives back the minuend.
-/
namespace Sim6809

/-- The number of the first digits in a base, the lowest first. -/
def number (base : Nat) (digit : Nat → Nat) (n : Nat) : Nat :=
  Nat.ofDigits base ((List.range n).map digit)

variable {base half n : Nat} {digit x y z c : Nat → Nat}

theorem number_succ (base : Nat) (digit : Nat → Nat) (n : Nat) :
    number base digit (n + 1) = number base digit n + base ^ n * digit n := by
  unfold number
  rw [List.range_succ, List.map_append, List.map_singleton, Nat.ofDigits_append,
    Nat.ofDigits_singleton, List.length_map, List.length_range]

theorem number_lt (proper : ∀ k < n, digit k < base) : number base digit n < base ^ n := by
  induction n with
  | zero => exact Nat.one_pos
  | succ n ih =>
      have lower := ih fun k below => proper k (Nat.lt_succ_of_lt below)
      rw [number_succ]
      calc number base digit n + base ^ n * digit n < base ^ n * (digit n + 1) := by
            rw [Nat.mul_succ, Nat.add_comm]
            exact Nat.add_lt_add_left lower _
        _ ≤ base ^ (n + 1) := Nat.mul_le_mul_left _ (proper n (Nat.lt_succ_self n))

/-- A number is at least half of its range if its highest digit is. -/
theorem half_le_number_iff (proper : ∀ k < n, digit k < base) :
    half * base ^ n ≤ number base digit (n + 1) ↔ half ≤ digit n := by
  have lower := number_lt proper
  rw [number_succ]
  constructor
  · intro large
    by_contra small
    -- A smaller digit leaves room for less than half of the range.
    have room : base ^ n * (digit n + 1) ≤ base ^ n * half :=
      Nat.mul_le_mul_left _ (Nat.lt_of_not_le small)
    rw [Nat.mul_succ] at room
    rw [Nat.mul_comm half] at large
    omega
  · intro large
    rw [Nat.mul_comm half]
    exact Nat.le_trans (Nat.mul_le_mul_left _ large) (Nat.le_add_left _ _)

/-- Carries pass through: digits that are summed column by column give the sum of the numbers. -/
theorem number_balance (balance : ∀ k < n, x k + base * c (k + 1) = y k + z k + c k) :
    number base x n + base ^ n * c n = number base y n + number base z n + c 0 := by
  induction n with
  | zero => exact congrArg (_ + ·) (Nat.one_mul _)
  | succ n ih =>
      -- The carry out of the lower digits is the one that the next digit takes in.
      have lower := ih fun k below => balance k (Nat.lt_succ_of_lt below)
      have top := congrArg (base ^ n * ·) (balance n (Nat.lt_succ_self n))
      simp only [Nat.mul_add, ← Nat.mul_assoc, ← Nat.pow_succ, Nat.succ_eq_add_one] at top
      rw [number_succ, number_succ, number_succ]
      omega

/-! ### Sums with a carry -/

/-- Two digits and a carry make a digit and a carry. The overflow tells that both digits have the same
top bit, which is not that of the sum. -/
structure Adds (half left right : Nat) (carryIn : Bool) (sum : Nat) (carry overflow : Bool) :
    Prop where
  proper : left < 2 * half ∧ right < 2 * half ∧ sum < 2 * half
  balance : sum + 2 * half * carry.toNat = left + right + carryIn.toNat
  overflow : overflow = true ↔ (half ≤ left ↔ half ≤ right) ∧ ¬ (half ≤ left ↔ half ≤ sum)

/-- The numbers add like their digits if each carry goes to the next digit. -/
theorem adds_number {left right sum : Nat → Nat} {carry overflow : Nat → Bool}
    (columns : ∀ k ≤ n,
      Adds half (left k) (right k) (carry k) (sum k) (carry (k + 1)) (overflow k)) :
    Adds (half * (2 * half) ^ n) (number (2 * half) left (n + 1))
      (number (2 * half) right (n + 1)) (carry 0) (number (2 * half) sum (n + 1)) (carry (n + 1))
      (overflow n) := by
  have range : 2 * (half * (2 * half) ^ n) = (2 * half) ^ (n + 1) := by
    rw [← Nat.mul_assoc, Nat.mul_comm, ← Nat.pow_succ]
  have proper (k : Nat) (below : k < n + 1) := (columns k (Nat.le_of_lt_succ below)).proper
  refine ⟨?_, ?_, ?_⟩
  · rw [range]
    exact ⟨number_lt fun k below => (proper k below).1, number_lt fun k below => (proper k below).2.1,
      number_lt fun k below => (proper k below).2.2⟩
  · rw [range]
    exact number_balance (c := fun k => (carry k).toNat) fun k below =>
      (columns k (Nat.le_of_lt_succ below)).balance
  -- The signs of the numbers are those of their highest digits.
  · have inner (k : Nat) (below : k < n) := proper k (Nat.lt_succ_of_lt below)
    rw [half_le_number_iff fun k below => (inner k below).1,
      half_le_number_iff fun k below => (inner k below).2.1,
      half_le_number_iff fun k below => (inner k below).2.2]
    exact (columns n (Nat.le_refl n)).overflow

/-- The value in two's complement of a number below twice a half. -/
def signedBelow (half value : Nat) : Int := if value < half then value else value - 2 * half

section Told

variable {left right sum : Nat} {carryIn carry overflow : Bool}

theorem Adds.carried (h : Adds half left right carryIn sum carry overflow) :
    carry = false ∧ sum = left + right + carryIn.toNat ∨
      carry = true ∧ sum + 2 * half = left + right + carryIn.toNat := by
  have balance := h.balance
  cases carry with
  | false => exact .inl ⟨rfl, balance⟩
  | true =>
      rw [Bool.toNat_true, Nat.mul_one] at balance
      exact .inr ⟨rfl, balance⟩

/-- A wrapped total is at most one range away. -/
theorem wrapped_once {total : Int} {value : Nat} (small : value < 2 * half)
    (near : total = value ∨ total = value + 2 * half ∨ total = value - 2 * half) :
    (value : Int) = total % (2 * half) := by
  have inside : (value : Int) % (2 * half) = value := Int.emod_eq_of_lt (by omega) (by omega)
  rcases near with rfl | rfl | rfl
  · exact inside.symm
  · rw [Int.add_emod_right, inside]
  · rw [Int.sub_emod_right, inside]

theorem Adds.told_sum (h : Adds half left right false sum carry overflow) :
    (sum : Int) = ((left : Int) + right) % (2 * half) ∧
      (carry = true ↔ 2 * half ≤ left + right) ∧
      (overflow = true ↔ ¬ (-half ≤ signedBelow half left + signedBelow half right ∧
        signedBelow half left + signedBelow half right < half)) := by
  have proper := h.proper
  rw [h.overflow]
  unfold signedBelow
  -- With the carry known the sum is known, and the signs decide what is left.
  rcases h.carried with ⟨rfl, value⟩ | ⟨rfl, value⟩
  · rw [Bool.toNat_false] at value
    refine ⟨wrapped_once proper.2.2 (by omega), ?_, by split <;> split <;> omega⟩
    exact ⟨Bool.noConfusion, fun large => by omega⟩
  · rw [Bool.toNat_false] at value
    refine ⟨wrapped_once proper.2.2 (by omega), ?_, by split <;> split <;> omega⟩
    exact ⟨fun _ => by omega, fun _ => rfl⟩

/-- A borrow is the carry of the sum that gives back the minuend. -/
theorem Adds.told_difference (h : Adds half sum right false left carry overflow) :
    (sum : Int) = ((left : Int) - right) % (2 * half) ∧ (carry = true ↔ left < right) ∧
      (overflow = true ↔ ¬ (-half ≤ signedBelow half left - signedBelow half right ∧
        signedBelow half left - signedBelow half right < half)) := by
  have proper := h.proper
  rw [h.overflow]
  unfold signedBelow
  rcases h.carried with ⟨rfl, value⟩ | ⟨rfl, value⟩
  · rw [Bool.toNat_false] at value
    refine ⟨wrapped_once proper.1 (by omega), ?_, by split <;> split <;> omega⟩
    exact ⟨Bool.noConfusion, fun less => by omega⟩
  · rw [Bool.toNat_false] at value
    refine ⟨wrapped_once proper.1 (by omega), ?_, by split <;> split <;> omega⟩
    exact ⟨fun _ => by omega, fun _ => rfl⟩

end Told

/-! ### Sums and differences of numbers -/

/-- What becomes of two numbers. -/
inductive Combination
  | sum
  | difference
  deriving DecidableEq, Repr

namespace Combination

/-- The exact result. -/
def total (op : Combination) (left right : Int) : Int :=
  match op with
  | sum => left + right
  | difference => left - right

/-- The sum of numbers of a width in bits carries, or their difference borrows. -/
def Carries (op : Combination) (width left right : Nat) : Prop :=
  match op with
  | sum => 2 ^ width ≤ left + right
  | difference => left < right

/-- The result of the numbers in two's complement is not representable in the width. -/
def Overflows (op : Combination) (width left right : Nat) : Prop :=
  ¬ (-2 ^ (width - 1) ≤ op.total (Word.signedBits width left) (Word.signedBits width right) ∧
    op.total (Word.signedBits width left) (Word.signedBits width right) < 2 ^ (width - 1))

/-- A result of a width in bits with its condition codes. -/
structure Gives (op : Combination) (width left right value : Nat) (flags : Flags) : Prop where
  exact : (value : Int) = op.total left right % 2 ^ width
  carry : flags.carry = true ↔ op.Carries width left right
  overflow : flags.overflow = true ↔ op.Overflows width left right
  negative : flags.negative = true ↔ 2 ^ (width - 1) ≤ value

/-- Two ways to the same result leave the same codes. -/
theorem Gives.unique {op : Combination} {width left right result other : Nat} {flags codes : Flags}
    (h : op.Gives width left right result flags) (k : op.Gives width left right other codes) :
    result = other ∧ flags.carry = codes.carry ∧ flags.overflow = codes.overflow ∧
      flags.negative = codes.negative := by
  have same : result = other := Int.ofNat.inj (h.exact.trans k.exact.symm)
  subst same
  exact ⟨rfl, Bool.eq_iff_iff.mpr (h.carry.trans k.carry.symm),
    Bool.eq_iff_iff.mpr (h.overflow.trans k.overflow.symm),
    Bool.eq_iff_iff.mpr (h.negative.trans k.negative.symm)⟩

/-- A digit of the result with its condition codes, where a carry or a borrow comes in. A difference
and the subtrahend add up to the minuend. -/
structure Links (op : Combination) (half left right : Nat) (carryIn : Bool) (result : Nat)
    (flags : Flags) : Prop where
  adds :
    match op with
    | sum => Adds half left right carryIn result flags.carry flags.overflow
    | difference => Adds half result right carryIn left flags.carry flags.overflow
  negative : flags.negative = true ↔ half ≤ result

theorem links_number {op : Combination} {left right result : Nat → Nat} {carry : Nat → Bool}
    {flags : Nat → Flags} (passed : ∀ k ≤ n, carry (k + 1) = (flags k).carry)
    (columns : ∀ k ≤ n, op.Links half (left k) (right k) (carry k) (result k) (flags k)) :
    op.Links (half * (2 * half) ^ n) (number (2 * half) left (n + 1))
      (number (2 * half) right (n + 1)) (carry 0) (number (2 * half) result (n + 1)) (flags n) := by
  have top := columns n (Nat.le_refl n)
  cases op with
  | sum =>
      have adds (k : Nat) (below : k ≤ n) := passed k below ▸ (columns k below).adds
      refine ⟨passed n (Nat.le_refl n) ▸ adds_number adds, ?_⟩
      rw [half_le_number_iff fun k below => (adds k (Nat.le_of_lt below)).proper.2.2]
      exact top.negative
  | difference =>
      -- The digits of the difference and of the subtrahend add up to those of the minuend.
      have adds (k : Nat) (below : k ≤ n) := passed k below ▸ (columns k below).adds
      refine ⟨passed n (Nat.le_refl n) ▸ adds_number adds, ?_⟩
      rw [half_le_number_iff fun k below => (adds k (Nat.le_of_lt below)).proper.1]
      exact top.negative

theorem signedBits_eq {width value : Nat} (range : 2 ^ width = 2 * half)
    (proper : value < 2 * half) : Word.signedBits width value = signedBelow half value := by
  have inside : (value : Int) % (2 * half : Nat) = value := by
    rw [← Int.natCast_emod, Nat.mod_eq_of_lt proper]
  unfold Word.signedBits signedBelow
  rw [range, Int.bmod_def, inside]
  push_cast
  split <;> split <;> omega

/-- Without a carry that comes in, the result and its codes are those of the numbers. -/
theorem Links.gives {op : Combination} {width left right result : Nat} {flags : Flags}
    (positive : 0 < width) (h : op.Links (2 ^ (width - 1)) left right false result flags) :
    op.Gives width left right result flags := by
  have range : 2 ^ width = 2 * 2 ^ (width - 1) := by
    rw [Nat.mul_comm, Nat.two_pow_pred_mul_two positive]
  have modulus : (2 : Int) ^ width = 2 * (2 ^ (width - 1) : Nat) := by exact_mod_cast range
  have top : (2 : Int) ^ (width - 1) = (2 ^ (width - 1) : Nat) := (Nat.cast_pow 2 _).symm
  have signs := @signedBits_eq (2 ^ (width - 1)) width
  obtain ⟨adds, negative⟩ := h
  suffices exact : (result : Int) = op.total left right % 2 ^ width ∧
      (flags.carry = true ↔ op.Carries width left right) ∧
      (flags.overflow = true ↔ op.Overflows width left right) from
    ⟨exact.1, exact.2.1, exact.2.2, negative⟩
  unfold Carries Overflows
  rw [range, modulus, top]
  cases op with
  | sum =>
      rw [signs range adds.proper.1, signs range adds.proper.2.1]
      exact adds.told_sum
  | difference =>
      rw [signs range adds.proper.2.2, signs range adds.proper.2.1]
      exact adds.told_difference

end Combination
end Sim6809
