import Mathlib.Data.List.Induction
import Sim6809.Text.Number

/-!
What is read as a number. A reader that takes digits from the left under a bound accepts a text exactly
if it is a numeral in the usual positional sense, with at most one plus sign in front, and the number
stays below the bound. Zeros on the left and the case of a digit do not matter.
-/
namespace Sim6809.Number

/-- A numeral of a radix, with the number that it writes: one digit, or a numeral with a further digit
on its right. -/
inductive Writes (radix : Nat) : List Char → Nat → Prop
  | digit {c : Char} {d : Nat} : digit? radix c = some d → Writes radix [c] d
  | append {numeral : List Char} {n : Nat} {c : Char} {d : Nat} : Writes radix numeral n →
      digit? radix c = some d → Writes radix (numeral ++ [c]) (n * radix + d)

/-- A numeral, or one behind a plus sign. -/
def WritesSigned (radix : Nat) (text : List Char) (n : Nat) : Prop :=
  Writes radix text n ∨ ∃ numeral, text = '+' :: numeral ∧ Writes radix numeral n

variable {radix bound m n d : Nat} {c : Char} {text numeral : List Char}

/-! ### Numerals -/

theorem digit?_plus (radix : Nat) : digit? radix '+' = none := rfl

theorem digit?_zero (positive : 0 < radix) : digit? radix '0' = some 0 := by
  simp [digit?, Hex.value?, positive]

theorem Writes.ne_nil (h : Writes radix numeral n) : numeral ≠ [] := by
  cases h with
  | digit _ => simp
  | append _ _ => simp

theorem Writes.isSome_digit? (h : Writes radix numeral n) :
    ∀ c ∈ numeral, (digit? radix c).isSome = true := by
  induction h with
  | digit digit => simp [digit]
  | append _ digit ih =>
      intro c member
      rcases List.mem_append.mp member with before | last
      · exact ih c before
      · obtain rfl := List.mem_singleton.mp last
        simp [digit]

theorem Writes.not_mem (h : Writes radix numeral n) {c : Char} (foreign : digit? radix c = none) :
    c ∉ numeral := by
  intro member
  have digit := h.isSome_digit? c member
  rw [foreign] at digit
  cases digit

/-- A numeral ends with a digit, and what precedes it is a numeral or nothing. -/
theorem writes_append_iff : Writes radix (numeral ++ [c]) n ↔
    ∃ d, digit? radix c = some d ∧
      ((numeral = [] ∧ n = d) ∨ ∃ m, Writes radix numeral m ∧ n = m * radix + d) := by
  constructor
  · intro h
    generalize whole : numeral ++ [c] = text at h
    cases h with
    | digit digit =>
        obtain ⟨rfl, last⟩ := List.append_eq_singleton_iff.mp whole |>.resolve_right (by simp)
        obtain rfl := List.singleton_inj.mp last
        exact ⟨n, digit, .inl ⟨rfl, rfl⟩⟩
    | append front digit =>
        obtain ⟨rfl, last⟩ := List.append_inj' whole rfl
        obtain rfl := List.singleton_inj.mp last
        exact ⟨_, digit, .inr ⟨_, front, rfl⟩⟩
  · rintro ⟨d, digit, ⟨rfl, rfl⟩ | ⟨m, front, rfl⟩⟩
    · exact .digit digit
    · exact .append front digit

/-- No numeral begins with a plus sign. -/
theorem not_writes_plus (numeral : List Char) (n : Nat) : ¬ Writes radix ('+' :: numeral) n :=
  fun h => h.not_mem (digit?_plus radix) List.mem_cons_self

theorem Writes.zero_cons (h : Writes radix numeral n) (positive : 0 < radix) :
    Writes radix ('0' :: numeral) n := by
  induction h with
  | digit digit => simpa using (Writes.digit (digit?_zero positive)).append digit
  | append _ digit ih => exact ih.append digit

/-- Zeros on the left do not count. -/
theorem Writes.zeros (h : Writes radix numeral n) (positive : 0 < radix) (zeros : Nat) :
    Writes radix (List.replicate zeros '0' ++ numeral) n := by
  induction zeros with
  | zero => exact h
  | succ zeros ih => exact ih.zero_cons positive

theorem Writes.map (h : Writes radix numeral n) {f : Char → Char}
    (same : ∀ c d, digit? radix c = some d → digit? radix (f c) = some d) :
    Writes radix (numeral.map f) n := by
  induction h with
  | digit digit => exact .digit (same _ _ digit)
  | append _ digit ih =>
      rw [List.map_append]
      exact ih.append (same _ _ digit)

theorem digit?_digitChar (small : d < 16) : digit? 16 d.digitChar = some d := by
  have all : ∀ d : Fin 16, digit? 16 (Nat.digitChar d) = some d.val := by decide
  exact all ⟨d, small⟩

/-- The digits are among the first 128 characters. -/
theorem ascii_of_digit? (digit : digit? radix c = some d) : c.toNat < 128 := by
  by_contra large
  have beyond (last : Char) (small : last.toNat < 128) : ¬ c ≤ last := by
    intro within
    have within : c.toNat ≤ last.toNat := UInt32.le_iff_toNat_le.mp within
    omega
  have foreign : Hex.value? c = none := by
    simp [Hex.value?, beyond '9' (by decide), beyond 'F' (by decide), beyond 'f' (by decide)]
  rw [digit?, foreign] at digit
  cases digit

theorem digit?_toUpper (digit : digit? 16 c = some d) : digit? 16 c.toUpper = some d := by
  have all : ∀ n : Fin 128, digit? 16 (Char.ofNat n).toUpper = digit? 16 (Char.ofNat n) := by
    decide +kernel
  rw [← digit, ← Char.ofNat_toNat c]
  exact all ⟨c.toNat, ascii_of_digit? digit⟩

theorem writes_lower (n : Nat) : Writes 16 (Hex.lower n).toList n := by
  unfold Hex.lower
  rw [String.toList_ofList]
  induction n using Nat.strongRecOn with
  | ind n ih =>
      rw [Nat.toDigits_eq_if (by decide)]
      split
      · exact .digit (digit?_digitChar ‹_›)
      · have parts := (ih (n / 16) (by omega)).append (digit?_digitChar (Nat.mod_lt n (by decide)))
        rwa [Nat.div_add_mod'] at parts

theorem writes_upper (n : Nat) : Writes 16 (Hex.upper n).toList n := by
  have lower := writes_lower n
  unfold Hex.upper
  rw [String.toList_map]
  exact lower.map fun _ _ => digit?_toUpper

/-! ### The reader -/

theorem addDigit_eq_ok_iff : addDigit radix bound m c = .ok n ↔
    ∃ d, digit? radix c = some d ∧ n = m * radix + d ∧ n < bound := by
  unfold addDigit
  cases digit? radix c with
  | none => simp
  | some d =>
      by_cases below : m * radix + d < bound
      · simp only [if_pos below, Except.ok.injEq, Option.some.injEq, exists_eq_left']
        constructor
        · rintro rfl
          exact ⟨rfl, below⟩
        · rintro ⟨rfl, _⟩
          rfl
      · simp only [if_neg below, reduceCtorEq, Option.some.injEq, exists_eq_left', false_iff]
        rintro ⟨rfl, small⟩
        exact below small

theorem foldlM_append_eq_ok_iff : (text ++ [c]).foldlM (addDigit radix bound) 0 = .ok n ↔
    ∃ m, text.foldlM (addDigit radix bound) 0 = .ok m ∧ addDigit radix bound m c = .ok n := by
  simp only [List.foldlM_append, List.foldlM_cons, List.foldlM_nil, bind_pure]
  cases text.foldlM (addDigit radix bound) 0 with
  | error e => simp [bind, Except.bind]
  | ok m => simp [bind, Except.bind]

/-- A number never gets smaller as digits are added, so one that ends below the bound was always below
it. -/
theorem foldlM_addDigit_eq_ok_iff (positive : 0 < radix) (nonempty : text ≠ []) :
    text.foldlM (addDigit radix bound) 0 = .ok n ↔ Writes radix text n ∧ n < bound := by
  induction text using List.reverseRecOn generalizing n with
  | nil => exact absurd rfl nonempty
  | append_singleton front c ih =>
      have grows (m d : Nat) : m ≤ m * radix + d :=
        Nat.le_trans (Nat.le_mul_of_pos_right m positive) (Nat.le_add_right _ d)
      rw [foldlM_append_eq_ok_iff, writes_append_iff]
      constructor
      · rintro ⟨m, before, last⟩
        obtain ⟨d, digit, rfl, below⟩ := addDigit_eq_ok_iff.mp last
        refine ⟨⟨d, digit, ?_⟩, below⟩
        by_cases single : front = []
        · subst single
          cases before
          exact .inl ⟨rfl, by simp⟩
        · exact .inr ⟨m, ((ih single).mp before).1, rfl⟩
      · rintro ⟨⟨d, digit, ⟨rfl, rfl⟩ | ⟨m, written, rfl⟩⟩, below⟩
        · exact ⟨0, rfl, addDigit_eq_ok_iff.mpr ⟨n, digit, by simp, below⟩⟩
        · have small : m < bound := Nat.lt_of_le_of_lt (grows m d) below
          exact ⟨m, (ih written.ne_nil).mpr ⟨written, small⟩,
            addDigit_eq_ok_iff.mpr ⟨d, digit, rfl, below⟩⟩

theorem dropPlus_ne_nil (nonempty : text ≠ []) : dropPlus text ≠ [] := by
  unfold dropPlus
  split
  · simp
  · exact nonempty

theorem writes_dropPlus_iff : Writes radix (dropPlus text) n ↔ WritesSigned radix text n := by
  unfold dropPlus
  split
  · rename_i c rest
    constructor
    · intro written
      exact .inr ⟨_, rfl, written⟩
    · rintro (unsigned | ⟨numeral, same, written⟩)
      · exact absurd unsigned (not_writes_plus _ _)
      · rwa [(List.cons.inj same).2]
  · rename_i bare
    constructor
    · exact .inl
    · rintro (unsigned | ⟨numeral, rfl, written⟩)
      · exact unsigned
      · obtain ⟨c, rest, rfl⟩ := List.exists_cons_of_ne_nil written.ne_nil
        exact (bare c rest rfl).elim

theorem WritesSigned.ne_nil (h : WritesSigned radix text n) : text ≠ [] := by
  rcases h with unsigned | ⟨numeral, rfl, _⟩
  · exact unsigned.ne_nil
  · simp

/-- The reader accepts the signed numerals of the numbers below its bound, and nothing else. -/
theorem read_eq_ok_iff (positive : 0 < radix) :
    read radix bound text = .ok n ↔ WritesSigned radix text n ∧ n < bound := by
  unfold read
  by_cases empty : text = []
  · subst empty
    simp only [List.isEmpty_nil, if_true, reduceCtorEq, false_iff]
    exact fun accepted => accepted.1.ne_nil rfl
  · rw [if_neg (by simpa using empty), foldlM_addDigit_eq_ok_iff positive (dropPlus_ne_nil empty),
      writes_dropPlus_iff]

theorem hexWord_eq_ok_iff {w : UInt16} : hexWord text = .ok w ↔ WritesSigned 16 text w.toNat := by
  have readable (n : Nat) : read 16 65536 text = .ok n ↔ WritesSigned 16 text n ∧ n < 65536 :=
    read_eq_ok_iff (by decide)
  unfold hexWord
  constructor
  · intro accepted
    cases result : Number.read 16 65536 text with
    | error e => simp [result, Except.map] at accepted
    | ok n =>
        obtain ⟨written, small⟩ := (readable n).mp result
        obtain rfl : UInt16.ofNat n = w := by simpa [result, Except.map] using accepted
        rwa [UInt16.toNat_ofNat', Nat.mod_eq_of_lt small]
  · intro written
    rw [(readable w.toNat).mpr ⟨written, w.toNat_lt⟩]
    simp [Except.map]

end Sim6809.Number
