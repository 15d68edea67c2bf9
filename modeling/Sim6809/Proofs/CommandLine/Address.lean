import Sim6809.Address
import Sim6809.Proofs.Text.Number

/-!
Addresses that a user may write: hexadecimal digits of either case behind at most one mark, with any
zeros in front. All of them are read as what they write, and nothing else is read but the same with a
plus sign before the digits.
-/
namespace Sim6809.Address

open Number (Writes WritesSigned)

/-- What may stand in front of the digits of an address. -/
def marks : List (List Char) := [[], ['$'], ['0', 'x'], ['0', 'X']]

/-- A text that writes an address: digits behind at most one mark. -/
def Written (text : List Char) (address : UInt16) : Prop :=
  ∃ mark ∈ marks, ∃ numeral, text = mark ++ numeral ∧ Writes 16 numeral address.toNat

/-- A text that would write an address but for a plus sign before its digits. -/
def WrittenWithPlus (text : List Char) (address : UInt16) : Prop :=
  ∃ mark ∈ marks, ∃ numeral, text = mark ++ '+' :: numeral ∧ Writes 16 numeral address.toNat

variable {text mark : List Char} {address : UInt16} {n : Nat}

/-! ### The mark -/

theorem exists_mark (text : List Char) : ∃ mark ∈ marks, text = mark ++ dropMark text := by
  unfold dropMark
  split
  · exact ⟨['$'], by simp [marks], rfl⟩
  · exact ⟨['0', 'x'], by simp [marks], rfl⟩
  · exact ⟨['0', 'X'], by simp [marks], rfl⟩
  · exact ⟨[], by simp [marks], rfl⟩

/-- The digits of a number are not taken for a mark. -/
theorem dropMark_of_writesSigned (h : WritesSigned 16 text n) : dropMark text = text := by
  rcases h with written | ⟨numeral, rfl, _⟩
  · unfold dropMark
    split
    · exact absurd (by simp) (written.not_mem (c := '$') rfl)
    · exact absurd (by simp) (written.not_mem (c := 'x') rfl)
    · exact absurd (by simp) (written.not_mem (c := 'X') rfl)
    · rfl
  · rfl

theorem dropMark_append (known : mark ∈ marks) (h : WritesSigned 16 text n) :
    dropMark (mark ++ text) = text := by
  simp only [marks, List.mem_cons, List.not_mem_nil, or_false] at known
  rcases known with rfl | rfl | rfl | rfl
  · exact dropMark_of_writesSigned h
  · rfl
  · rfl
  · rfl

theorem writesSigned_dropMark_iff : WritesSigned 16 (dropMark text) address.toNat ↔
    Written text address ∨ WrittenWithPlus text address := by
  constructor
  · intro accepted
    obtain ⟨mark, known, parts⟩ := exists_mark text
    rcases accepted with written | ⟨numeral, signed, written⟩
    · exact .inl ⟨mark, known, _, parts, written⟩
    · exact .inr ⟨mark, known, numeral, signed ▸ parts, written⟩
  · rintro (⟨mark, known, numeral, rfl, written⟩ | ⟨mark, known, numeral, rfl, written⟩)
    · have accepted : WritesSigned 16 numeral address.toNat := .inl written
      rwa [dropMark_append known accepted]
    · have accepted : WritesSigned 16 ('+' :: numeral) address.toNat := .inr ⟨_, rfl, written⟩
      rwa [dropMark_append known accepted]

/-! ### The address -/

theorem parse_eq_ok_iff (text : String) : parse text = .ok address ↔
    Written text.toList address ∨ WrittenWithPlus text.toList address := by
  rw [← writesSigned_dropMark_iff, ← Number.hexWord_eq_ok_iff]
  unfold parse
  cases Number.hexWord (dropMark text.toList) with
  | ok found => simp
  | error e => simp

theorem parse_eq_error (text : String) (unread : ∀ address, parse text ≠ .ok address) :
    ∃ cause : NumberError, parse text = .error (Text.quote text ++ ": " ++ cause.message) := by
  unfold parse at unread ⊢
  revert unread
  cases Number.hexWord (dropMark text.toList) with
  | ok found => exact fun unread => absurd rfl (unread found)
  | error cause => exact fun _ => ⟨cause, rfl⟩

/-- No address is written with a plus sign. -/
theorem Written.no_plus (h : Written text address) : '+' ∉ text := by
  obtain ⟨mark, known, numeral, rfl, written⟩ := h
  have unmarked : ∀ mark ∈ marks, '+' ∉ mark := by decide
  rw [List.mem_append, not_or]
  exact ⟨unmarked mark known, written.not_mem rfl⟩

/-- The texts that are read are those that write an address and those that would but for a plus sign
before the digits, so that the written addresses are all that is read unless there is such a sign.
Other texts are rejected with a message that quotes them and names the cause. An address is read as
itself behind any mark and any zeros, in digits of either case. -/
theorem parse_reads_written (text : String) :
    ((∀ address, parse text = .ok address ↔ Written text.toList address) ↔
      ∀ address, ¬ WrittenWithPlus text.toList address) ∧
    (∀ address, parse text = .ok address ↔
      Written text.toList address ∨ WrittenWithPlus text.toList address) ∧
    ((∀ address, ¬ Written text.toList address ∧ ¬ WrittenWithPlus text.toList address) →
      ∃ cause : NumberError, parse text = .error (Text.quote text ++ ": " ++ cause.message)) ∧
    ∀ (address : UInt16) (zeros : Nat), ∀ mark ∈ marks,
      ∀ digits ∈ [Hex.lower address.toNat, Hex.upper address.toNat],
        text.toList = mark ++ List.replicate zeros '0' ++ digits.toList →
          parse text = .ok address := by
  refine ⟨?meets, fun address => parse_eq_ok_iff text, ?rejects, ?padded⟩
  case meets =>
    constructor
    · intro exact address signed
      have written := (exact address).mp ((parse_eq_ok_iff text).mpr (.inr signed))
      obtain ⟨mark, _, numeral, parts, _⟩ := signed
      apply written.no_plus
      simp [parts]
    · intro unsigned address
      rw [parse_eq_ok_iff, or_iff_left (unsigned address)]
  case rejects =>
    intro foreign
    apply parse_eq_error
    intro address read
    rcases (parse_eq_ok_iff text).mp read with written | written
    · exact (foreign address).1 written
    · exact (foreign address).2 written
  case padded =>
    intro address zeros mark known digits chosen parts
    have written : Writes 16 digits.toList address.toNat := by
      simp only [List.mem_cons, List.not_mem_nil, or_false] at chosen
      rcases chosen with rfl | rfl
      · exact Number.writes_lower _
      · exact Number.writes_upper _
    rw [List.append_assoc] at parts
    exact (parse_eq_ok_iff _).mpr (.inl ⟨mark, known, _, parts, written.zeros (by decide) zeros⟩)

/-- Three zeros in front of an address behind a mark, and a text with two marks. -/
theorem padded_read :
    parse "0X000f00d" = .ok 0xF00D ∧
    ∃ cause : NumberError, parse "$$12" = .error (Text.quote "$$12" ++ ": " ++ cause.message) := by
  obtain ⟨_, _, _, padded⟩ := parse_reads_written "0X000f00d"
  obtain ⟨_, _, rejected, _⟩ := parse_reads_written "$$12"
  have foreign (address : UInt16) :
      ¬ WritesSigned 16 (dropMark "$$12".toList) address.toNat := by
    rintro (written | ⟨numeral, signed, _⟩)
    · exact absurd List.mem_cons_self (written.not_mem (c := '$') rfl)
    · exact absurd signed (by simp [dropMark])
  constructor
  · exact padded 0xF00D 3 ['0', 'X'] (by decide) "f00d" (by decide) (by decide)
  · apply rejected
    intro address
    rw [← not_or, ← writesSigned_dropMark_iff]
    exact foreign address

/-- A plus sign is read over, though no address is written with one. -/
theorem plusSign_read : parse "+12" = .ok 0x12 ∧ ∀ address, ¬ Written "+12".toList address :=
  ⟨rfl, fun _ written => written.no_plus List.mem_cons_self⟩

end Sim6809.Address
