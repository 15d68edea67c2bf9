import Mathlib.Data.List.Forall2
import Sim6809.Proofs.Text.Column
import Sim6809.Proofs.Text.Lines
import Sim6809.Proofs.Text.Number

/-!
Columns of hexadecimal digits. A byte or a word stands in one as a numeral of fixed width without a blank
in it, so bytes that are set apart by blanks are read back one by one.
-/
namespace Sim6809.Hex

def upperDigits : List Char := "0123456789ABCDEF".toList

/-- A text is the numeral of a number with a fixed count of digits, all in upper case. -/
structure Shows (width n : Nat) (text : List Char) : Prop where
  length : text.length = width
  upper : ∀ c ∈ text, c ∈ upperDigits
  writes : Number.Writes 16 text n

variable {width n d bound : Nat} {text : List Char}

/-! ### Digits -/

theorem digit_mem_upperDigits : ∀ {d : Nat}, d < 16 → digit d ∈ upperDigits := by
  decide

theorem digit?_digit : ∀ {d : Nat}, d < 16 → Number.digit? 16 (digit d) = some d := by
  decide

theorem isBlank_of_mem_upperDigits : ∀ c ∈ upperDigits, Text.isBlank c = false :=
  (Text.isWord_of_all (by decide)).unbroken

theorem shows_digit (small : d < 16) : Shows 1 d [digit d] where
  length := rfl
  upper _ member := List.mem_singleton.mp member ▸ digit_mem_upperDigits small
  writes := .digit (digit?_digit small)

theorem Shows.append (h : Shows width n text) (small : d < 16) :
    Shows (width + 1) (n * 16 + d) (text ++ [digit d]) where
  length := by rw [List.length_append, h.length, List.length_singleton]
  upper c member := by
    rcases List.mem_append.mp member with before | last
    · exact h.upper c before
    · exact (shows_digit small).upper c last
  writes := h.writes.append (digit?_digit small)

theorem shows_byte (b : UInt8) : Shows 2 b.toNat (byteChars b) := by
  have bound := b.toNat_lt
  have both := (shows_digit (d := b.toNat / 16) (by omega)).append (d := b.toNat % 16) (by omega)
  rwa [Nat.div_add_mod'] at both

theorem forall₂_shows_byte (bytes : List UInt8) :
    List.Forall₂ (fun b pair => Shows 2 b.toNat pair) bytes (bytes.map byteChars) :=
  List.forall₂_map_right_iff.mpr (List.forall₂_same.mpr fun b _ => shows_byte b)

theorem toList_word (w : UInt16) :
    (word w).toList = byteChars (Word.hi w) ++ byteChars (Word.lo w) :=
  String.toList_ofList

theorem shows_word (w : UInt16) : Shows 4 w.toNat (word w).toList := by
  have bound := (Word.lo w).toNat_lt
  have four := ((shows_byte (Word.hi w)).append (d := (Word.lo w).toNat / 16) (by omega)).append
    (d := (Word.lo w).toNat % 16) (by omega)
  have value : ((Word.hi w).toNat * 16 + (Word.lo w).toNat / 16) * 16 + (Word.lo w).toNat % 16 =
      w.toNat := by
    rw [Word.toNat_hi, Word.toNat_lo]
    omega
  rw [value] at four
  rwa [toList_word]

/-! ### Reading back -/

theorem Shows.isWord (h : Shows width n text) : Text.IsWord text :=
  ⟨h.writes.ne_nil, fun c member => isBlank_of_mem_upperDigits c (h.upper c member)⟩

theorem Shows.read (h : Shows width n text) (below : n < bound) :
    Number.read 16 bound text = .ok n :=
  (Number.read_eq_ok_iff (by decide)).mpr ⟨.inl h.writes, below⟩

theorem hexWord_word (w : UInt16) : Number.hexWord (word w).toList = .ok w :=
  Number.hexWord_eq_ok_iff.mpr (.inl (shows_word w).writes)

/-- Reads the numerals between the blanks of a text as bytes. -/
def readPairs (text : List Char) : Except NumberError (List UInt8) :=
  (Text.fields text).mapM fun pair => (Number.read 16 256 pair).map UInt8.ofNat

theorem isWord_of_mem_map_byteChars {bytes : List UInt8} :
    ∀ pair ∈ bytes.map byteChars, Text.IsWord pair := by
  intro pair member
  obtain ⟨b, _, rfl⟩ := List.mem_map.mp member
  exact (shows_byte b).isWord

theorem readPairs_of_fields {bytes : List UInt8} (fields : Text.fields text = bytes.map byteChars) :
    readPairs text = .ok bytes := by
  have one (b : UInt8) : (Number.read 16 256 (byteChars b)).map UInt8.ofNat = pure b := by
    rw [(shows_byte b).read b.toNat_lt]
    exact congrArg Except.ok UInt8.ofNat_toNat
  rw [readPairs, fields, List.mapM_map, Function.comp_def]
  simp only [one]
  rw [List.mapM_pure, List.map_id']
  rfl

/-- Pairs that stand in a wide enough column are read back from it. -/
theorem readPairs_takeD {bytes : List UInt8} (fits : text.length ≤ width)
    (fields : Text.fields text = bytes.map byteChars) :
    readPairs (text.takeD width ' ') = .ok bytes := by
  rw [Text.takeD_eq, List.take_of_length_le fits]
  apply readPairs_of_fields
  rw [Text.fields_append_blanks, fields]
  intro c member
  rw [(List.mem_replicate.mp member).2]
  decide

theorem length_pairs (bytes : List UInt8) :
    ((bytes.map byteChars).flatMap (' ' :: ·)).length = 3 * bytes.length := by
  induction bytes with
  | nil => rfl
  | cons b bytes ih =>
      rw [List.map_cons, List.flatMap_cons, List.length_append, ih, List.length_cons,
        length_byteChars, List.length_cons]
      omega

/-! ### Fields -/

theorem length_byte (b : UInt8) : (byte b).length = 2 := by
  rw [byte, String.length_ofList, length_byteChars]

theorem length_word (w : UInt16) : (word w).length = 4 := by
  rw [← String.length_toList, (shows_word w).length]

theorem byte_injective {b c : UInt8} (same : byte b = byte c) : b = c := by
  have read := (shows_byte b).read b.toNat_lt
  rw [String.ofList_injective same, (shows_byte c).read c.toNat_lt] at read
  exact UInt8.toNat_inj.mp (Except.ok.inj read).symm

theorem word_injective {v w : UInt16} (same : word v = word w) : v = w := by
  have read := hexWord_word v
  rw [same, hexWord_word] at read
  exact (Except.ok.inj read).symm

end Sim6809.Hex
