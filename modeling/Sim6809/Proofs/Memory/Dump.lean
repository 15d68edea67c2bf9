import Mathlib.Data.List.Basic
import Mathlib.Data.List.Forall2
import Sim6809.Memory.Dump
import Sim6809.Proofs.Memory.Bytes
import Sim6809.Proofs.Text.Column
import Sim6809.Proofs.Text.Hex

/-!
What a memory dump shows. The loop goes through memory in strides of sixteen bytes, so line k is the row
of the bytes in stride k, and only the last row may be a shorter one. Every row keeps room for sixteen
pairs of digits, which puts the bar in front of the characters at one place in all of them.
-/
namespace Sim6809.Memory

variable {bytes : List UInt8} {b : UInt8}

/-! ### The loop -/

/-- A dump ends with the bytes that were asked for or with the last one in memory. -/
theorem dumpEnd_eq (address : UInt16) (count : Nat) :
    dumpEnd address count = address.toNat + min count (65536 - address.toNat) := by
  have bound := address.toNat_lt
  unfold dumpEnd saturatingAdd size
  omega

/-- The bytes of stride k between two places in memory. -/
def stride (m : Memory) (start stop k : Nat) : List UInt8 :=
  m.readBytes (UInt16.ofNat (start + 16 * k)) (min 16 (stop - (start + 16 * k)))

theorem length_stride_le (m : Memory) (start stop k : Nat) : (m.stride start stop k).length ≤ 16 := by
  rw [stride, length_readBytes]
  exact Nat.min_le_left _ _

theorem place_succ (start k : Nat) : start + 16 * (k + 1) = start + 16 + 16 * k := by
  omega

/-- The loop makes a line of each stride up to the end. -/
theorem dumpLines_eq (m : Memory) (start stop : Nat) : m.dumpLines start stop =
    (List.range ((stop - start + 15) / 16)).map fun k =>
      dumpLine (UInt16.ofNat (start + 16 * k)) (m.stride start stop k) := by
  fun_induction dumpLines m start stop with
  | case1 start before next address ih =>
      have first : m.stride start stop 0 = m.readBytes address (next - start) := by
        rw [stride, Nat.mul_zero, Nat.add_zero]
        congr 1
        omega
      rw [ih]
      by_cases full : start + 16 ≤ stop
      · have stepped : next = start + 16 := Nat.min_eq_left full
        have lines : (stop - start + 15) / 16 = (stop - next + 15) / 16 + 1 := by omega
        rw [lines, List.range_succ_eq_map, List.map_cons, List.map_map, first]
        refine congrArg (List.cons _) (List.map_congr_left fun k _ => ?_)
        rw [Function.comp, Nat.succ_eq_add_one, stride, stride, place_succ, stepped]
      · -- A shorter row is the last one, as the next stride would begin at the end.
        have stopped : next = stop := Nat.min_eq_right (by omega)
        have single : (stop - start + 15) / 16 = 1 := by omega
        rw [single, stopped, Nat.sub_self, List.range_one, List.map_singleton, first, stopped]
        rfl
  | case2 start done =>
      rw [Nat.sub_eq_zero_of_le (Nat.le_of_not_lt done)]
      rfl

/-- The strides of the bytes from an address on are these bytes in their order. -/
theorem flatMap_stride (m : Memory) (start n count : Nat) :
    (List.range count).flatMap (m.stride start (start + n)) =
      m.readBytes (UInt16.ofNat start) (min (16 * count) n) := by
  induction count with
  | zero => rw [Nat.mul_zero, Nat.zero_min]; rfl
  | succ count ih =>
      rw [List.range_succ, List.flatMap_append, ih, List.flatMap_singleton, stride]
      by_cases inside : 16 * count ≤ n
      · have split : min (16 * (count + 1)) n = 16 * count + min 16 (n - 16 * count) := by omega
        rw [Nat.min_eq_left inside, split, readBytes_add, ← UInt16.ofNat_add, Nat.add_sub_add_left]
      · have none : start + n - (start + 16 * count) = 0 := by omega
        have same : min (16 * (count + 1)) n = min (16 * count) n := by omega
        rw [none, same, Nat.min_zero]
        exact List.append_nil _

/-! ### A row -/

/-- A character shows a byte: itself if it is visible or the space, a dot in place of any other. -/
def ShownAs (b : UInt8) (c : Char) : Prop :=
  if b = 0x20 ∨ (0x21 ≤ b ∧ b ≤ 0x7E) then c.toNat = b.toNat else c = '.'

theorem shownAs_dumpChar (b : UInt8) : ShownAs b (dumpChar b) := by
  have range : b = 0x20 ∨ (0x21 ≤ b ∧ b ≤ 0x7E) ↔ 0x20 ≤ b ∧ b ≤ 0x7E := by
    simp only [UInt8.le_iff_toNat_le, ← UInt8.toNat_inj, UInt8.reduceToNat]
    omega
  unfold ShownAs dumpChar
  simp only [range]
  split
  · exact b.toNat_toUInt32
  · rfl

theorem ShownAs.ne_newline {c : Char} (h : ShownAs b c) : c ≠ '\n' := by
  rintro rfl
  unfold ShownAs at h
  split at h
  · rename_i visible
    have code : 10 = b.toNat := h
    simp only [UInt8.le_iff_toNat_le, ← UInt8.toNat_inj, UInt8.reduceToNat] at visible
    omega
  · cases h

/-- The columns of a row. -/
def dumpRow (address : UInt16) (bytes : List UInt8) : List Char :=
  (Hex.word address).toList ++ ([':'] ++
    (((bytes.map Hex.byteChars).flatMap (' ' :: ·)).takeD 48 ' ' ++
      ([' ', ' ', '|'] ++ (bytes.map dumpChar ++ ['|']))))

theorem toList_dumpLine (address : UInt16) (short : bytes.length ≤ 16) :
    (dumpLine address bytes).toList = dumpRow address bytes ++ ['\n'] := by
  have width := Hex.length_pairs bytes
  have pairs : (String.join (bytes.map fun b => " " ++ Hex.byte b)).toList =
      (bytes.map Hex.byteChars).flatMap (' ' :: ·) := by
    rw [String.toList_join, List.flatMap_map, List.flatMap_map]
    refine List.flatMap_congr fun b _ => ?_
    rw [String.toList_append, Hex.byte]
    exact congrArg (' ' :: ·) String.toList_ofList
  have room : 48 - 3 * bytes.length = 3 * (16 - bytes.length) := by omega
  rw [dumpRow, Text.takeD_eq, List.take_of_length_le (by omega), width, room]
  simp only [dumpLine, String.toList_append, pairs, String.toList_ofList, List.append_assoc]
  rfl

theorem newline_not_mem_dumpRow (address : UInt16) (bytes : List UInt8) :
    '\n' ∉ dumpRow address bytes := by
  have digits : '\n' ∉ Hex.upperDigits := by decide
  have byte (b : UInt8) : '\n' ∉ Hex.byteChars b :=
    fun member => digits ((Hex.shows_byte b).upper _ member)
  have word : '\n' ∉ (Hex.word address).toList :=
    fun member => digits ((Hex.shows_word address).upper _ member)
  have pairs : '\n' ∉ (bytes.map Hex.byteChars).flatMap (' ' :: ·) := by
    simp [byte]
  have column : '\n' ∉ ((bytes.map Hex.byteChars).flatMap (' ' :: ·)).takeD 48 ' ' := by
    rw [Text.takeD_eq, List.mem_append, List.mem_replicate]
    rintro (cut | ⟨_, filler⟩)
    · exact pairs (List.mem_of_mem_take cut)
    · exact absurd filler (by decide)
  have chars : '\n' ∉ bytes.map dumpChar := by
    intro member
    obtain ⟨b, _, shown⟩ := List.mem_map.mp member
    exact (shownAs_dumpChar b).ne_newline shown
  unfold dumpRow
  generalize List.takeD 48 _ ' ' = column' at column ⊢
  simp [word, column, chars]

theorem getLast?_dumpRow (address : UInt16) (bytes : List UInt8) :
    (dumpRow address bytes).getLast? = some '|' := by
  unfold dumpRow
  generalize List.takeD 48 _ ' ' = column
  simp only [← List.append_assoc]
  exact List.getLast?_concat

/-- A row shows bytes from an address on: the address in four digits, behind a blank each the pairs of
digits in room for sixteen, and between bars a character for each byte. -/
structure Row (address : Nat) (bytes : List UInt8) (row : List Char) : Prop where
  address : Hex.Shows 4 address (row.take 4)
  colon : (row.drop 4).take 1 = [':']
  pairs : ∃ pairs, List.Forall₂ (fun b pair => Hex.Shows 2 b.toNat pair) bytes pairs ∧
    (row.drop 5).take 48 = (pairs.flatMap (' ' :: ·)).takeD 48 ' '
  opens : (row.drop 53).take 3 = [' ', ' ', '|']
  chars : ∃ chars, List.Forall₂ ShownAs bytes chars ∧ row.drop 56 = chars ++ ['|']

theorem columns_dumpRow (address : UInt16) (bytes : List UInt8) :
    let row := dumpRow address bytes
    row.take 4 = (Hex.word address).toList ∧ (row.drop 4).take 1 = [':'] ∧
      (row.drop 5).take 48 = ((bytes.map Hex.byteChars).flatMap (' ' :: ·)).takeD 48 ' ' ∧
      (row.drop 53).take 3 = [' ', ' ', '|'] ∧ row.drop 56 = bytes.map dumpChar ++ ['|'] := by
  have digits := (Hex.shows_word address).length
  have room : (((bytes.map Hex.byteChars).flatMap (' ' :: ·)).takeD 48 ' ').length = 48 :=
    List.takeD_length _ _ _
  dsimp only [dumpRow]
  generalize List.takeD 48 _ ' ' = column at room ⊢
  have drop (start : Nat) (row : List Char) : row.drop (4 + start) = (row.drop 4).drop start :=
    List.drop_drop.symm
  refine ⟨List.take_left' digits, ?_, ?_, ?_, ?_⟩
  · rw [List.drop_left' digits]
    rfl
  · rw [drop 1, List.drop_left' digits]
    exact Text.take_drop_append [':'] _ rfl room
  · rw [drop 49, List.drop_left' digits, ← List.append_assoc [':']]
    exact Text.take_drop_append _ [' ', ' ', '|'] (by simp [room]) rfl
  · rw [drop 52, List.drop_left' digits, ← List.append_assoc [':'],
      ← List.append_assoc _ [' ', ' ', '|']]
    exact List.drop_left' (by simp [room])

theorem row_dumpRow (address : UInt16) (bytes : List UInt8) :
    Row address.toNat bytes (dumpRow address bytes) := by
  obtain ⟨digits, colon, pairs, opens, chars⟩ := columns_dumpRow address bytes
  constructor
  case address =>
    rw [digits]
    exact Hex.shows_word address
  case colon => exact colon
  case pairs => exact ⟨bytes.map Hex.byteChars, Hex.forall₂_shows_byte bytes, pairs⟩
  case opens => exact opens
  case chars =>
    refine ⟨bytes.map dumpChar, ?_, chars⟩
    rw [List.forall₂_map_right_iff]
    exact List.forall₂_same.mpr fun b _ => shownAs_dumpChar b

/-- Reads the pairs of a row back as bytes. -/
def bytesOfRow (row : List Char) : Except NumberError (List UInt8) :=
  Hex.readPairs ((row.drop 5).take 48)

theorem bytesOfRow_dumpRow (address : UInt16) (short : bytes.length ≤ 16) :
    bytesOfRow (dumpRow address bytes) = .ok bytes := by
  have fits : ((bytes.map Hex.byteChars).flatMap (' ' :: ·)).length ≤ 48 := by
    rw [Hex.length_pairs]
    omega
  rw [bytesOfRow, (columns_dumpRow address bytes).2.2.1]
  exact Hex.readPairs_takeD fits (Text.fields_flatMap_words Hex.isWord_of_mem_map_byteChars)

/-! ### The whole dump -/

/-- The rows of a dump. -/
def rows (m : Memory) (start n : Nat) : List (List Char) :=
  (List.range ((n + 15) / 16)).map fun k =>
    dumpRow (UInt16.ofNat (start + 16 * k)) (m.stride start (start + n) k)

theorem toList_dump (m : Memory) (address : UInt16) (count : Nat) : (m.dump address count).toList =
    (m.rows address.toNat (min count (65536 - address.toNat))).flatMap (· ++ ['\n']) := by
  rw [dump, dumpEnd_eq, dumpLines_eq, Nat.add_sub_cancel_left, String.toList_join, List.flatMap_map,
    rows, List.flatMap_map]
  exact List.flatMap_congr fun k _ => toList_dumpLine _ (length_stride_le _ _ _ _)

theorem lines_dump (m : Memory) (address : UInt16) (count : Nat) :
    Text.lines (m.dump address count).toList =
      m.rows address.toNat (min count (65536 - address.toNat)) := by
  rw [toList_dump]
  apply Text.lines_closed
  · intro row member
    obtain ⟨k, _, rfl⟩ := List.mem_map.mp member
    exact newline_not_mem_dumpRow _ _
  · intro row member
    obtain ⟨k, _, rfl⟩ := List.mem_map.mp member
    rw [getLast?_dumpRow]
    decide

/-- The rows are read back in their order as the bytes that they are made of. -/
theorem mapM_bytesOfRow_rows (m : Memory) (start n : Nat) :
    (m.rows start n).mapM bytesOfRow =
      .ok ((List.range ((n + 15) / 16)).map (m.stride start (start + n))) := by
  have one (k : Nat) : bytesOfRow (dumpRow (UInt16.ofNat (start + 16 * k))
      (m.stride start (start + n) k)) = pure (m.stride start (start + n) k) :=
    bytesOfRow_dumpRow _ (length_stride_le _ _ _ _)
  rw [rows, List.mapM_map, Function.comp_def]
  simp only [one]
  exact List.mapM_pure

theorem flatten_strides (m : Memory) (address : UInt16) (n : Nat) :
    ((List.range ((n + 15) / 16)).map (m.stride address.toNat (address.toNat + n))).flatten =
      m.readBytes address n := by
  have all : min (16 * ((n + 15) / 16)) n = n := by omega
  rw [← List.flatMap_def, flatMap_stride, all, UInt16.ofNat_toNat]

/-- A dump shows the bytes that were asked for, as far as there are any below the top of memory, and no
others. Each of its lines is closed and is the row of at most sixteen bytes; read back in their order
the rows give the bytes in theirs. -/
theorem dump_shows (m : Memory) (address : UInt16) (count : Nat) :
    let n := min count (65536 - address.toNat)
    let lines := Text.lines (m.dump address count).toList
    (m.dump address count).toList = lines.flatMap (· ++ ['\n']) ∧
    lines.length = (n + 15) / 16 ∧ lines.length ≤ 4096 ∧
    (∀ k (h : k < lines.length), Row (address.toNat + 16 * k)
      (m.readBytes (UInt16.ofNat (address.toNat + 16 * k)) (min 16 (n - 16 * k))) lines[k]) ∧
    ∃ read, lines.mapM bytesOfRow = .ok read ∧
      read.flatten = (List.range n).map fun i => m.read (UInt16.ofNat (address.toNat + i)) := by
  intro n lines
  have rows : lines = m.rows address.toNat n := m.lines_dump address count
  have length : lines.length = (n + 15) / 16 := by
    rw [rows, Memory.rows, List.length_map, List.length_range]
  have small : n ≤ 65536 := Nat.le_trans (Nat.min_le_right _ _) (Nat.sub_le _ _)
  refine ⟨rows ▸ m.toList_dump address count, length, by omega, ?row, ?read⟩
  case row =>
    intro k inside
    have place : (UInt16.ofNat (address.toNat + 16 * k)).toNat = address.toNat + 16 * k := by
      rw [UInt16.toNat_ofNat']
      omega
    have shown := row_dumpRow (UInt16.ofNat (address.toNat + 16 * k))
      (m.stride address.toNat (address.toNat + n) k)
    rw [place, stride, Nat.add_sub_add_left] at shown
    simpa only [rows, Memory.rows, List.getElem_map, List.getElem_range, stride,
      Nat.add_sub_add_left] using shown
  case read =>
    refine ⟨_, rows ▸ m.mapM_bytesOfRow_rows address.toNat n, ?_⟩
    rw [flatten_strides, readBytes_eq_map]
    simp only [UInt16.ofNat_add, UInt16.ofNat_toNat]

/-- Near the top of memory the largest dump is a row of the bytes that remain. -/
theorem dump_at_top :
    let lines := Text.lines (blank.dump 0xFFF8 0xFFFFFFFFFFFFFFFF).toList
    ∃ one : lines.length = 1, Row 0xFFF8 (List.replicate 8 0) lines[0] := by
  intro lines
  obtain ⟨_, length, _, row, _⟩ := dump_shows blank 0xFFF8 0xFFFFFFFFFFFFFFFF
  refine ⟨length, ?_⟩
  have shown := row 0 (length ▸ Nat.one_pos)
  have zeros : blank.readBytes (UInt16.ofNat ((0xFFF8 : UInt16).toNat + 16 * 0))
      (min 16 (min 0xFFFFFFFFFFFFFFFF (65536 - (0xFFF8 : UInt16).toNat) - 16 * 0)) =
        List.replicate 8 0 := by
    decide +kernel
  rw [zeros] at shown
  exact shown

end Sim6809.Memory
