import Sim6809.Listing.Syntax
import Sim6809.Monitor
import Sim6809.Proofs.Listing.OwnBytes
import Sim6809.Proofs.Listing.Symbols
import Sim6809.Proofs.Text.Column
import Sim6809.Proofs.Text.Hex

/-!
The columns of a listing. No operation has more bytes than their column holds, and no label has a blank in
it, so every part of a line stands where a reader looks for it: the address and the bytes are read back
from the line, whatever the memory holds and whatever map the labels come from.
-/
namespace Sim6809

/-! ### Labels -/

theorem Symbol.Stripped.isSuffix {heads : List (List Char)} {label rest : List Char}
    (h : Stripped heads label rest) : rest <:+ label := by
  induction h with
  | done => exact List.suffix_rfl
  | dropped _ ih => exact ih.trans (List.suffix_append _ _)
  | kept _ _ ih => exact ih

/-- The labels of a map are parts of fields, which have no blanks in them. -/
theorem SymbolTable.label_unbroken (text : List Char) (address : UInt16) :
    ∀ c ∈ ((parse text).label address).toList, Text.isBlank c = false := by
  have indexed : (parse text).Indexed := (ofList_spec _).2
  unfold label
  rw [indexed.lookup?, parse_symbols]
  cases found : ((Text.lines text).filterMap Symbol.ofDefinition?).find? (·.address = address) with
  | none => exact fun _ absent => absurd absent List.not_mem_nil
  | some symbol =>
      obtain ⟨line, _, defined⟩ := List.mem_filterMap.mp (List.mem_of_find?_eq_some found)
      obtain ⟨label, _, _, _, fields, stripped, _⟩ :=
        (Symbol.ofDefinition?_eq_some_iff.mp defined).fields
      have member : label ∈ Text.fields line := by
        rw [fields]
        exact List.mem_cons_of_mem _ List.mem_cons_self
      have word : Text.IsWord label := Text.isWord_of_mem_fields member
      exact fun c member => word.unbroken c (stripped.isSuffix.subset member)

theorem Instruction.isWord_mnemonic (i : Instruction) : Text.IsWord i.mnemonic.toList := by
  cases i with
  | byteOp op acc => cases op <;> cases acc <;> exact Text.isWord_of_all (by decide)
  | unary op acc => cases op <;> cases acc <;> exact Text.isWord_of_all (by decide)
  | load acc | store acc | test acc => cases acc <;> exact Text.isWord_of_all (by decide)
  | compareWord r | loadWord r | storeWord r | loadAddress r =>
      cases r <;> exact Text.isWord_of_all (by decide)
  | modify op => cases op <;> exact Text.isWord_of_all (by decide)
  | branch condition | longBranch condition =>
      cases condition <;> exact Text.isWord_of_all (by decide)
  | push stack | pull stack => cases stack <;> exact Text.isWord_of_all (by decide)
  | _ => exact Text.isWord_of_all (by decide)

namespace Operation

variable {op : Operation}

theorem isWord_mnemonic (op : Operation) : Text.IsWord op.mnemonic.toList := by
  unfold mnemonic
  split
  · exact Text.isWord_of_all (by decide)
  · exact op.instruction.isWord_mnemonic

/-! ### The parts of a line -/

/-- How a line shows an operation. -/
structure LaidOut (op : Operation) (line : List Char) : Prop where
  offset : Hex.Shows 4 op.offset.toNat (line.take 4)
  /-- A pair of digits for each byte, which the column has room for. -/
  bytes : ∃ pairs, List.Forall₂ (fun (b : UInt8) pair => Hex.Shows 2 b.toNat pair) op.bytes pairs ∧
    ([' '].intercalate pairs).length ≤ 14 ∧
    (line.drop 6).take 14 = ([' '].intercalate pairs).takeD 14 ' '
  gaps : (line.drop 4).take 2 = [' ', ' '] ∧ (line.drop 20).take 2 = [' ', ' ']
  unlabelled : op.label = "" → op.mnemonic.toList <+: line.drop 22
  labelled : op.label ≠ "" → (op.label ++ ": " ++ op.mnemonic).toList <+: line.drop 22
  /-- Neither of the two goes on behind the blank that ends it. -/
  words : (if op.label = "" then [op.mnemonic.toList]
    else [(op.label ++ ":").toList, op.mnemonic.toList]) <+: Text.fields (line.drop 22)

/-- The digits of the bytes, with blanks between the pairs. -/
def pairsText (op : Operation) : List Char := [' '].intercalate (op.bytes.map Hex.byteChars)

/-- A line up to its mnemonic. -/
def front (op : Operation) : List Char :=
  (Hex.word op.offset).toList ++ ([' ', ' '] ++ (op.pairsText.takeD 14 ' ' ++
    ([' ', ' '] ++ (op.labelText.toList ++ op.mnemonic.toList))))

/-- What follows the mnemonic before the line is trimmed. -/
def rear (op : Operation) : List Char :=
  List.replicate (5 - op.mnemonic.length) ' ' ++ ' ' :: op.operandText.toList

theorem length_pairsText (op : Operation) : op.pairsText.length = 3 * op.bytes.length - 1 := by
  unfold pairsText
  cases op.bytes with
  | nil => rfl
  | cons b bytes =>
      have joined := congrArg List.length
        (Text.cons_intercalate (Hex.byteChars b) (bytes.map Hex.byteChars))
      rw [← List.map_cons, Hex.length_pairs, List.length_cons] at joined
      omega

theorem pairsText_eq (op : Operation) :
    (" ".intercalate (op.bytes.map Hex.byte)).toList = op.pairsText := by
  rw [String.toList_intercalate, List.map_map, pairsText]
  congr 1
  exact List.map_congr_left fun b _ => String.toList_ofList

theorem length_pairsText_le (short : op.bytes.length ≤ 5) : op.pairsText.length ≤ 14 := by
  rw [length_pairsText]
  omega

theorem paddedLine_eq (short : op.bytes.length ≤ 5) :
    op.paddedLine.toList = op.front ++ op.rear := by
  have fits : (" ".intercalate (op.bytes.map Hex.byte)).length ≤ bytesWidth := by
    rw [← String.length_toList, pairsText_eq]
    exact length_pairsText_le short
  unfold paddedLine front rear
  simp only [String.toList_append, Text.toList_padRight_of_le fits, Text.toList_padRight,
    pairsText_eq, List.append_assoc]
  rfl

/-- Trimming takes away nothing but blanks behind the mnemonic. -/
theorem line_eq (short : op.bytes.length ≤ 5) :
    op.line.toList = op.front ++ Text.trimEnd op.rear := by
  obtain ⟨before, last, word⟩ :=
    (List.eq_nil_or_concat op.mnemonic.toList).resolve_left op.isWord_mnemonic.nonempty
  have ends : op.front.getLast? = some last := by
    rw [front, word, List.concat_eq_append]
    simp only [← List.append_assoc]
    exact List.getLast?_concat
  have visible : Text.isBlank last = false :=
    op.isWord_mnemonic.unbroken last (by simp [word])
  rw [line, String.toList_ofList, paddedLine_eq short]
  exact Text.trimEnd_append ends visible

/-- Trimming loses none of the words behind the mnemonic. -/
theorem fields_word_trimEnd {word : List Char} (h : Text.IsWord word) (op : Operation) :
    Text.fields (word ++ Text.trimEnd op.rear) = word :: Text.fields op.rear := by
  have blank : Text.isBlank ' ' = true := by decide
  obtain ⟨blanks, whole, trimmed⟩ := Text.exists_trimmed op.rear
  have same : Text.fields op.rear = Text.fields (Text.trimEnd op.rear) := by
    conv_lhs => rw [whole]
    exact Text.fields_append_blanks trimmed _
  obtain ⟨behind, first⟩ : ∃ behind, op.rear = ' ' :: behind := by
    unfold rear
    cases 5 - op.mnemonic.length with
    | zero => exact ⟨_, rfl⟩
    | succ count => exact ⟨_, rfl⟩
  rw [same]
  cases left : Text.trimEnd op.rear with
  | nil => rw [List.append_nil, Text.fields_of_isWord h]; rfl
  | cons c rest =>
      rw [left, first] at whole
      obtain rfl : ' ' = c := (List.cons.inj whole).1
      rw [Text.fields_append_break blank, Text.fields_of_isWord h, Text.fields_cons_blank blank]
      rfl

theorem length_front (op : Operation) :
    op.front.length = 22 + op.labelText.length + op.mnemonic.length := by
  have offset := (Hex.shows_word op.offset).length
  simp only [front, List.length_append, List.length_cons, List.length_nil, List.takeD_length, offset,
    String.length_toList]
  omega

/-- The columns of a line that begins like that of an operation. -/
theorem columns_front (op : Operation) (rest : List Char) :
    let line := op.front ++ rest
    line.take 4 = (Hex.word op.offset).toList ∧ (line.drop 4).take 2 = [' ', ' '] ∧
      (line.drop 6).take 14 = op.pairsText.takeD 14 ' ' ∧ (line.drop 20).take 2 = [' ', ' '] ∧
      line.drop 22 = op.labelText.toList ++ (op.mnemonic.toList ++ rest) := by
  have offset := (Hex.shows_word op.offset).length
  have bytes : (op.pairsText.takeD 14 ' ').length = 14 := List.takeD_length _ _ _
  have drop (start : Nat) (line : List Char) : line.drop (4 + start) = (line.drop 4).drop start :=
    List.drop_drop.symm
  dsimp only [front]
  generalize op.pairsText.takeD 14 ' ' = column at bytes ⊢
  simp only [List.append_assoc]
  refine ⟨List.take_left' offset, ?_, ?_, ?_, ?_⟩
  · rw [List.drop_left' offset]
    rfl
  · rw [drop 2, List.drop_left' offset]
    exact Text.take_drop_append [' ', ' '] _ rfl bytes
  · rw [drop 16, List.drop_left' offset, ← List.append_assoc [' ', ' ']]
    exact Text.take_drop_append _ [' ', ' '] (by simp [bytes]) rfl
  · rw [drop 18, List.drop_left' offset, ← List.append_assoc [' ', ' '],
      ← List.append_assoc _ [' ', ' ']]
    exact List.drop_left' (by simp [bytes])

/-! ### The whole line -/

theorem laidOut_line (short : op.bytes.length ≤ 5)
    (unbroken : ∀ c ∈ op.label.toList, Text.isBlank c = false) : op.LaidOut op.line.toList := by
  obtain ⟨offset, gap, bytes, gap', named⟩ := op.columns_front (Text.trimEnd op.rear)
  rw [← line_eq short] at offset gap bytes gap' named
  have operand := fields_word_trimEnd op.isWord_mnemonic op
  constructor
  case offset =>
    rw [offset]
    exact Hex.shows_word op.offset
  case bytes =>
    exact ⟨op.bytes.map Hex.byteChars, Hex.forall₂_shows_byte op.bytes, length_pairsText_le short,
      bytes⟩
  case gaps => exact ⟨gap, gap'⟩
  case unlabelled =>
    intro bare
    rw [named, labelText, if_pos bare]
    exact List.prefix_append _ _
  case labelled =>
    intro labelled
    rw [named, labelText, if_neg labelled, ← List.append_assoc, ← String.toList_append]
    exact List.prefix_append _ _
  case words =>
    by_cases bare : op.label = ""
    · rw [named, labelText, if_pos bare, if_pos bare]
      change _ <+: Text.fields (op.mnemonic.toList ++ _)
      rw [operand]
      exact ⟨_, rfl⟩
    · have label : Text.IsWord (op.label ++ ":").toList := by
        rw [String.toList_append]
        refine ⟨by simp, ?_⟩
        intro c member
        rcases List.mem_append.mp member with within | colon
        · exact unbroken c within
        · obtain rfl : c = ':' := List.mem_singleton.mp colon
          decide
      have parts : (op.label ++ ": ").toList = (op.label ++ ":").toList ++ [' '] := by simp
      rw [named, labelText, if_neg bare, if_neg bare, parts, List.append_assoc,
        List.singleton_append, Text.fields_append_break (by decide), Text.fields_of_isWord label,
        operand]
      exact ⟨_, rfl⟩

/-- Reads the address back from a line. -/
def offsetOfLine (line : List Char) : Except NumberError UInt16 := Number.hexWord (line.take 4)

/-- Reads the bytes back from a line. -/
def bytesOfLine (line : List Char) : Except NumberError (List UInt8) :=
  Hex.readPairs ((line.drop 6).take 14)

theorem offsetOfLine_line (short : op.bytes.length ≤ 5) :
    offsetOfLine op.line.toList = .ok op.offset := by
  rw [offsetOfLine, line_eq short, (op.columns_front _).1]
  exact Hex.hexWord_word op.offset

theorem bytesOfLine_line (short : op.bytes.length ≤ 5) :
    bytesOfLine op.line.toList = .ok op.bytes := by
  rw [bytesOfLine, line_eq short, (op.columns_front _).2.2.1]
  exact Hex.readPairs_takeD (length_pairsText_le short)
    (Text.fields_intercalate Hex.isWord_of_mem_map_byteChars)

theorem length_bytes_decode_le (m : Memory) (symbols : SymbolTable) (address : UInt16) :
    (decode m symbols address).bytes.length ≤ 5 := by
  have bytes : (decode m symbols address).bytes = (read m address).bytes := rfl
  rw [bytes, read_bytes, Memory.length_readBytes]
  exact length_le_five

end Operation

open Operation (offsetOfLine bytesOfLine)

/-- Whatever is in memory and in the map, the line of a listing shows the operation in its columns, and
its address and its bytes are read back from it; trimming takes away blanks behind the mnemonic only. So
operations with different addresses or bytes have different lines, on whatever machines they are. -/
theorem Monitor.listing_line_read_back (m : Monitor) (map : List Char) (address : UInt16) :
    let op := (m.setSymbols (.parse map)).disassemble address
    op.offset = address ∧ op.LaidOut op.line.toList ∧
    offsetOfLine op.line.toList = .ok op.offset ∧ bytesOfLine op.line.toList = .ok op.bytes ∧
    (∃ blanks, op.paddedLine.toList = op.line.toList ++ blanks ∧
      (∀ c ∈ blanks, Text.isBlank c = true) ∧
      22 + op.labelText.length + op.mnemonic.length ≤ op.line.length) ∧
    ∀ (n : Monitor) (otherMap : List Char) (place : UInt16),
      let other := (n.setSymbols (.parse otherMap)).disassemble place
      other.line = op.line → other.offset = op.offset ∧ other.bytes = op.bytes := by
  intro op
  have short : op.bytes.length ≤ 5 := Operation.length_bytes_decode_le _ _ _
  have offset := Operation.offsetOfLine_line short
  have bytes := Operation.bytesOfLine_line short
  refine ⟨rfl, Operation.laidOut_line short (SymbolTable.label_unbroken map address), offset, bytes,
    ?trimmed, ?distinct⟩
  case trimmed =>
    obtain ⟨blanks, whole, blank⟩ := Text.exists_trimmed op.paddedLine.toList
    refine ⟨blanks, ?_, blank, ?_⟩
    · rwa [Operation.line, String.toList_ofList]
    · rw [← op.length_front, ← String.length_toList, Operation.line_eq short, List.length_append]
      exact Nat.le_add_right _ _
  case distinct =>
    intro n otherMap place other same
    have short' : other.bytes.length ≤ 5 := Operation.length_bytes_decode_le _ _ _
    have offset' := Operation.offsetOfLine_line short'
    have bytes' := Operation.bytesOfLine_line short'
    rw [same, offset] at offset'
    rw [same, bytes] at bytes'
    exact ⟨(Except.ok.inj offset').symm, (Except.ok.inj bytes').symm⟩

/-- A linker's map that gives a label to the long call at the top of memory. -/
def Monitor.callMap : List Char := "Symbol: .static.function.main main.c static FFFE".toList

theorem Monitor.callMap_label : (SymbolTable.parse callMap).label 0xFFFE = "main" := by
  have indexed : (SymbolTable.parse callMap).Indexed := (SymbolTable.ofList_spec _).2
  unfold SymbolTable.label
  rw [indexed.lookup?, SymbolTable.parse_symbols]
  decide +kernel

/-- The call is shown behind its label with the byte that wraps, and not as the zeros of a blank machine
at the same address. -/
theorem Monitor.wrappedCall_read_back :
    let op := (wrappedCall.setSymbols (.parse callMap)).disassemble 0xFFFE
    let zeros := (blank.setSymbols (.parse [])).disassemble 0xFFFE
    "main: LBSR".toList <+: op.line.toList.drop 22 ∧ offsetOfLine op.line.toList = .ok 0xFFFE ∧
      bytesOfLine op.line.toList = .ok [0x17, 0x00, 0x10] ∧ zeros.line ≠ op.line := by
  intro op zeros
  obtain ⟨_, laid, offset, bytes, _, distinct⟩ := listing_line_read_back wrappedCall callMap 0xFFFE
  have shown : op.bytes = [0x17, 0x00, 0x10] := by rfl
  have named : op.label = "main" := callMap_label
  have labelled : op.label ≠ "" := by
    rw [named]
    decide
  refine ⟨?_, offset, bytes.trans (congrArg _ shown), ?_⟩
  · have written : op.label ++ ": " ++ op.mnemonic = "main: LBSR" := by
      rw [named]
      rfl
    rw [← written]
    exact laid.labelled labelled
  · intro same
    have equal := (distinct blank [] 0xFFFE same).2
    rw [show op.bytes = _ from shown] at equal
    exact absurd equal (by decide +kernel)

end Sim6809
