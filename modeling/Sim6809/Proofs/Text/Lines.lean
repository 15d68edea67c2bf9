import Mathlib.Data.List.Induction
import Sim6809.Text.Lines

/-!
Texts put together from parts. A break splits a text into what the two sides split into, so lines and
fields of a joined text are those of its parts.
-/
namespace Sim6809.Text

variable {p : Char → Bool} {c : Char}

theorem splitBy_ne_nil (p : Char → Bool) (text : List Char) : splitBy p text ≠ [] := by
  induction text with
  | nil => simp [splitBy]
  | cons c rest ih =>
      simp only [splitBy]
      split
      · simp
      · split <;> simp

theorem splitBy_append_break (breaks : p c = true) (before after : List Char) :
    splitBy p (before ++ c :: after) = splitBy p before ++ splitBy p after := by
  induction before with
  | nil => simp [splitBy, breaks]
  | cons d before ih =>
      simp only [List.cons_append, splitBy]
      by_cases first : p d = true
      · simp [first, ih]
      · obtain ⟨piece, pieces, parts⟩ := List.exists_cons_of_ne_nil (splitBy_ne_nil p before)
        simp [first, ih, parts]

/-- A text without a break is one piece. -/
theorem splitBy_of_unbroken {text : List Char} (unbroken : ∀ c ∈ text, p c = false) :
    splitBy p text = [text] := by
  induction text with
  | nil => rfl
  | cons c rest ih =>
      have whole := ih fun d later => unbroken d (List.mem_cons_of_mem c later)
      have first : ¬ p c = true := by simp [unbroken c List.mem_cons_self]
      rw [splitBy, if_neg first, whole]

theorem unbroken_of_mem_splitBy {text piece : List Char} (member : piece ∈ splitBy p text) :
    ∀ c ∈ piece, p c = false := by
  induction text generalizing piece with
  | nil =>
      obtain rfl := List.mem_singleton.mp member
      exact fun _ absent => absurd absent List.not_mem_nil
  | cons c rest ih =>
      simp only [splitBy] at member
      by_cases first : p c = true
      · rw [if_pos first] at member
        rcases List.mem_cons.mp member with rfl | later
        · exact fun _ absent => absurd absent List.not_mem_nil
        · exact ih later
      · obtain ⟨head, pieces, parts⟩ := List.exists_cons_of_ne_nil (splitBy_ne_nil p rest)
        rw [if_neg first, parts] at member
        rw [parts] at ih
        rcases List.mem_cons.mp member with rfl | later
        · intro d within
          rcases List.mem_cons.mp within with rfl | behind
          · exact Bool.eq_false_iff.mpr first
          · exact ih List.mem_cons_self d behind
        · exact ih (List.mem_cons_of_mem head later)

/-! ### Fields -/

/-- Some characters without a blank among them. -/
structure IsWord (text : List Char) : Prop where
  nonempty : text ≠ []
  unbroken : ∀ c ∈ text, isBlank c = false

/-- The form in which it is decided whether a given text is a word. -/
theorem isWord_of_all {text : List Char}
    (visible : (!text.isEmpty && text.all (!isBlank ·)) = true) : IsWord text := by
  obtain ⟨nonempty, all⟩ := (Bool.and_eq_true _ _).mp visible
  constructor
  case nonempty =>
    rintro rfl
    cases nonempty
  case unbroken =>
    intro c member
    exact (Bool.not_eq_true' _).mp (List.all_eq_true.mp all c member)

theorem isWord_of_mem_fields {text field : List Char} (member : field ∈ fields text) :
    IsWord field := by
  obtain ⟨piece, nonempty⟩ := List.mem_filter.mp member
  exact ⟨by simpa using nonempty, unbroken_of_mem_splitBy piece⟩

theorem fields_append_break (blank : isBlank c = true) (before after : List Char) :
    fields (before ++ c :: after) = fields before ++ fields after := by
  unfold fields
  rw [splitBy_append_break blank, List.filter_append]

theorem fields_append_blank (blank : isBlank c = true) (text : List Char) :
    fields (text ++ [c]) = fields text :=
  (fields_append_break blank text []).trans (List.append_nil _)

theorem fields_cons_blank (blank : isBlank c = true) (text : List Char) :
    fields (c :: text) = fields text :=
  fields_append_break blank [] text

theorem fields_of_isWord {word : List Char} (h : IsWord word) : fields word = [word] := by
  simp [fields, splitBy_of_unbroken h.unbroken, h.nonempty]

theorem fields_append_blanks {blanks : List Char} (blank : ∀ c ∈ blanks, isBlank c = true)
    (text : List Char) : fields (text ++ blanks) = fields text := by
  induction blanks using List.reverseRecOn with
  | nil => rw [List.append_nil]
  | append_singleton blanks c ih =>
      rw [← List.append_assoc, fields_append_blank (blank c (by simp))]
      exact ih fun d before => blank d (List.mem_append_left [c] before)

/-- Words with a blank in front of each are read back as they are. -/
theorem fields_flatMap_words {words : List (List Char)} (h : ∀ word ∈ words, IsWord word) :
    fields (words.flatMap (' ' :: ·)) = words := by
  have blank : isBlank ' ' = true := by decide
  induction words with
  | nil => rfl
  | cons word words ih =>
      have rest := ih fun other later => h other (List.mem_cons_of_mem word later)
      have first := fields_of_isWord (h word List.mem_cons_self)
      rw [List.flatMap_cons, List.cons_append, fields_cons_blank blank]
      cases words with
      | nil => rwa [List.flatMap_nil, List.append_nil]
      | cons next words =>
          rw [List.flatMap_cons, List.cons_append, fields_cons_blank blank] at rest
          rw [List.flatMap_cons, List.cons_append, fields_append_break blank, first, rest]
          rfl

theorem cons_intercalate (word : List Char) (words : List (List Char)) :
    ' ' :: [' '].intercalate (word :: words) = (word :: words).flatMap (' ' :: ·) := by
  induction words generalizing word with
  | nil => simp
  | cons next words ih =>
      rw [List.intercalate_cons_cons, List.flatMap_cons, ← ih next]
      simp

/-- Words with a blank between each two are read back as they are. -/
theorem fields_intercalate {words : List (List Char)} (h : ∀ word ∈ words, IsWord word) :
    fields ([' '].intercalate words) = words := by
  cases words with
  | nil => rfl
  | cons word words =>
      rw [← fields_cons_blank (show isBlank ' ' = true by decide), cons_intercalate]
      exact fields_flatMap_words h

theorem fields_dropReturn (line : List Char) : fields (dropReturn line) = fields line := by
  unfold dropReturn
  split
  · rename_i last
    obtain ⟨front, rfl⟩ := List.getLast?_eq_some_iff.mp last
    simp [fields_append_blank (show isBlank '\r' = true by decide)]
  · rfl

/-- A text without a carriage return begins a line if it begins the line without its ending. -/
theorem prefix_dropReturn_iff {head line : List Char} (plain : '\r' ∉ head) :
    head <+: dropReturn line ↔ head <+: line := by
  unfold dropReturn
  split
  · rename_i last
    obtain ⟨front, rfl⟩ := List.getLast?_eq_some_iff.mp last
    rw [List.dropLast_concat, List.prefix_concat_iff]
    constructor
    · exact .inr
    · rintro (rfl | within)
      · exact absurd (by simp) plain
      · exact within
  · rfl

/-! ### Lines -/

section Reading

variable {α : Type} {read : List Char → Option α}

/-- What is read neither off an empty line nor off the ending of one is read off the pieces between line
feeds. -/
theorem filterMap_linesOfPieces (empty : read [] = none)
    (ending : ∀ line, read (dropReturn line) = read line) (pieces : List (List Char)) :
    (linesOfPieces pieces).filterMap read = pieces.filterMap read := by
  induction pieces with
  | nil => rfl
  | cons piece pieces ih =>
      cases pieces with
      | nil => cases piece <;> simp [linesOfPieces, empty]
      | cons next rest => simp only [linesOfPieces, List.filterMap_cons, ending, ih]

theorem filterMap_lines_join (empty : read [] = none)
    (ending : ∀ line, read (dropReturn line) = read line) (text more : List Char) :
    (lines (text ++ '\n' :: more)).filterMap read =
      (lines text).filterMap read ++ (lines more).filterMap read := by
  simp only [lines, filterMap_linesOfPieces empty ending]
  rw [splitBy_append_break (by decide), List.filterMap_append]

end Reading

theorem splitBy_closed {rows : List (List Char)} (clean : ∀ row ∈ rows, '\n' ∉ row) :
    splitBy (· == '\n') (rows.flatMap (· ++ ['\n'])) = rows ++ [[]] := by
  induction rows with
  | nil => rfl
  | cons row rows ih =>
      have unbroken : ∀ c ∈ row, (c == '\n') = false := by
        intro c member
        have other : c ≠ '\n' := fun same => clean row List.mem_cons_self (same ▸ member)
        simpa using other
      rw [List.flatMap_cons, List.append_assoc, List.singleton_append,
        splitBy_append_break (by decide), splitBy_of_unbroken unbroken,
        ih fun other later => clean other (List.mem_cons_of_mem row later)]
      rfl

/-- Of pieces that all have an ending the lines are the pieces without it. -/
theorem linesOfPieces_closed (pieces : List (List Char)) :
    linesOfPieces (pieces ++ [[]]) = pieces.map dropReturn := by
  induction pieces with
  | nil => rfl
  | cons piece pieces ih =>
      obtain ⟨next, rest, more⟩ := List.exists_cons_of_ne_nil (l := pieces ++ [[]]) (by simp)
      rw [more] at ih
      rw [List.cons_append, more, linesOfPieces, ih, List.map_cons]
      exact nofun

/-- Rows without an ending of their own are the lines of the text in which each has got one. -/
theorem lines_closed {rows : List (List Char)} (clean : ∀ row ∈ rows, '\n' ∉ row)
    (unended : ∀ row ∈ rows, row.getLast? ≠ some '\r') :
    lines (rows.flatMap (· ++ ['\n'])) = rows := by
  have kept : rows.map dropReturn = rows.map id :=
    List.map_congr_left fun row member => if_neg (unended row member)
  rw [lines, splitBy_closed clean, linesOfPieces_closed, kept, List.map_id]

end Sim6809.Text
