import Mathlib.Data.List.TakeDrop
import Sim6809.Text.Blank
import Sim6809.Text.Column

/-!
What stands in the columns of a line. A column of fixed width holds its text, cut or filled up with
blanks, wherever the line goes on behind it; and trimming a line reaches no further than to its last
visible character.
-/
namespace Sim6809.Text

/-! ### Widths -/

theorem takeD_eq (width : Nat) (text : List Char) (filler : Char) : text.takeD width filler =
    text.take width ++ List.replicate (width - text.length) filler := by
  induction width generalizing text with
  | zero => simp
  | succ width ih =>
      cases text with
      | nil => simp [List.replicate_succ]
      | cons c text => simp [ih]

theorem toList_padRight (width : Nat) (text : String) : (padRight width text).toList =
    text.toList ++ List.replicate (width - text.length) ' ' := by
  rw [padRight, String.toList_append, String.toList_ofList]

theorem toList_padRight_of_le {width : Nat} {text : String} (fits : text.length ≤ width) :
    (padRight width text).toList = text.toList.takeD width ' ' := by
  rw [toList_padRight, takeD_eq, List.take_of_length_le (by rwa [String.length_toList]),
    String.length_toList]

/-- A column holds the beginning of its text, with blanks where the text is too short. -/
theorem toList_column (width : Nat) (text : String) :
    (column width text).toList = text.toList.takeD width ' ' := by
  rw [column, toList_padRight, takeD_eq, length_cut, cut, String.toList_ofList]
  congr 2
  rw [String.length_toList]
  omega

theorem take_drop_append (front middle : List Char) {back : List Char} {start width : Nat}
    (begins : front.length = start) (wide : middle.length = width) :
    ((front ++ (middle ++ back)).drop start).take width = middle := by
  rw [List.drop_left' begins, List.take_left' wide]

/-! ### Trimming -/

/-- Trimming takes away blanks only. -/
theorem exists_trimmed (text : List Char) :
    ∃ blanks, text = trimEnd text ++ blanks ∧ ∀ c ∈ blanks, isBlank c = true := by
  refine ⟨(text.reverse.takeWhile isBlank).reverse, ?_, ?_⟩
  · rw [trimEnd, ← List.reverse_append, List.takeWhile_append_dropWhile, List.reverse_reverse]
  · intro c member
    exact List.all_eq_true.mp List.all_takeWhile c (List.mem_reverse.mp member)

/-- Trimming does not reach what stands before a visible character. -/
theorem trimEnd_append {front back : List Char} {c : Char} (last : front.getLast? = some c)
    (visible : isBlank c = false) : trimEnd (front ++ back) = front ++ trimEnd back := by
  obtain ⟨before, rfl⟩ := List.getLast?_eq_some_iff.mp last
  have kept : (before ++ [c]).reverse.dropWhile isBlank = (before ++ [c]).reverse := by
    rw [List.reverse_append, List.reverse_singleton, List.singleton_append]
    exact List.dropWhile_cons_of_neg (by simp [visible])
  unfold trimEnd
  rw [List.reverse_append, List.dropWhile_append, kept]
  split
  · rename_i blank
    rw [List.isEmpty_iff.mp blank, List.reverse_reverse, List.reverse_nil, List.append_nil]
  · rw [List.reverse_append, List.reverse_reverse]

end Sim6809.Text
