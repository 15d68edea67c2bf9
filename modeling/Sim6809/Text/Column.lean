/-!
Columns of fixed width, counted in characters.
-/
namespace Sim6809.Text

/-- The text filled up with blanks on its right to the given width; a wider text stays as it is. -/
def padRight (width : Nat) (text : String) : String :=
  text ++ String.ofList (List.replicate (width - text.length) ' ')

def cut (width : Nat) (text : String) : String := String.ofList (text.toList.take width)

def column (width : Nat) (text : String) : String := padRight width (cut width text)

theorem length_cut (width : Nat) (text : String) :
    (cut width text).length = min width text.length := by
  simp [cut, String.length_toList]

end Sim6809.Text
