/-! # Numbers in columns

A text is set right-aligned in a column by blanks on its left. The width is a minimum: a longer text
is never cut, so no digit is lost.
-/
namespace RecordIndex.Text

def padLeft (width : Nat) (text : String) : String :=
  String.ofList (text.toList.leftpad width ' ')

def column (width n : Nat) : String := padLeft width (toString n)

theorem toList_padLeft (width : Nat) (text : String) :
    (padLeft width text).toList =
      List.replicate (width - text.toList.length) ' ' ++ text.toList := by
  simp [padLeft, List.leftpad]

end RecordIndex.Text
