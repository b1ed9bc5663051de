/-!
Splitting text at marks.
-/

namespace TreeShape.Text

/-- What stands between the marks, which is one piece more than there are marks. -/
def splitAtMarks (isMark : Char → Bool) : List Char → List (List Char)
  | [] => [[]]
  | c :: rest =>
    match splitAtMarks isMark rest with
    | [] => [[c]]
    | piece :: pieces => if isMark c then [] :: piece :: pieces else (c :: piece) :: pieces

end TreeShape.Text
