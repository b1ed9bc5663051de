import TreeShape.Text.Split

/-!
Paths: names divided by slashes. An absolute path starts with one.
-/

namespace TreeShape

structure Path where
  text : String
deriving Repr, DecidableEq

namespace Path

def isAbsoluteText (text : String) : Bool :=
  text.toList.head? == some '/'

def isAbsolute (path : Path) : Bool :=
  isAbsoluteText path.text

/-- The path of a segment seen from a directory. An absolute segment stands for itself. -/
def join (path : Path) (segment : String) : Path :=
  if isAbsoluteText segment then ⟨segment⟩
  else if path.text.isEmpty || path.text.toList.getLast? == some '/' then ⟨path.text ++ segment⟩
  else ⟨path.text ++ "/" ++ segment⟩

def pieces (path : Path) : List String :=
  (Text.splitAtMarks (· == '/') path.text.toList).map String.ofList

/-- The pieces that lead elsewhere: neither empty nor a single dot. -/
def components (path : Path) : List String :=
  path.pieces.filter fun piece => piece != "" && piece != "."

/-- What is left of a list, the longest first, when its head is dropped again and again; without
the list itself and the empty one. -/
def properTails {α : Type} : List α → List (List α)
  | [] | [_] => []
  | _ :: a :: rest => (a :: rest) :: properTails (a :: rest)

/-- The directories on the way to a path, the nearest first, after the path itself. -/
def ancestors (path : Path) : List Path :=
  let root := if path.isAbsolute then "/" else ""
  path :: (properTails path.components.reverse).map fun rest =>
    ⟨root ++ "/".intercalate rest.reverse⟩

end Path
end TreeShape
