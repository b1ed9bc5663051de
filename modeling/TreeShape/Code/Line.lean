/-!
Source text as a list of lines. Blocks are marked where they open and close, and the depth of each
line follows from the marks before it.
-/

namespace TreeShape.Code

inductive Line where
  | plain (text : String)
  | blank
  /-- The lines after this one are one level deeper. -/
  | opening (text : String)
  /-- This line and those after it are one level less deep. -/
  | closing (text : String)
deriving Repr, DecidableEq

/-- A text at a depth of four spaces each; an empty one is not indented. -/
def indented (depth : Nat) (text : String) : String :=
  if text.isEmpty then "" else String.join (List.replicate depth "    ") ++ text

def layoutFrom (depth : Nat) : List Line → List String
  | [] => []
  | .plain text :: rest => indented depth text :: layoutFrom depth rest
  | .blank :: rest => "" :: layoutFrom depth rest
  | .opening text :: rest => indented depth text :: layoutFrom (depth + 1) rest
  | .closing text :: rest => indented (depth - 1) text :: layoutFrom (depth - 1) rest

/-- The text of a whole file, with a line feed after each line. -/
def layout (lines : List Line) : String :=
  String.join ((layoutFrom 0 lines).map (· ++ "\n"))

def header (summary : String) : List Line :=
  [.plain s!"//! {summary}", .plain "//!", .plain "//! Generated by graft. Do not edit.", .blank]

end TreeShape.Code
