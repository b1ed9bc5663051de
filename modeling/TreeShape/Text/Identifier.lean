import TreeShape.Text.Uppercase

/-!
The two lexical classes of names: identifiers, and names that begin with a capital letter.
-/

namespace TreeShape.Text

def isIdentifierStart (c : Char) : Bool :=
  c.isAlpha || c == '_'

def isIdentifierPart (c : Char) : Bool :=
  c.isAlphanum || c == '_'

/-- A letter or underscore followed by letters, digits and underscores, all of them ASCII. -/
def isIdentifierChars : List Char → Bool
  | [] => false
  | c :: cs => isIdentifierStart c && cs.all isIdentifierPart

def isIdentifier (s : String) : Bool :=
  isIdentifierChars s.toList

def startsUppercase (s : String) : Bool :=
  s.toList.head?.any isUppercase

end TreeShape.Text
