import TreeShape.Text.Alphanumeric
import TreeShape.Text.Split
import TreeShape.Text.Uppercase

/-!
The words of a name, whichever way it joins them: `out-dir`, `out_dir`, `outDir` and `OUT DIR` are
made of the same two words. What is neither a letter nor a number divides words, and so does a
capital after a small letter. In a run of capitals that a small letter follows, the last capital
belongs to the next word.
-/

namespace TreeShape.Text

/-- The small form of a character, where it is an ASCII letter. Beyond ASCII, only the Kelvin sign
has such a form. -/
def smallForm (c : Char) : Char :=
  if c = '\u212a' then 'k' else c.toLower

/-- The last letter of a word so far that has a case. -/
inductive LetterCase where
  | none
  | small
  | capital
deriving Repr, DecidableEq

def LetterCase.after (last : LetterCase) (c : Char) : LetterCase :=
  if c.isLower then small else if isUppercase c then capital else last

/-- Divides letters and numbers into words. The word that has been begun is passed in reverse. -/
def splitWords (last : LetterCase) (begun : List Char) : List Char → List (List Char)
  | [] => if begun.isEmpty then [] else [begun.reverse]
  | [c] => [(c :: begun).reverse]
  | c :: next :: rest =>
    if last.after c = .small ∧ isUppercase next then
      (c :: begun).reverse :: splitWords .none [] (next :: rest)
    else if last = .capital ∧ isUppercase c ∧ next.isLower then
      begun.reverse :: splitWords .none [c] (next :: rest)
    else splitWords (last.after c) (c :: begun) (next :: rest)

/-- The pieces between characters that are neither letters nor numbers, none of them empty. -/
def alphanumericPieces (cs : List Char) : List (List Char) :=
  (splitAtMarks (fun c => !isAlphanumeric c) cs).filter fun piece => !piece.isEmpty

/-- The words of a name in small letters. -/
def words (name : String) : List String :=
  ((alphanumericPieces name.toList).flatMap (splitWords .none [])).map fun word =>
    String.ofList (word.map smallForm)

end TreeShape.Text
