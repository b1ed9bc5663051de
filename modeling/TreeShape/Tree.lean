import TreeShape.Text.Quoted

/-!
Untyped syntax trees: what shapes are matched against and what they are written back to.
-/

namespace TreeShape

/-- A node: a kind, literal text if it carries any, and its children in order. -/
structure Tree where
  kind : String
  text : Option String
  children : List Tree
deriving Repr, Inhabited

namespace Tree

def leaf (kind : String) : Tree :=
  ⟨kind, none, []⟩

def withText (kind text : String) : Tree :=
  ⟨kind, some text, []⟩

/-- Appends a child after the others. -/
def push (tree child : Tree) : Tree :=
  { tree with children := tree.children ++ [child] }

def setText (tree : Tree) (text : Option String) : Tree :=
  { tree with text }

def is (tree : Tree) (kind : String) : Bool :=
  tree.kind == kind

mutual

def decEq : (a b : Tree) → Decidable (a = b)
  | ⟨kind, text, children⟩, ⟨kind', text', children'⟩ =>
    if hk : kind = kind' then
      if ht : text = text' then
        match decEqAll children children' with
        | isTrue hc => isTrue (by rw [hk, ht, hc])
        | isFalse hc => isFalse fun h => hc (Tree.mk.inj h).2.2
      else isFalse fun h => ht (Tree.mk.inj h).2.1
    else isFalse fun h => hk (Tree.mk.inj h).1

def decEqAll : (as bs : List Tree) → Decidable (as = bs)
  | [], [] => isTrue rfl
  | a :: as, b :: bs =>
    match decEq a b with
    | isTrue ha =>
      match decEqAll as bs with
      | isTrue hs => isTrue (by rw [ha, hs])
      | isFalse hs => isFalse fun h => hs (List.cons.inj h).2
    | isFalse ha => isFalse fun h => ha (List.cons.inj h).1
  | [], _ :: _ | _ :: _, [] => isFalse nofun

end

instance : DecidableEq Tree := decEq

mutual

/-- The kind, then the quoted text if there is any, then the children in parentheses if there are
any. -/
def display : Tree → List Char
  | ⟨kind, text, children⟩ =>
    kind.toList ++ text.elim [] (Text.quoteChars ·.toList) ++
      match children with
      | [] => []
      | child :: rest => '(' :: display child ++ displayRest rest

/-- What follows the first child: the others, each after a comma, and the closing parenthesis. -/
def displayRest : List Tree → List Char
  | [] => [')']
  | child :: rest => ',' :: ' ' :: display child ++ displayRest rest

end

instance : ToString Tree := ⟨fun tree => String.ofList tree.display⟩

end Tree
end TreeShape
