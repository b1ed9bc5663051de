import TreeShape.Mismatch
import TreeShape.Tree

/-!
Taking values off the front of a list of children. Each function takes the children that remain
and gives a value with the children that remain after it. Whether a child is accepted is a test of
that child alone; reading an accepted child may still fail, and then the whole step fails.
-/

namespace TreeShape

/-- How the children of one item are told apart and read. -/
structure Intake (α β : Type) where
  kind : α → String
  accepts : α → Bool
  consume : α → Except ShapeMismatch β

namespace Intake

variable {α β : Type}

def missing (i : Intake α β) (rule field : String) (rest : List α) : ShapeMismatch :=
  ⟨rule, .missingChild field (rest.head?.map i.kind)⟩

/-- Exactly one child. -/
def takeOne (i : Intake α β) (rule field : String) : List α → Except ShapeMismatch (β × List α)
  | child :: rest =>
    if i.accepts child then do return (← i.consume child, rest)
    else .error (i.missing rule field (child :: rest))
  | [] => .error (i.missing rule field [])

/-- The next child, if it is accepted. -/
def takeOptional (i : Intake α β) : List α → Except ShapeMismatch (Option β × List α)
  | child :: rest =>
    if i.accepts child then do return (some (← i.consume child), rest)
    else .ok (none, child :: rest)
  | [] => .ok (none, [])

/-- The longest run of accepted children, which may be empty. -/
def takeMany (i : Intake α β) (rest : List α) : Except ShapeMismatch (List β × List α) := do
  return (← (rest.takeWhile i.accepts).mapM i.consume, rest.dropWhile i.accepts)

/-- The longest run of accepted children, which may not be empty. -/
def takeAtLeastOne (i : Intake α β) (rule field : String) (rest : List α) :
    Except ShapeMismatch (List β × List α) := do
  let (values, tail) ← i.takeMany rest
  if values.isEmpty then .error (i.missing rule field rest) else .ok (values, tail)

/-- No child may be left. -/
def finish (kind : α → String) (rule : String) : List α → Except ShapeMismatch Unit
  | [] => .ok ()
  | child :: rest => .error ⟨rule, .trailingChildren (rest.length + 1) (kind child)⟩

end Intake

/-- The text of a node that has to carry some. -/
def requireText (rule field : String) : Option String → Except ShapeMismatch String
  | some text => .ok text
  | none => .error ⟨rule, .missingText field⟩

def requireNonEmpty {α : Type} (rule field : String) (values : List α) :
    Except ShapeMismatch (List α) :=
  if values.isEmpty then .error ⟨rule, .emptyCollection field⟩ else .ok values

/-- How a mismatch describes the tokens of one kind. -/
def tokenSort (kind : String) : String := s!"a `{kind}` token"

def expectToken (rule field kind : String) (token : Tree) : Except ShapeMismatch Tree :=
  if token.is kind then .ok token else .error ⟨rule, .wrongValue field (tokenSort kind)⟩

end TreeShape
