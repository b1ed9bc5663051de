/-!
Why a tree or a node does not have the shape its rule asks for.
-/

namespace TreeShape

inductive Mismatch where
  /-- The kind of a node is not the root kind of its rule. -/
  | wrongKind (expected found : String)
  /-- No alternative of the rule accepts a node of this kind. -/
  | noAlternative (found : String)
  /-- A required child is not there; `found` is the kind of the child in its place. -/
  | missingChild (field : String) (found : Option String)
  /-- A node whose text is required carries none. -/
  | missingText (field : String)
  /-- Children are left over after the last item. -/
  | trailingChildren (count : Nat) (first : String)
  /-- A required field is empty. -/
  | missingValue (field : String)
  /-- A field that holds one or more elements holds none. -/
  | emptyCollection (field : String)
  /-- A field holds a value of another sort. -/
  | wrongValue (field expected : String)
  /-- A node has another number of fields than its rule. -/
  | arity (expected found : Nat)
  /-- A field does not have the name its rule gives to that position. -/
  | unexpectedField (expected found : String)
  /-- A node names no rule, or one that is only a choice between others. -/
  | notSerializable
deriving Repr, DecidableEq

namespace Mismatch

def message : Mismatch → String
  | wrongKind expected found => s!"expected a `{expected}` node, found `{found}`"
  | noAlternative found => s!"no alternative accepts a `{found}` node"
  | missingChild field found =>
    let place := found.getD "end of children"
    s!"required `{field}` is missing (found {place})"
  | missingText field => s!"required text for `{field}` is missing"
  | trailingChildren count first => s!"{count} trailing child(ren) starting at `{first}`"
  | missingValue field => s!"required `{field}` has no value"
  | emptyCollection field => s!"`{field}` needs at least one element"
  | wrongValue field expected => s!"`{field}` expects {expected}"
  | arity expected found => s!"expected {expected} field(s), found {found}"
  | unexpectedField expected found => s!"expected field `{expected}`, found `{found}`"
  | notSerializable => "rule has no concrete shape to serialize"

end Mismatch

/-- A mismatch and the name of the rule whose shape is not met. -/
structure ShapeMismatch where
  rule : String
  reason : Mismatch
deriving Repr, DecidableEq

def ShapeMismatch.message (m : ShapeMismatch) : String :=
  s!"shape mismatch in `{m.rule}`: {m.reason.message}"

end TreeShape
