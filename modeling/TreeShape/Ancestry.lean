import TreeShape.Schema.Check

/-!
Ancestry: which alternative rules a rule may stand in for, directly and through others.
-/

namespace TreeShape

/-- Pairs of a rule and an alternative rule that lists it, in the order of declaration. -/
structure Ancestry where
  links : List (String × String)
deriving Repr, DecidableEq

/-- The names that are not `seen` yet, each once. -/
def freshNames (seen : List String) : List String → List String
  | [] => []
  | name :: rest =>
    if seen.contains name then freshNames seen rest else name :: freshNames (name :: seen) rest

def checkAllAlternatives (known : List String) : List Rule → Except Fault Unit
  | [] => .ok ()
  | rule :: rest => do
    checkAlternatives known rule.name rule.alternatives
    checkAllAlternatives known rest

namespace Ancestry

/-- Fails at the first alternative that names no rule. -/
def resolve (rules : List Rule) : Except Fault Ancestry := do
  checkAllAlternatives (rules.map (·.name)) rules
  return ⟨rules.flatMap fun rule => rule.alternatives.map (·, rule.name)⟩

/-- The alternative rules that list `name`, once for each time they do. -/
def direct (ancestry : Ancestry) (name : String) : List String :=
  (ancestry.links.filter (·.1 == name)).map (·.2)

/-- Adds the ancestors at each next distance, for at most `bound` distances. -/
def closureWithin (ancestry : Ancestry) : Nat → (seen frontier : List String) → List String
  | 0, seen, _ => seen
  | bound + 1, seen, frontier =>
    match freshNames seen frontier with
    | [] => seen
    | fresh => ancestry.closureWithin bound (seen ++ fresh) (fresh.flatMap ancestry.direct)

/-- Every ancestor of `name`, each once, the nearest first. An ancestor is at no greater distance
than there are links. -/
def transitive (ancestry : Ancestry) (name : String) : List String :=
  ancestry.closureWithin ancestry.links.length [] (ancestry.direct name)

/-- Whether a value of `rule` may stand where `capability` is asked for. -/
def implements (ancestry : Ancestry) (rule capability : String) : Bool :=
  rule == capability || (ancestry.transitive rule).contains capability

end Ancestry
end TreeShape
