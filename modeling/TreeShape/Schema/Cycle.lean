import TreeShape.Schema.Basic
import TreeShape.Schema.Fault

/-!
The search for a circle of rules that hand a node on to one another. It walks depth first through
alternatives and delegations, and does not enter a rule twice.
-/

namespace TreeShape

/-- The circle that is closed by coming back to `name`, given the way back from the last rule. -/
def closeCycle (path : List String) (name : String) : List String :=
  name :: (path.takeWhile (· != name)).reverse ++ [name]

/-- Walks on from `name`. The rules on the way to it are `path`, the nearest first; those that were
left without finding a circle are `done`, and the result adds the ones left now. No way through
distinct rules is longer than the bound. -/
def visit (next : String → List String) :
    Nat → (path done : List String) → (name : String) → Except (List String) (List String)
  | 0, _, done, _ => .ok done
  | bound + 1, path, done, name =>
    if done.contains name then .ok done
    else if path.contains name then .error (closeCycle path name)
    else do
      let done ← (next name).foldlM (visit next bound (name :: path)) done
      return name :: done

namespace Schema

/-- The rules that the rule called `name` hands on to. -/
def successors (schema : Schema) (name : String) : List String :=
  ((schema.rule? name).map (·.successors)).getD []

def checkCycles (schema : Schema) : Except Fault Unit :=
  match schema.names.foldlM (visit schema.successors (schema.rules.length + 1) []) [] with
  | .ok _ => .ok ()
  | .error path => .error (.cycle path)

end Schema
end TreeShape
