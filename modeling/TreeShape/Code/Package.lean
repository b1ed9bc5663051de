import TreeShape.Code.ParserUnit
import TreeShape.Code.RuleUnit

/-!
The generated package: one file for each rule, then the two files of the whole package.
-/

namespace TreeShape.Code

/-- A generated file, by its name without the extension. -/
structure SourceUnit where
  name : String
  contents : String
deriving Repr, DecidableEq

def ruleUnit (s : Shapes) (id : s.Id) : SourceUnit :=
  ⟨unitName (s.name id), layout (ruleLines s id)⟩

def units (s : Shapes) : List SourceUnit :=
  s.ids.map (ruleUnit s) ++ [⟨parserUnit, layout (parserLines s)⟩, ⟨modUnit, layout (modLines s)⟩]

/-- The units of a package in which no two names meet. -/
def emit (s : Shapes) : Except Clash (List SourceUnit) := do
  checkClashes s
  return units s

def emitLogged (s : Shapes) : Logged Clash (List SourceUnit) :=
  let rendered (id : s.Id) : LogEntry :=
    ⟨.debug, s!"rendered unit '{unitName (s.name id)}' for rule '{s.name id}'"⟩
  match emit s with
  | .ok files => ⟨s.ids.map rendered, .ok files⟩
  | .error clash => ⟨[], .error clash⟩

end TreeShape.Code
