import TreeShape.Ancestry
import TreeShape.Schema.Warning
import TreeShape.Shapes.Plan

/-!
Shapes: a checked schema with its ancestry and one plan for each rule.
-/

namespace TreeShape

structure Shapes where
  schema : Schema
  ancestry : Ancestry
  plans : List (Plan schema.rules.length)
  length_plans : plans.length = schema.rules.length

namespace Schema

/-- The position of the first rule called `name` in a list. -/
def positionIn (name : String) : (rules : List Rule) → Option (Fin rules.length)
  | [] => none
  | rule :: rest =>
    if rule.name = name then some ⟨0, Nat.succ_pos _⟩ else (positionIn name rest).map Fin.succ

def position? (schema : Schema) (name : String) : Option (Fin schema.rules.length) :=
  positionIn name schema.rules

end Schema

variable {n : Nat}

/-- The position that a name resolves to, or else the fault. -/
def resolveName (position? : String → Option (Fin n)) (name : String) (fault : Fault) :
    Except Fault (Fin n) :=
  match position? name with
  | some position => .ok position
  | none => .error fault

def Item.lower (position? : String → Option (Fin n)) (rule : String) (item : Item) :
    Except Fault (Step n) :=
  match item.target with
  | .text => .ok (.text item.field (item.quantifier == .optional))
  | .token kind => .ok (.child item.field (.token kind) item.quantifier)
  | .rule name => do
    let position ← resolveName position? name (.unknownReference rule item.field name)
    return .child item.field (.rule position) item.quantifier

def Rule.lower (position? : String → Option (Fin n)) (rule : Rule) : Except Fault (Plan n) :=
  match rule.form with
  | .alternatives names => do
    return .choice (← names.mapM fun name =>
      resolveName position? name (.unknownAlternative rule.name name))
  | .leaf body =>
    if body.delegates then do
      let fault := Fault.unknownReference rule.name innerField body.root
      return .delegate (← resolveName position? body.root fault)
    else do
      return .shape body.root (← body.items.mapM (·.lower position? rule.name))

/-- The plans of some rules, one for each. -/
def lowerRules (position? : String → Option (Fin n)) :
    (rules : List Rule) → Except Fault { plans : List (Plan n) // plans.length = rules.length }
  | [] => .ok ⟨[], rfl⟩
  | rule :: rest => do
    let plan ← rule.lower position?
    let ⟨plans, h⟩ ← lowerRules position? rest
    return ⟨plan :: plans, congrArg (· + 1) h⟩

namespace Shapes

def compile (schema : Schema) : Except Fault Shapes := do
  schema.check
  let ancestry ← Ancestry.resolve schema.rules
  let ⟨plans, h⟩ ← lowerRules schema.position? schema.rules
  return ⟨schema, ancestry, plans, h⟩

/-- An entry for each rule, then one for the package. -/
def compiledLog (s : Shapes) : List LogEntry :=
  let package := ".".intercalate s.schema.package
  s.schema.rules.map (fun rule => ⟨.debug, s!"compiled rule '{rule.name}'"⟩) ++
    [⟨.info, s!"compiled {s.plans.length} rule(s) for package '{package}'"⟩]

/-- Compiles a schema and tells what was warned of and what was compiled. -/
def compileLogged (schema : Schema) : Logged Fault Shapes :=
  match compile schema with
  | .error fault => ⟨schema.validate.log, .error fault⟩
  | .ok s => ⟨schema.validate.log ++ s.compiledLog, .ok s⟩

variable (s : Shapes)

abbrev size : Nat := s.schema.rules.length

/-- Rules are known by their position. -/
abbrev Id : Type := Fin s.size

def plan (id : s.Id) : Plan s.size :=
  s.plans.get (id.cast s.length_plans.symm)

def rule (id : s.Id) : Rule :=
  s.schema.rules.get id

def name (id : s.Id) : String :=
  (s.rule id).name

/-- The rule called `name`. -/
def find? (name : String) : Option s.Id :=
  s.schema.position? name

/-- All rules in the order of declaration. -/
def ids : List s.Id :=
  List.finRange s.size

def implements (rule capability : String) : Bool :=
  s.ancestry.implements rule capability

end Shapes
end TreeShape
