import TreeShape.Code.Naming
import TreeShape.Shapes.Basic

/-!
Clashes: different names of a schema that generated code would use one identifier for.
-/

namespace TreeShape.Code

inductive Clash where
  | rules (first second name : String)
  | fields (rule first second name : String)
deriving Repr, DecidableEq

def Clash.message : Clash → String
  | rules first second name => s!"rules `{first}` and `{second}` both generate `{name}`"
  | fields rule first second name =>
    s!"fields `{first}` and `{second}` of rule `{rule}` both generate `{name}`"

def parserUnit : String := "parser"

def modUnit : String := "mod"

/-- Gives an identifier to an owner, unless it has one; then that one is the error. -/
def claim (claimed : List (String × String)) (name owner : String) :
    Except String (List (String × String)) :=
  match claimed.lookup name with
  | some first => .error first
  | none => .ok ((name, owner) :: claimed)

def checkFieldNames (rule : String) (idents locals : List (String × String)) :
    List String → Except Clash Unit
  | [] => .ok ()
  | field :: rest => do
    let clash (name first : String) := Clash.fields rule first field name
    let idents ← (claim idents (fieldIdent field) field).mapError (clash (fieldIdent field))
    let locals ← (claim locals (localIdent field) field).mapError (clash (localIdent field))
    checkFieldNames rule idents locals rest

/-- Two fields of a shape may not meet. Other rules name no fields. -/
def checkPlanNames {n : Nat} (rule : String) : Plan n → Except Clash Unit
  | .shape _ steps => checkFieldNames rule [] [] (steps.map (·.field))
  | .delegate _ | .choice _ => .ok ()

def checkUnitName (rule : String) : Except Clash Unit :=
  if unitName rule = parserUnit ∨ unitName rule = modUnit then
    .error (.rules (unitName rule) rule (unitName rule ++ ".rs"))
  else .ok ()

def checkRuleNames (s : Shapes) (units types : List (String × String)) :
    List s.Id → Except Clash Unit
  | [] => .ok ()
  | id :: rest => do
    let rule := s.name id
    let clash (name first : String) := Clash.rules first rule name
    checkUnitName rule
    let units ← (claim units (unitName rule) rule).mapError (clash (unitName rule))
    let types ← (claim types (typeIdent rule) rule).mapError (clash (typeIdent rule))
    checkPlanNames rule (s.plan id)
    checkRuleNames s units types rest

/-- Succeeds when no two names meet, and no file of a rule is one of the package's own. -/
def checkClashes (s : Shapes) : Except Clash Unit :=
  checkRuleNames s [] [] s.ids

end TreeShape.Code
