import TreeShape.Node
import TreeShape.Shapes.Basic

/-!
Making nodes from values, one for each field. The values are not checked against the rule; that is
left to writing the node.
-/

namespace TreeShape

inductive ConstructError where
  /-- A choice between rules has no nodes of its own. -/
  | notConstructible (rule : String)
  | arity (rule : String) (expected found : Nat)
deriving Repr, DecidableEq

def ConstructError.message : ConstructError → String
  | notConstructible rule => s!"rule '{rule}' has alternatives and cannot be constructed directly"
  | arity rule expected found => s!"rule '{rule}' takes {expected} value(s), got {found}"

namespace Shapes

variable (s : Shapes)

/-- The field of a step. A collection that is given no value is empty. -/
def fieldOf (step : Step s.size) : FieldValue → Field
  | .empty => ⟨step.field, if step.repeats then .many [] else .empty⟩
  | value => ⟨step.field, value⟩

def construct (id : s.Id) (values : List FieldValue) : Except ConstructError Node :=
  match s.plan id with
  | .choice _ => .error (.notConstructible (s.name id))
  | .delegate _ =>
    if values.length = 1 then .ok ⟨s.name id, values.map (⟨innerField, ·⟩)⟩
    else .error (.arity (s.name id) 1 values.length)
  | .shape _ steps =>
    if values.length = steps.length then .ok ⟨s.name id, List.zipWith s.fieldOf steps values⟩
    else .error (.arity (s.name id) steps.length values.length)

end Shapes
end TreeShape
