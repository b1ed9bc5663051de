/-!
What can be wrong with a schema.
-/

namespace TreeShape

/-- How the flags of an item contradict its quantifier. -/
inductive SlotConflict where
  | collectionOfOne
  | singleOfMany
  | optionalButRequired
  | requiredButOptional
deriving Repr, DecidableEq

def SlotConflict.message : SlotConflict → String
  | collectionOfOne => "is a collection but its quantifier does not repeat"
  | singleOfMany => "is not a collection but its quantifier repeats"
  | optionalButRequired => "is optional but its quantifier is not '?'"
  | requiredButOptional => "is required but its quantifier is '?'"

inductive Fault where
  | duplicateRule (name : String)
  | invalidRuleName (name : String)
  | invalidFieldName (rule field : String)
  | invalidTokenKind (rule kind : String)
  | duplicateField (rule field : String)
  | unknownAlternative (rule name : String)
  | unknownReference (rule field name : String)
  | unknownDelegate (rule name : String)
  | delegateWithItems (rule : String)
  | multipleTextCaptures (rule : String)
  | invalidTextQuantifier (rule field : String)
  | slotMismatch (rule field : String) (conflict : SlotConflict)
  /-- Rules that hand on to one another in a circle; the last name is the first again. -/
  | cycle (path : List String)
deriving Repr, DecidableEq

def Fault.message : Fault → String
  | duplicateRule name => s!"duplicate rule '{name}'"
  | invalidRuleName name =>
    s!"invalid rule name '{name}': rule names must be identifiers starting with a lowercase letter"
  | invalidFieldName rule field => s!"invalid field name '{field}' in rule '{rule}'"
  | invalidTokenKind rule kind => s!"invalid token kind '{kind}' in rule '{rule}'"
  | duplicateField rule field => s!"duplicate field '{field}' in rule '{rule}'"
  | unknownAlternative rule name => s!"undefined alternative '{name}' listed by rule '{rule}'"
  | unknownReference rule field name =>
    s!"undefined rule '{name}' referenced by field '{field}' of rule '{rule}'"
  | unknownDelegate rule name => s!"undefined rule '{name}' delegated to by rule '{rule}'"
  | delegateWithItems rule => s!"rule '{rule}' delegates to another rule and cannot have items"
  | multipleTextCaptures rule => s!"rule '{rule}' captures text more than once"
  | invalidTextQuantifier rule field => s!"text field '{field}' of rule '{rule}' cannot repeat"
  | slotMismatch rule field conflict => s!"field '{field}' of rule '{rule}' {conflict.message}"
  | cycle path => "rule cycle: " ++ " -> ".intercalate path

end TreeShape
