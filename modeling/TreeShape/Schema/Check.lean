import TreeShape.Schema.Cycle

/-!
The check of a schema, which stops at the first fault: first the names of all rules, then each rule
in turn, then the search for circles.
-/

namespace TreeShape

def isRuleName (name : String) : Bool :=
  Text.isIdentifier name && !Text.startsUppercase name

/-- Kinds are named as constants of the token vocabulary, where `Self` is taken. -/
def isTokenKind (kind : String) : Bool :=
  Text.isIdentifier kind && kind != "Self"

/-- Names are checked against the ones `seen` before them. -/
def checkNames (seen : List String) : List Rule → Except Fault Unit
  | [] => .ok ()
  | rule :: rest =>
    if !isRuleName rule.name then .error (.invalidRuleName rule.name)
    else if seen.contains rule.name then .error (.duplicateRule rule.name)
    else checkNames (rule.name :: seen) rest

def checkAlternatives (known : List String) (rule : String) : List String → Except Fault Unit
  | [] => .ok ()
  | name :: rest =>
    if known.contains name then checkAlternatives known rule rest
    else .error (.unknownAlternative rule name)

/-- Whether an item captures text, at most once in a body, decides if the next one may. -/
def checkTarget (known : List String) (rule : String) (captured : Bool) (item : Item) :
    Except Fault Unit :=
  match item.target with
  | .rule name =>
    if known.contains name then .ok () else .error (.unknownReference rule item.field name)
  | .token kind => if isTokenKind kind then .ok () else .error (.invalidTokenKind rule kind)
  | .text =>
    if captured then .error (.multipleTextCaptures rule)
    else if item.quantifier.repeats then .error (.invalidTextQuantifier rule item.field)
    else .ok ()

def Item.conflict? (item : Item) : Option SlotConflict :=
  if item.repeated != item.quantifier.repeats then
    some (if item.repeated then .collectionOfOne else .singleOfMany)
  else if !item.repeated && item.optional != (item.quantifier == .optional) then
    some (if item.optional then .optionalButRequired else .requiredButOptional)
  else none

def checkFlags (rule : String) (item : Item) : Except Fault Unit :=
  match item.conflict? with
  | some conflict => .error (.slotMismatch rule item.field conflict)
  | none => .ok ()

/-- Items are checked against the fields before them, and against whether one of those captured
text. -/
def checkItems (known : List String) (rule : String) (fields : List String) (captured : Bool) :
    List Item → Except Fault Unit
  | [] => .ok ()
  | item :: rest =>
    if !Text.isIdentifier item.field then .error (.invalidFieldName rule item.field)
    else if fields.contains item.field then .error (.duplicateField rule item.field)
    else do
      checkTarget known rule captured item
      checkFlags rule item
      checkItems known rule (item.field :: fields) (captured || item.target == .text) rest

def checkBody (known : List String) (rule : String) (body : Body) : Except Fault Unit :=
  if body.delegates then
    if !known.contains body.root then .error (.unknownDelegate rule body.root)
    else if !body.items.isEmpty then .error (.delegateWithItems rule)
    else .ok ()
  else if !isTokenKind body.root then .error (.invalidTokenKind rule body.root)
  else checkItems known rule [] false body.items

def checkRule (known : List String) (rule : Rule) : Except Fault Unit :=
  match rule.form with
  | .leaf body => checkBody known rule.name body
  | .alternatives names => checkAlternatives known rule.name names

def checkRules (known : List String) : List Rule → Except Fault Unit
  | [] => .ok ()
  | rule :: rest => do
    checkRule known rule
    checkRules known rest

/-- Succeeds on the schemas that are well formed. -/
def Schema.check (schema : Schema) : Except Fault Unit := do
  checkNames [] schema.rules
  checkRules schema.names schema.rules
  schema.checkCycles

end TreeShape
