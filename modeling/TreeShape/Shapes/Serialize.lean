import TreeShape.Children
import TreeShape.Node
import TreeShape.Shapes.Basic

/-!
Writing nodes back as trees. Any node can be asked for its tree, however it was made, so every field
is checked against the plan of its rule.
-/

namespace TreeShape.Shapes

variable (s : Shapes)

/-- How a mismatch describes the elements that a step takes. -/
def elementSort : Accept s.size → String
  | .token kind => tokenSort kind
  | .rule id => s!"a `{s.name id}` node"

def checkArity (rule : String) (expected : Nat) (fields : List Field) :
    Except ShapeMismatch Unit :=
  if fields.length = expected then .ok ()
  else .error ⟨rule, .arity expected fields.length⟩

def checkField (rule expected found : String) : Except ShapeMismatch Unit :=
  if found = expected then .ok () else .error ⟨rule, .unexpectedField expected found⟩

mutual

/-- The tree of a node. -/
def serialize : Node → Except ShapeMismatch Tree
  | ⟨rule, fields⟩ =>
    match (s.find? rule).map s.plan with
    | none | some (.choice _) => .error ⟨rule, .notSerializable⟩
    | some (.delegate target) => do
      checkArity rule 1 fields
      serializeInner rule target fields
    | some (.shape root steps) => do
      checkArity rule steps.length fields
      serializeFields rule (.leaf root) steps fields

/-- The tree of the node that a delegating rule wraps. -/
def serializeInner (rule : String) (target : s.Id) : List Field → Except ShapeMismatch Tree
  | [] => .error ⟨rule, .missingValue innerField⟩
  | ⟨name, value⟩ :: _ => do
    checkField rule innerField name
    match value with
    | .one element => serializeElement rule innerField (.rule target) element
    | .empty | .many _ => .error ⟨rule, .missingValue innerField⟩

/-- Adds what each field stands for to the tree, in order. -/
def serializeFields (rule : String) (tree : Tree) :
    List (Step s.size) → List Field → Except ShapeMismatch Tree
  | step :: steps, ⟨name, value⟩ :: fields => do
    checkField rule step.field name
    serializeFields rule (← serializeValue rule tree step value) steps fields
  | [], _ | _ :: _, [] => .ok tree

def serializeValue (rule : String) (tree : Tree) :
    Step s.size → FieldValue → Except ShapeMismatch Tree
  | .text _ _, .one (.text text) => .ok (tree.setText (some text))
  | .text _ true, .empty => .ok tree
  | .text field false, .empty => .error ⟨rule, .missingValue field⟩
  | .text field _, .one _ | .text field _, .many _ => .error ⟨rule, .wrongValue field "text"⟩
  | .child field _ .one, .empty => .error ⟨rule, .missingValue field⟩
  | .child field _ .oneOrMore, .empty => .error ⟨rule, .emptyCollection field⟩
  | .child _ _ .optional, .empty | .child _ _ .zeroOrMore, .empty => .ok tree
  | .child field accept .one, .one element | .child field accept .optional, .one element => do
    return tree.push (← serializeElement rule field accept element)
  | .child field accept .zeroOrMore, .many elements =>
    serializeElements rule field accept tree elements
  | .child field accept .oneOrMore, .many elements => do
    let _ ← requireNonEmpty rule field elements
    serializeElements rule field accept tree elements
  | .child field _ _, .one _ => .error ⟨rule, .wrongValue field "a collection"⟩
  | .child field _ _, .many _ => .error ⟨rule, .wrongValue field "a single value"⟩

def serializeElements (rule field : String) (accept : Accept s.size) (tree : Tree) :
    List Element → Except ShapeMismatch Tree
  | [] => .ok tree
  | element :: rest => do
    let child ← serializeElement rule field accept element
    serializeElements rule field accept (tree.push child) rest

def serializeElement (rule field : String) :
    Accept s.size → Element → Except ShapeMismatch Tree
  | .token kind, .token token => expectToken rule field kind token
  | .rule id, .node node =>
    if s.implements node.rule (s.name id) then serialize node
    else .error ⟨rule, .wrongValue field (s.elementSort (.rule id))⟩
  | accept, _ => .error ⟨rule, .wrongValue field (s.elementSort accept)⟩

end

end TreeShape.Shapes
