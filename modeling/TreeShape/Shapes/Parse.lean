import TreeShape.Children
import TreeShape.Node
import TreeShape.Shapes.Basic

/-!
Reading trees. A rule accepts a node by its kind alone; reading one then matches its children
against the steps of the plan, without ever going back on a child it has taken.
-/

namespace TreeShape.Shapes

variable (s : Shapes)

/-- Whether a rule accepts nodes of a kind, found through at most `bound` rules. -/
def acceptsWithin (kind : String) : (bound : Nat) → s.Id → Bool
  | 0, _ => false
  | bound + 1, id =>
    match s.plan id with
    | .shape root _ => kind == root
    | .delegate target => acceptsWithin kind bound target
    | .choice alternatives => alternatives.any (acceptsWithin kind bound)

/-- Whether a rule accepts nodes of a kind. No rule hands on to itself, so a node is handed on
through no more rules than there are. -/
def accepts (id : s.Id) (kind : String) : Bool :=
  s.acceptsWithin kind s.size id

def canParse (id : s.Id) (tree : Tree) : Bool :=
  s.accepts id tree.kind

/-- A child, and what reading it by each rule gives. -/
structure Child where
  tree : Tree
  read : s.Id → Except ShapeMismatch Node

/-- How the children of a step are told apart and read. -/
def intake : Accept s.size → Intake s.Child Element
  | .token kind => ⟨(·.tree.kind), (·.tree.is kind), fun child => .ok (.token child.tree)⟩
  | .rule id => ⟨(·.tree.kind), (s.canParse id ·.tree), fun child => (child.read id).map .node⟩

/-- The value of one step, from the text of the node and the children that remain. -/
def takeStep (rule : String) (text : Option String) (rest : List s.Child) :
    Step s.size → Except ShapeMismatch (FieldValue × List s.Child)
  | .text _ true => .ok (.ofOption (text.map .text), rest)
  | .text field false => do return (.one (.text (← requireText rule field text)), rest)
  | .child field accept .one => do
    let (element, rest) ← (s.intake accept).takeOne rule field rest
    return (.one element, rest)
  | .child _ accept .optional => do
    let (element, rest) ← (s.intake accept).takeOptional rest
    return (.ofOption element, rest)
  | .child _ accept .zeroOrMore => do
    let (elements, rest) ← (s.intake accept).takeMany rest
    return (.many elements, rest)
  | .child field accept .oneOrMore => do
    let (elements, rest) ← (s.intake accept).takeAtLeastOne rule field rest
    return (.many elements, rest)

/-- The fields of all steps in order, and the children left over. -/
def takeSteps (rule : String) (text : Option String) :
    List (Step s.size) → List s.Child → Except ShapeMismatch (List Field × List s.Child)
  | [], rest => .ok ([], rest)
  | step :: steps, rest => do
    let (value, rest) ← s.takeStep rule text rest step
    let (fields, rest) ← takeSteps rule text steps rest
    return (⟨step.field, value⟩ :: fields, rest)

/-- The node that wraps another one for a delegating rule. -/
def wrap (rule : String) (inner : Node) : Node :=
  ⟨rule, [⟨innerField, .one (.node inner)⟩]⟩

/-- Reads a node from its parts, handing it on through at most `bound` rules. -/
def parseWithin (kind : String) (text : Option String) (children : List s.Child) :
    (bound : Nat) → s.Id → Except ShapeMismatch Node
  | 0, id => .error ⟨s.name id, .noAlternative kind⟩
  | bound + 1, id =>
    match s.plan id with
    | .shape root steps =>
      if kind = root then do
        let (fields, rest) ← s.takeSteps (s.name id) text steps children
        Intake.finish (·.tree.kind) (s.name id) rest
        return ⟨s.name id, fields⟩
      else .error ⟨s.name id, .wrongKind root kind⟩
    | .delegate target => do
      return wrap (s.name id) (← parseWithin kind text children bound target)
    | .choice alternatives =>
      match alternatives.find? (s.accepts · kind) with
      | some alternative => parseWithin kind text children bound alternative
      | none => .error ⟨s.name id, .noAlternative kind⟩

mutual

/-- Reads a tree by a rule. -/
def parse : Tree → s.Id → Except ShapeMismatch Node
  | ⟨kind, text, children⟩, id => s.parseWithin kind text (readings children) s.size id

def readings : List Tree → List s.Child
  | [] => []
  | tree :: rest => ⟨tree, parse tree⟩ :: readings rest

end

/-- Whether a tree has the shape of a rule at every depth. -/
def conforms (id : s.Id) (tree : Tree) : Bool :=
  (s.parse tree id).isOk

end TreeShape.Shapes
