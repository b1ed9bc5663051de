import TreeShape.Code.Value

/-!
The file of one rule: a type for its nodes with the code that writes them as trees, or, for a rule
with alternatives, the capability that those share.
-/

namespace TreeShape.Code

variable (s : Shapes)

/-- The capabilities that the type of a rule has, those of its nearest ancestors first. -/
def capabilities (rule : String) : List String :=
  (s.ancestry.transitive rule).map typeIdent

def supertraits (rule : String) : List String :=
  sortNames ((s.ancestry.direct rule).map typeIdent)

def heldTypes (id : s.Id) (steps : List (Step s.size)) : List String :=
  steps.filterMap fun step =>
    match step with
    | .child _ (.rule target) _ => if target = id then none else some (typeName s target)
    | .child _ (.token _) _ | .text _ _ => none

def useTypes : List String → List Line
  | [] => []
  | [name] => [.plain s!"use super::{name};"]
  | names => [.plain s!"use super::{braced names};"]

def capabilityLines (type : String) : List String → List Line
  | [] => []
  | names => .blank :: names.map fun name => .plain s!"impl {name} for {type} \x7b\x7d"

def unparseLines (type : String) (body : List Line) : List Line :=
  [.opening s!"impl rt::Unparse for {type} \x7b",
    .opening "fn unparse(&self) -> Result<rt::Tree, rt::ShapeMismatch> \x7b"] ++
  body ++ [.closing "\x7d", .closing "\x7d"]

def isAbsentable {n : Nat} : Step n → Bool
  | .text _ optional => optional
  | .child _ _ quantifier => quantifier == .optional

def accessor (field : String) : List Line :=
  [.plain s!"/// Whether `{field}` is present.",
    .plain "#[must_use]",
    .opening s!"pub fn has_{snakeCase field}(&self) -> bool \x7b",
    .plain s!"self.{fieldIdent field}.is_some()",
    .closing "\x7d"]

/-- The accessors of the fields that may be absent, with a blank line between them. -/
def accessorBlock (type : String) : List String → List Line
  | [] => []
  | first :: rest =>
    [.blank, .opening s!"impl {type} \x7b"] ++ accessor first ++
      rest.flatMap (fun field => .blank :: accessor field) ++ [.closing "\x7d"]

def fieldLines (step : Step s.size) : List Line :=
  [.plain s!"/// `{step.field}`: {describe s step}.",
    .plain s!"pub {fieldIdent step.field}: {fieldType s step},"]

/-- The expression that writes an element, given how it is borrowed as a token and as a node. -/
def elementCode {n : Nat} (rule field token node : String) : Accept n → String
  | .token kind =>
    s!"rt::expect_token({Text.quote rule}, {Text.quote field}, {kindConstant kind}, {token})?"
  | .rule _ => s!"rt::Unparse::unparse({node})?"

/-- A block that adds each `value` it binds to the tree. -/
def pushBlock {n : Nat} (rule field : String) (accept : Accept n) (opening : String) : List Line :=
  let element := elementCode rule field "value" "&**value" accept
  [.opening opening, .plain s!"tree.push({element});", .closing "\x7d"]

def unparseStep {n : Nat} (rule : String) : Step n → List Line
  | .text field false => [.plain s!"tree.set_text(Some(self.{fieldIdent field}.clone()));"]
  | .text field true => [.plain s!"tree.set_text(self.{fieldIdent field}.clone());"]
  | .child field accept .one =>
    let token := s!"&self.{fieldIdent field}"
    let node := s!"&*self.{fieldIdent field}"
    [.plain s!"tree.push({elementCode rule field token node accept});"]
  | .child field accept .optional =>
    pushBlock rule field accept s!"if let Some(value) = &self.{fieldIdent field} \x7b"
  | .child field accept .zeroOrMore =>
    pushBlock rule field accept s!"for value in &self.{fieldIdent field} \x7b"
  | .child field accept .oneOrMore =>
    let values := s!"rt::non_empty({Text.quote rule}, {Text.quote field}, &self.{fieldIdent field})?"
    pushBlock rule field accept s!"for value in {values} \x7b"

/-- Writes the fields of a node into a tree of its kind. -/
def unparseBody {n : Nat} (rule root : String) : List (Step n) → List Line
  | [] => [.plain s!"Ok(rt::Tree::new({kindConstant root}))"]
  | steps =>
    .plain s!"let mut tree = rt::Tree::new({kindConstant root});" ::
      steps.flatMap (unparseStep rule) ++ [.plain "Ok(tree)"]

def shapeLines (id : s.Id) (root : String) (steps : List (Step s.size)) : List Line :=
  let rule := s.name id
  let type := typeName s id
  header s!"Rule `{rule}`: `{root}` nodes." ++
  [useRuntime s.schema, useTokens s.schema] ++
  useTypes (sortNames (heldTypes s id steps ++ capabilities s rule)) ++
  [.blank,
    .plain s!"/// A node of kind `{root}`.",
    .plain "#[derive(Debug)]",
    .opening s!"pub struct {type} \x7b"] ++
  steps.flatMap (fieldLines s) ++
  [.closing "\x7d"] ++
  accessorBlock type ((steps.filter isAbsentable).map (·.field)) ++
  [.blank] ++
  unparseLines type (unparseBody rule root steps) ++
  capabilityLines type (capabilities s rule)

def delegateLines (id target : s.Id) : List Line :=
  let rule := s.name id
  let type := typeName s id
  let held := if target = id then [] else [typeName s target]
  header s!"Rule `{rule}`: delegates to `{s.name target}`." ++
  [useRuntime s.schema] ++
  useTypes (sortNames (held ++ capabilities s rule)) ++
  [.blank,
    .plain s!"/// A `{s.name target}` value, seen as `{rule}`.",
    .plain "#[derive(Debug)]",
    .opening s!"pub struct {type} \x7b",
    .plain s!"/// The `{s.name target}` value.",
    .plain s!"pub {innerField}: {ruleType s target},",
    .closing "\x7d",
    .blank] ++
  unparseLines type [.plain s!"rt::Unparse::unparse(&*self.{innerField})"] ++
  capabilityLines type (capabilities s rule)

def implementors (names : List String) : List Line :=
  match names with
  | [] => []
  | _ =>
    let list := ", ".intercalate (names.map fun name => s!"`{name}`")
    [.plain "///", .plain s!"/// Implemented by {list}."]

def capabilityUnitLines (id : s.Id) (alternatives : List s.Id) : List Line :=
  let rule := s.name id
  let bounds := " + ".intercalate ("rt::Unparse" :: supertraits s rule)
  header s!"Rule `{rule}`: a capability shared by its alternatives." ++
  [useRuntime s.schema] ++
  useTypes (supertraits s rule) ++
  [.blank, .plain s!"/// Anything that may stand where `{rule}` is expected."] ++
  implementors (alternatives.map s.name) ++
  [.plain s!"pub trait {typeName s id}: {bounds} \x7b\x7d"]

def ruleLines (id : s.Id) : List Line :=
  match s.plan id with
  | .shape root steps => shapeLines s id root steps
  | .delegate target => delegateLines s id target
  | .choice alternatives => capabilityUnitLines s id alternatives

end TreeShape.Code
