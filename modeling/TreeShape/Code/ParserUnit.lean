import TreeShape.Code.Clash
import TreeShape.Code.Value

/-!
The files of the whole package: the functions that test, read and make the nodes of every rule, and
the list of the package's modules.
-/

namespace TreeShape.Code

structure Function where
  doc : List Line
  name : String
  parameters : String
  result : String
  body : List Line

def Function.lines (f : Function) : List Line :=
  f.doc ++ [.opening s!"pub fn {f.name}({f.parameters}) -> {f.result} \x7b"] ++ f.body ++
    [.closing "\x7d"]

variable (s : Shapes)

def testName (id : s.Id) : String := s!"can_parse_{unitName (s.name id)}"
def parseName (id : s.Id) : String := s!"parse_{unitName (s.name id)}"
def makeName (id : s.Id) : String := s!"make_{unitName (s.name id)}"

def testDoc (rule : String) : List Line :=
  [.plain s!"/// Membership test for rule `{rule}`.", .plain "#[must_use]"]

def parseDoc (rule : String) (detail : List String) : List Line :=
  [.plain s!"/// Parses rule `{rule}`.", .plain "///"] ++
  detail.flatMap (fun text => [.plain s!"/// {text}", .plain "///"]) ++
  [.plain "/// # Errors",
    .plain "///",
    .plain "/// Returns a [`rt::ShapeMismatch`] if `tree` does not conform."]

def makeDoc (summary : String) : List Line :=
  [.plain s!"/// {summary}", .plain "#[must_use]"]

def resultOf (type : String) : String := s!"Result<{type}, rt::ShapeMismatch>"

def structLiteral (type : String) : List String → String
  | [] => s!"{type} \x7b\x7d"
  | fields =>
    let list := ", ".intercalate fields
    s!"{type} \x7b {list} \x7d"

/-- A field of a literal, by its local variable unless both have one name. -/
def fieldInit (field : String) : String :=
  if fieldIdent field = localIdent field then fieldIdent field
  else s!"{fieldIdent field}: {localIdent field}"

def testArgument : Accept s.size → String
  | .token kind => s!"|t: &rt::Tree| t.is({kindConstant kind})"
  | .rule id => testName s id

def readArgument : Accept s.size → String
  | .token _ => "|t: &rt::Tree| Ok(t.clone())"
  | .rule id =>
    if (s.plan id).isChoice then parseName s id
    else s!"|t: &rt::Tree| {parseName s id}(t).map(Box::new)"

/-- Reads the field of a step into its local variable. -/
def takeLine (step : Step s.size) : Line :=
  let name := localIdent step.field
  let field := Text.quote step.field
  let arguments (accept : Accept s.size) := s!"rest, {testArgument s accept}, {readArgument s accept}"
  match step with
  | .text _ false => .plain s!"let {name} = rt::capture_text(RULE, {field}, tree)?;"
  | .text _ true => .plain s!"let {name} = rt::capture_optional_text(tree);"
  | .child _ accept .one =>
    .plain s!"let ({name}, rest) = rt::take_one(RULE, {field}, {arguments accept})?;"
  | .child _ accept .optional =>
    .plain s!"let ({name}, rest) = rt::take_optional({arguments accept})?;"
  | .child _ accept .zeroOrMore =>
    .plain s!"let ({name}, rest) = rt::take_many({arguments accept})?;"
  | .child _ accept .oneOrMore =>
    .plain s!"let ({name}, rest) = rt::take_at_least_one(RULE, {field}, {arguments accept})?;"

/-- Returns early from a node of another kind. -/
def kindGuard (kind : String) : List Line :=
  [.opening s!"if !tree.is({kind}) \x7b",
    .opening "return Err(rt::ShapeMismatch::new(",
    .plain "RULE,",
    .opening "rt::Mismatch::WrongKind \x7b",
    .plain s!"expected: {kind}.to_owned(),",
    .plain "found: tree.kind().to_owned(),",
    .closing "\x7d,",
    .closing "));",
    .closing "\x7d"]

/-- Reads all fields, and fails if children are left. -/
def takeLines : List (Step s.size) → List Line
  | [] => [.plain "rt::finish(RULE, tree.children())?;"]
  | steps =>
    .plain "let rest = tree.children();" :: steps.map (takeLine s) ++
      [.plain "rt::finish(RULE, rest)?;"]

def shapeFunctions (id : s.Id) (root : String) (steps : List (Step s.size)) : List Function :=
  let rule := s.name id
  let type := typeName s id
  let kind := kindConstant root
  let literal := structLiteral type (steps.map fun step => fieldInit step.field)
  let parameters := steps.map fun step => s!"{fieldIdent step.field}: {fieldType s step}"
  [{ doc := testDoc rule
     name := testName s id
     parameters := "tree: &rt::Tree"
     result := "bool"
     body := [.plain s!"tree.is({kind})"] },
   { doc := parseDoc rule []
     name := parseName s id
     parameters := "tree: &rt::Tree"
     result := resultOf type
     body := [.plain s!"const RULE: &str = {Text.quote rule};", .blank] ++ kindGuard kind ++
       [.blank] ++ takeLines s steps ++ [.plain s!"Ok({literal})"] },
   { doc := makeDoc s!"Builds a `{rule}` node from its field values."
     name := makeName s id
     parameters := ", ".intercalate parameters
     result := type
     body := [.plain (structLiteral type (steps.map fun step => fieldIdent step.field))] }]

def delegateFunctions (id target : s.Id) : List Function :=
  let rule := s.name id
  let type := typeName s id
  let inner :=
    if (s.plan target).isChoice then s!"{parseName s target}(tree)?"
    else s!"Box::new({parseName s target}(tree)?)"
  let literal := structLiteral type [s!"{innerField}: {inner}"]
  [{ doc := testDoc rule
     name := testName s id
     parameters := "tree: &rt::Tree"
     result := "bool"
     body := [.plain s!"{testName s target}(tree)"] },
   { doc := parseDoc rule []
     name := parseName s id
     parameters := "tree: &rt::Tree"
     result := resultOf type
     body := [.plain s!"Ok({literal})"] },
   { doc := makeDoc s!"Wraps a `{s.name target}` value as `{rule}`."
     name := makeName s id
     parameters := s!"{innerField}: {ruleType s target}"
     result := type
     body := [.plain (structLiteral type [innerField])] }]

/-- Reads a node by an alternative, if that accepts it. -/
def dispatchLines (type : String) (alternative : s.Id) : List Line :=
  let read := s!"{parseName s alternative}(tree)?"
  let node := if (s.plan alternative).isChoice then read else s!"Box::new({read})"
  [.opening s!"if {testName s alternative}(tree) \x7b",
    .plain s!"let node: Box<dyn {type}> = {node};",
    .plain "return Ok(node);",
    .closing "\x7d"]

def noAlternativeLines (rule : String) : List Line :=
  [.opening "Err(rt::ShapeMismatch::new(",
    .plain s!"{Text.quote rule},",
    .opening "rt::Mismatch::NoAlternative \x7b",
    .plain "found: tree.kind().to_owned(),",
    .closing "\x7d,",
    .closing "))"]

def choiceFunctions (id : s.Id) (alternatives : List s.Id) : List Function :=
  let rule := s.name id
  let type := typeName s id
  let tests := alternatives.map fun alternative => s!"{testName s alternative}(tree)"
  [{ doc := testDoc rule
     name := testName s id
     parameters := if alternatives.isEmpty then "_tree: &rt::Tree" else "tree: &rt::Tree"
     result := "bool"
     body := [.plain (if alternatives.isEmpty then "false" else " || ".intercalate tests)] },
   { doc := parseDoc rule ["The first alternative whose membership test holds is parsed."]
     name := parseName s id
     parameters := "tree: &rt::Tree"
     result := resultOf s!"Box<dyn {type}>"
     body := alternatives.flatMap (dispatchLines s type) ++ noAlternativeLines rule }]

def ruleFunctions (id : s.Id) : List Function :=
  match s.plan id with
  | .shape root steps => shapeFunctions s id root steps
  | .delegate target => delegateFunctions s id target
  | .choice alternatives => choiceFunctions s id alternatives

def functions : List Function :=
  s.ids.flatMap (ruleFunctions s)

def isShape {n : Nat} : Plan n → Bool
  | .shape _ _ => true
  | .delegate _ | .choice _ => false

def packageName (schema : Schema) : String :=
  ".".intercalate schema.package

def parserLines : List Line :=
  header s!"Membership tests, parsers and constructors for package `{packageName s.schema}`." ++
  [.plain "#![allow(clippy::too_many_arguments)]", .blank, useRuntime s.schema] ++
  (if s.ids.any fun id => isShape (s.plan id) then [useTokens s.schema] else []) ++
  (if s.ids.isEmpty then [] else [.plain s!"use super::{braced (s.ids.map (typeName s))};"]) ++
  (functions s).flatMap fun f => .blank :: f.lines

def modLines : List Line :=
  header s!"Package `{packageName s.schema}`." ++
  s.ids.map (fun id => .plain s!"mod {fieldIdent (s.name id)};") ++
  [.plain s!"pub mod {parserUnit};"] ++
  (if s.ids.isEmpty then [] else [.blank]) ++
  s.ids.map fun id => .plain s!"pub use {fieldIdent (s.name id)}::{typeName s id};"

end TreeShape.Code
