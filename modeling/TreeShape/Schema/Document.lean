import TreeShape.Schema.Basic

/-!
Schema documents: schemas as they are written down, where every entry may have any of the keys. A
document stands for a schema when each rule has either alternatives or a root, and each item either
matches something or captures text.
-/

namespace TreeShape

structure ItemDocument where
  field : String
  optional : Bool
  repeated : Bool
  target : Option String
  text : Bool
  quantifier : Option Quantifier
deriving Repr, DecidableEq

structure RuleDocument where
  name : String
  root : Option String
  items : List ItemDocument
  alternatives : Option (List String)
deriving Repr, DecidableEq

structure SchemaDocument where
  package : List String
  tokenVocab : List String
  runtime : Option String
  rules : List RuleDocument
deriving Repr, DecidableEq

/-- Why an entry stands for no rule. -/
inductive MalformedRule where
  | mixedForms
  | noForm
  | textAndMatch (field : String)
  | neitherTextNorMatch (field : String)
deriving Repr, DecidableEq

def MalformedRule.message : MalformedRule → String
  | mixedForms => "`alternatives` cannot be combined with `root` or `items`"
  | noForm => "rule needs `root` or `alternatives`"
  | textAndMatch field => s!"item `{field}` has both `text` and `match`"
  | neitherTextNorMatch field => s!"item `{field}` needs `text` or `match`"

/-- The name of an entry that stands for no rule, and why it does not. -/
structure Malformed where
  rule : String
  reason : MalformedRule
deriving Repr, DecidableEq

def Malformed.message (m : Malformed) : String :=
  s!"malformed rule `{m.rule}`: {m.reason.message}"

def ItemDocument.toItem (item : ItemDocument) : Except MalformedRule Item := do
  let target ← match item.text, item.target with
    | true, none => .ok .text
    | false, some name => .ok (Target.named name)
    | true, some _ => .error (.textAndMatch item.field)
    | false, none => .error (.neitherTextNorMatch item.field)
  return { field := item.field, optional := item.optional, repeated := item.repeated, target,
           quantifier := item.quantifier.getD .one }

def RuleDocument.toForm (rule : RuleDocument) : Except MalformedRule RuleForm :=
  match rule.alternatives, rule.root with
  | some names, none => if rule.items.isEmpty then .ok (.alternatives names) else .error .mixedForms
  | some _, some _ => .error .mixedForms
  | none, some root => do return .leaf ⟨root, ← rule.items.mapM (·.toItem)⟩
  | none, none => .error .noForm

def RuleDocument.toRule (rule : RuleDocument) : Except Malformed Rule :=
  match rule.toForm with
  | .ok form => .ok ⟨rule.name, form⟩
  | .error reason => .error ⟨rule.name, reason⟩

namespace SchemaDocument

/-- The module that generated units are supported by when a document names none. -/
def defaultRuntime : String := "graft::runtime"

def toSchema (doc : SchemaDocument) : Except Malformed Schema := do
  return { package := doc.package, tokenVocab := doc.tokenVocab,
           runtime := doc.runtime.getD defaultRuntime, rules := ← doc.rules.mapM (·.toRule) }

end SchemaDocument

/-! ### Spelling a schema out -/

def Item.toDocument (item : Item) : ItemDocument where
  field := item.field
  optional := item.optional
  repeated := item.repeated
  target :=
    match item.target with
    | .rule name | .token name => some name
    | .text => none
  text := item.target == .text
  quantifier := some item.quantifier

def Rule.toDocument (rule : Rule) : RuleDocument :=
  match rule.form with
  | .leaf body => ⟨rule.name, some body.root, body.items.map (·.toDocument), none⟩
  | .alternatives names => ⟨rule.name, none, [], some names⟩

/-- The document that gives every key of a schema. -/
def Schema.toDocument (schema : Schema) : SchemaDocument :=
  ⟨schema.package, schema.tokenVocab, some schema.runtime, schema.rules.map (·.toDocument)⟩

end TreeShape
