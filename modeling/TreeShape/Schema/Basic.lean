import TreeShape.Text.Identifier

/-!
Schemas: an ordered list of named rules. A rule is either a leaf, whose body is an exact grammar for
the children of one kind of node or hands on to another rule, or a list of alternatives that may
stand in for it.
-/

namespace TreeShape

/-- How often an item matches. -/
inductive Quantifier where
  | one
  | optional
  | zeroOrMore
  | oneOrMore
deriving Repr, DecidableEq

namespace Quantifier

def repeats : Quantifier → Bool
  | one | optional => false
  | zeroOrMore | oneOrMore => true

def symbol : Quantifier → String
  | one => "1"
  | optional => "?"
  | zeroOrMore => "*"
  | oneOrMore => "+"

def ofSymbol? : String → Option Quantifier
  | "1" => some one
  | "?" => some optional
  | "*" => some zeroOrMore
  | "+" => some oneOrMore
  | _ => none

end Quantifier

/-- What an item matches: children read by a rule, children of a kind, or the node's own text. -/
inductive Target where
  | rule (name : String)
  | token (kind : String)
  | text
deriving Repr, DecidableEq

/-- Names with a capital are kinds, all others are rules. -/
def Target.named (name : String) : Target :=
  if Text.startsUppercase name then .token name else .rule name

/-- A position of a body: the field a value goes to, and what it is matched by. -/
structure Item where
  field : String
  /-- Whether the field may be absent. -/
  optional : Bool
  /-- Whether the field is a collection. -/
  repeated : Bool
  target : Target
  quantifier : Quantifier
deriving Repr, DecidableEq

/-- The item whose flags follow from its quantifier. -/
def Item.of (field : String) (target : Target) (quantifier : Quantifier) : Item where
  field := field
  optional := quantifier == .optional
  repeated := quantifier.repeats
  target := target
  quantifier := quantifier

structure Body where
  root : String
  items : List Item
deriving Repr, DecidableEq

/-- A root without a capital is the name of a rule that the body hands on to. -/
def Body.delegates (body : Body) : Bool :=
  !Text.startsUppercase body.root

inductive RuleForm where
  | leaf (body : Body)
  | alternatives (names : List String)
deriving Repr, DecidableEq

structure Rule where
  name : String
  form : RuleForm
deriving Repr, DecidableEq

namespace Rule

/-- The alternatives in the order in which they are tried; a leaf has none. -/
def alternatives (rule : Rule) : List String :=
  match rule.form with
  | .leaf _ => []
  | .alternatives names => names

/-- The rules that a node is handed on to as it is, not through one of its children. -/
def successors (rule : Rule) : List String :=
  match rule.form with
  | .alternatives names => names
  | .leaf body => if body.delegates then [body.root] else []

/-- Every rule that this one names. -/
def references (rule : Rule) : List String :=
  match rule.form with
  | .alternatives names => names
  | .leaf body =>
    rule.successors ++ body.items.filterMap fun item =>
      match item.target with
      | .rule name => some name
      | .token _ | .text => none

end Rule

structure Schema where
  /-- The path of the package that generated units belong to. -/
  package : List String
  /-- The path of the module that names the kinds. -/
  tokenVocab : List String
  /-- The path of the module that generated units are supported by. -/
  runtime : String
  rules : List Rule
deriving Repr, DecidableEq

namespace Schema

def rule? (schema : Schema) (name : String) : Option Rule :=
  schema.rules.find? (·.name == name)

def names (schema : Schema) : List String :=
  schema.rules.map (·.name)

end Schema
end TreeShape
