import TreeShape.Log
import TreeShape.Schema.Check

/-!
Warnings: parts of a schema that are well formed, but hardly meant. An alternative rule may have no
alternatives, two alternatives may accept the same kind of node, and a rule may be named by no one.
-/

namespace TreeShape

/-- Two alternatives of a rule that accept one kind; the earlier one is always taken. -/
structure Overlap where
  rule : String
  earlier : String
  later : String
  kind : String
deriving Repr, DecidableEq

inductive Warning where
  | noAlternatives (rule : String)
  | overlap (overlap : Overlap)
  | unreferenced (rule : String)
deriving Repr, DecidableEq

def Warning.message : Warning → String
  | noAlternatives rule => s!"rule '{rule}' has no alternatives and will never match"
  | overlap ⟨rule, earlier, later, kind⟩ =>
    s!"rule '{rule}': alternatives '{earlier}' and '{later}' both accept '{kind}'; " ++
      s!"'{earlier}' wins"
  | unreferenced rule => s!"unreferenced rule '{rule}'"

/-- The overlaps among the kinds that a rule's alternatives accept, listed as pairs of alternative
and kind. Each kind belongs to the alternative that `claimed` it first. -/
def overlapsAmong (rule : String) (claimed : List (String × String)) :
    List (String × String) → List Overlap
  | [] => []
  | (name, kind) :: rest =>
    match claimed.lookup kind with
    | none => overlapsAmong rule ((kind, name) :: claimed) rest
    | some earlier =>
      if earlier = name then overlapsAmong rule claimed rest
      else ⟨rule, earlier, name, kind⟩ :: overlapsAmong rule claimed rest

namespace Schema

/-- The kinds of node that the rule called `name` accepts, found through at most `bound` rules. -/
def rootKindsWithin (schema : Schema) : (bound : Nat) → (name : String) → List String
  | 0, _ => []
  | bound + 1, name =>
    match schema.rule? name with
    | none => []
    | some rule =>
      match rule.form with
      | .alternatives names => names.flatMap (schema.rootKindsWithin bound)
      | .leaf body =>
        if body.delegates then schema.rootKindsWithin bound body.root else [body.root]

/-- The kinds of node that the rule called `name` accepts. Where no rule hands on to itself, each
is found through as many rules as there are. -/
def rootKinds (schema : Schema) (name : String) : List String :=
  schema.rootKindsWithin schema.rules.length name

def overlapsOf (schema : Schema) (rule : Rule) : List Overlap :=
  overlapsAmong rule.name [] <|
    rule.alternatives.flatMap fun name => (schema.rootKinds name).map (name, ·)

def overlaps (schema : Schema) : List Overlap :=
  schema.rules.flatMap schema.overlapsOf

/-- The rules that no rule names. The first one is where reading starts. -/
def unreferenced (schema : Schema) : List String :=
  (schema.names.drop 1).filter fun name =>
    !schema.rules.any fun rule => rule.references.contains name

/-- The rules without alternatives that the check gets to. -/
def hollow (schema : Schema) : List String :=
  let passed := schema.rules.takeWhile fun rule => (checkRule schema.names rule).isOk
  (passed.filter (·.form == .alternatives [])).map (·.name)

/-- The warnings that the check of a schema gives on its way. -/
def warnings (schema : Schema) : List Warning :=
  match checkNames [] schema.rules, schema.check with
  | .error _, _ => []
  | .ok _, .error _ => schema.hollow.map .noAlternatives
  | .ok _, .ok _ =>
    schema.hollow.map .noAlternatives ++ schema.overlaps.map .overlap ++
      schema.unreferenced.map .unreferenced

def validate (schema : Schema) : Logged Fault Unit :=
  ⟨schema.warnings.map fun warning => ⟨.warn, warning.message⟩, schema.check⟩

end Schema
end TreeShape
