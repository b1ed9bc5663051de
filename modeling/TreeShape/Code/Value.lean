import TreeShape.Code.Line
import TreeShape.Code.Naming
import TreeShape.Shapes.Basic
import TreeShape.Text.Quoted

/-!
How generated code names the types, kinds and modules that a schema speaks of.
-/

namespace TreeShape.Code

variable (s : Shapes)

def typeName (id : s.Id) : String :=
  typeIdent (s.name id)

/-- The type that holds a value of a rule inside another one. -/
def ruleType (id : s.Id) : String :=
  if (s.plan id).isChoice then s!"Box<dyn {typeName s id}>" else s!"Box<{typeName s id}>"

def valueType : Accept s.size → String
  | .token _ => "rt::Tree"
  | .rule id => ruleType s id

def fieldType : Step s.size → String
  | .text _ false => "String"
  | .text _ true => "Option<String>"
  | .child _ accept .one => valueType s accept
  | .child _ accept .optional => s!"Option<{valueType s accept}>"
  | .child _ accept .zeroOrMore | .child _ accept .oneOrMore => s!"Vec<{valueType s accept}>"

def describeTarget : Accept s.size → String
  | .token kind => s!"`{kind}`"
  | .rule id => s!"`{s.name id}`"

def describe : Step s.size → String
  | .text _ false => "the node's text"
  | .text _ true => "the node's text, if any"
  | .child _ accept .one => s!"one {describeTarget s accept}"
  | .child _ accept .optional => s!"an optional {describeTarget s accept}"
  | .child _ accept .zeroOrMore => s!"zero or more {describeTarget s accept}"
  | .child _ accept .oneOrMore => s!"one or more {describeTarget s accept}"

def kindConstant (kind : String) : String := s!"tokens::{kind}"

/-- The path of the token vocabulary, which is the package's own when a schema names none. -/
def tokensPath (schema : Schema) : String :=
  if schema.tokenVocab.isEmpty then "super::tokens" else "::".intercalate schema.tokenVocab

/-- Whether a path names a module that is called `tokens` already. -/
def isTokensModule (path : String) : Bool :=
  path.endsWith "::tokens" || path == "tokens"

def useTokens (schema : Schema) : Line :=
  let path := tokensPath schema
  .plain (if isTokensModule path then s!"use {path};" else s!"use {path} as tokens;")

def useRuntime (schema : Schema) : Line :=
  .plain s!"use {schema.runtime} as rt;"

/-- Puts a name at its place in an alphabetical list without repetitions. -/
def insertName (name : String) : List String → List String
  | [] => [name]
  | first :: rest =>
    if name < first then name :: first :: rest
    else if name = first then first :: rest
    else first :: insertName name rest

def sortNames (names : List String) : List String :=
  names.foldr insertName []

def braced (names : List String) : String :=
  "\x7b" ++ ", ".intercalate names ++ "\x7d"

end TreeShape.Code
