import TreeShape.Json.Reader
import TreeShape.Schema.Document
import TreeShape.Schema.Fault

/-!
Schemas as JSON text. The text is an object with the keys `package`, `token_vocab` and `rules`;
what follows its closing brace is not looked at.
-/

namespace TreeShape

open Json

def ItemDocument.reader : Reader ItemDocument :=
  Reader.object ["field"] ⟨"", false, false, none, false, none⟩ fun item key =>
    match key with
    | "field" => some (Reader.string.map fun field => { item with field })
    | "optional" => some (Reader.bool.map fun optional => { item with optional })
    | "repeated" => some (Reader.bool.map fun repeated => { item with repeated })
    | "match" => some (Reader.string.optional.map fun target => { item with target })
    | "text" => some (Reader.bool.map fun text => { item with text })
    | "quantifier" =>
      some ((Reader.choice Quantifier.ofSymbol?).optional.map fun quantifier =>
        { item with quantifier })
    | _ => none

def RuleDocument.reader : Reader RuleDocument :=
  Reader.object ["name"] ⟨"", none, [], none⟩ fun rule key =>
    match key with
    | "name" => some (Reader.string.map fun name => { rule with name })
    | "root" => some (Reader.string.optional.map fun root => { rule with root })
    | "items" => some (ItemDocument.reader.list.map fun items => { rule with items })
    | "alternatives" =>
      some (Reader.string.list.optional.map fun alternatives => { rule with alternatives })
    | _ => none

def SchemaDocument.reader : Reader SchemaDocument :=
  Reader.object ["package", "token_vocab", "rules"] ⟨[], [], none, []⟩ fun doc key =>
    match key with
    | "package" => some (Reader.string.list.map fun package => { doc with package })
    | "token_vocab" => some (Reader.string.list.map fun tokenVocab => { doc with tokenVocab })
    | "runtime" => some (Reader.string.optional.map fun runtime => { doc with runtime })
    | "rules" => some (RuleDocument.reader.list.map fun rules => { doc with rules })
    | _ => none

def SchemaDocument.ofText? (text : String) : Option SchemaDocument :=
  (SchemaDocument.reader (Json.scan text.toList)).map (·.value)

/-- Why a text does not give a schema that can be used. -/
inductive SchemaError where
  | notJson
  | malformed (entry : Malformed)
  | invalid (fault : Fault)
deriving Repr, DecidableEq

def SchemaError.message : SchemaError → String
  | notJson => "JSON parse error"
  | malformed entry => entry.message
  | invalid fault => s!"validation error: {fault.message}"

/-- The schema that a text is written for, checked only as far as its entries go. -/
def Schema.ofText (text : String) : Except SchemaError Schema :=
  match SchemaDocument.ofText? text with
  | none => .error .notJson
  | some doc => doc.toSchema.mapError .malformed

end TreeShape
