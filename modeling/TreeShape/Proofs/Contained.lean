import TreeShape.Proofs.Calls
import TreeShape.Proofs.Declarations

/-!
Where generated code keeps to its lines. Names bring no line feeds into it, since they are
identifiers; but what a schema says of its package, of its runtime and of its token vocabulary is
written as it is. If there is no line feed in these, each line of a file is a line of its text.
-/

namespace TreeShape

open Text (Lacks)

/-- What a schema has written as it is stays on its line and, where it is part of a declaration,
within that. -/
structure Schema.Contained (schema : Schema) : Prop where
  package : ∀ segment ∈ schema.package, Lacks '\n' segment
  vocabulary : ∀ segment ∈ schema.tokenVocab, Lacks '\n' segment ∧ Lacks ';' segment
  runtime : Lacks '\n' schema.runtime ∧ Lacks ';' schema.runtime

theorem Schema.contained_iff {schema : Schema} : schema.Contained ↔
    (∀ segment ∈ schema.package, Lacks '\n' segment) ∧
      (∀ segment ∈ schema.tokenVocab, Lacks '\n' segment ∧ Lacks ';' segment) ∧
      Lacks '\n' schema.runtime ∧ Lacks ';' schema.runtime :=
  ⟨fun h => ⟨h.package, h.vocabulary, h.runtime⟩, fun h => ⟨h.1, h.2.1, h.2.2⟩⟩

instance (schema : Schema) : Decidable schema.Contained :=
  decidable_of_iff _ Schema.contained_iff.symm

namespace Code

/-! ### Names -/

/-- Whether a character is neither in names nor in the signs that stand between them. -/
def isForeign (c : Char) : Bool :=
  !Text.isIdentifierPart c && !"#:\",\x7b\x7d ".toList.contains c

section

variable {c : Char} (foreign : isForeign c = true)
include foreign

theorem part_of_isForeign : Text.isIdentifierPart c = false := by
  simp only [isForeign, Bool.and_eq_true, Bool.not_eq_true'] at foreign
  exact foreign.1

theorem lacks_of_isForeign {text : String} (h : text.toList.all (!isForeign ·) = true) :
    Lacks c text := by
  intro hc
  have familiar := List.all_eq_true.mp h c hc
  simp [foreign] at familiar

theorem ne_hash_of_isForeign : c ≠ '#' := by
  rintro rfl
  exact absurd foreign (by decide)

theorem lacks_name {name : String} (valid : Text.Identifier name) : Lacks c name := by
  intro hc
  exact Bool.false_ne_true ((part_of_isForeign foreign).symm.trans (valid.isIdentifierPart c hc))

theorem lacks_typeIdent {name : String} (valid : Text.Identifier name) : Lacks c (typeIdent name) :=
  not_mem_typeIdent valid (part_of_isForeign foreign) (ne_hash_of_isForeign foreign)

theorem lacks_fieldIdent {name : String} (valid : Text.Identifier name) :
    Lacks c (fieldIdent name) :=
  not_mem_fieldIdent valid (part_of_isForeign foreign) (ne_hash_of_isForeign foreign)

theorem lacks_of_isSmall {text : String} (h : ∀ d ∈ text.toList, IsSmall d) : Lacks c text := by
  intro hc
  have part := isIdentifierPart_iff.mpr (.inr (h c hc))
  exact Bool.false_ne_true ((part_of_isForeign foreign).symm.trans part)

theorem lacks_localIdent {field : String} (valid : Text.Identifier field) :
    Lacks c (localIdent field) := by
  obtain longer | same := localIdent_eq_or field
  -- a local that the function has already is told apart by a suffix
  · have each : ∀ name ∈ ["tree_value", "rest_value"], name.toList.all (!isForeign ·) = true := by
      decide
    exact lacks_of_isForeign foreign (each _ longer)
  · rw [same]
    exact lacks_fieldIdent foreign valid

theorem lacks_quote {name : String} (valid : Text.Identifier name) : Lacks c (Text.quote name) := by
  have mark : Lacks c "\"" := lacks_of_isForeign foreign (by decide)
  simp [quote_of_identifier valid, mark, lacks_name foreign valid]

theorem lacks_kindConstant {kind : String} (valid : Text.Identifier kind) :
    Lacks c (kindConstant kind) := by
  have module : Lacks c "tokens::" := lacks_of_isForeign foreign (by decide)
  simp [kindConstant, toString, module, lacks_name foreign valid]

theorem lacks_fieldInit {field : String} (valid : Text.Identifier field) :
    Lacks c (fieldInit field) := by
  have sign : Lacks c ": " := lacks_of_isForeign foreign (by decide)
  unfold fieldInit
  split <;> simp [toString, sign, lacks_fieldIdent foreign valid, lacks_localIdent foreign valid]

theorem lacks_structLiteral {type : String} {fields : List String} (ht : Lacks c type)
    (hf : ∀ field ∈ fields, Lacks c field) : Lacks c (structLiteral type fields) := by
  have comma : Lacks c ", " := lacks_of_isForeign foreign (by decide)
  have list := Text.lacks_intercalate comma hf
  unfold structLiteral
  split <;> simp (disch := decide) [toString, ht, list, lacks_of_isForeign foreign]

variable {s : Shapes} (lawful : s.Lawful)
include lawful

theorem lacks_typeName (id : s.Id) : Lacks c (typeName s id) :=
  lacks_typeIdent foreign (lawful.identifier_name id)

theorem lacks_functionName (id : s.Id) (role : Role) : Lacks c (functionName s id role) :=
  lacks_of_isSmall foreign (isSmall_functionName lawful id role)

end

/-! ### Lines -/

theorem isForeign_feed : isForeign '\n' = true := by
  decide

theorem oneLined_header {summary : String} (h : Lacks '\n' summary) :
    OneLined (header summary) := by
  simp (disch := decide) [OneLined, header, Line.text, toString, h]

theorem oneLined_useTypes {names : List String} (h : ∀ name ∈ names, Lacks '\n' name) :
    OneLined (useTypes names) := by
  have list := Text.lacks_intercalate (by decide : Lacks '\n' ", ") h
  unfold useTypes
  split
  · exact List.forall_mem_nil _
  · next name => simp (disch := decide) [OneLined, Line.text, toString, h name List.mem_cons_self]
  · simp (disch := decide) [OneLined, Line.text, toString, braced, list]

theorem oneLined_capabilityLines {type : String} (ht : Lacks '\n' type) {names : List String}
    (h : ∀ name ∈ names, Lacks '\n' name) : OneLined (capabilityLines type names) := by
  have each : ∀ name ∈ names, Lacks '\n' (Line.plain s!"impl {name} for {type} \x7b\x7d").text := by
    intro name hn
    simp (disch := decide) [Line.text, toString, ht, h name hn]
  cases names with
  | nil => exact List.forall_mem_nil _
  | cons first rest =>
      exact List.forall_mem_cons.mpr ⟨by decide, List.forall_mem_map.mpr each⟩

theorem oneLined_unparseLines {type : String} (ht : Lacks '\n' type) {body : List Line}
    (h : OneLined body) : OneLined (unparseLines type body) := by
  refine OneLined.append (OneLined.append ?_ h) ?_
  · simp (disch := decide) [OneLined, Line.text, toString, ht]
  · simp (disch := decide) [OneLined, Line.text]

theorem oneLined_accessor {field : String} (valid : Text.Identifier field) :
    OneLined (accessor field) := by
  have name := lacks_name isForeign_feed valid
  have ident := lacks_fieldIdent isForeign_feed valid
  have snake := lacks_of_isSmall isForeign_feed (isSmall_snakeCase valid)
  simp (disch := decide) [OneLined, accessor, Line.text, toString, name, ident, snake]

theorem oneLined_accessorBlock {type : String} (ht : Lacks '\n' type) {fields : List String}
    (valid : ∀ field ∈ fields, Text.Identifier field) : OneLined (accessorBlock type fields) := by
  cases fields with
  | nil => exact List.forall_mem_nil _
  | cons first rest =>
      obtain ⟨here, later⟩ := List.forall_mem_cons.mp valid
      have more : OneLined (rest.flatMap fun field => .blank :: accessor field) :=
        oneLined_flatMap fun field hf =>
          List.forall_mem_cons.mpr ⟨by decide, oneLined_accessor (later field hf)⟩
      refine OneLined.append (OneLined.append (OneLined.append ?_ (oneLined_accessor here)) more) ?_
      · simp (disch := decide) [OneLined, Line.text, toString, ht]
      · simp (disch := decide) [OneLined, Line.text]

theorem lacks_elementCode {n : Nat} {rule field token node : String} {accept : Accept n}
    (hr : Text.Identifier rule) (hf : Text.Identifier field)
    (valid : ∀ kind ∈ acceptKinds accept, Text.Identifier kind) (ht : Lacks '\n' token)
    (hn : Lacks '\n' node) : Lacks '\n' (elementCode rule field token node accept) := by
  cases accept with
  | token kind =>
      have constant := lacks_kindConstant isForeign_feed (valid kind List.mem_cons_self)
      have ruleQuote := lacks_quote isForeign_feed hr
      have fieldQuote := lacks_quote isForeign_feed hf
      -- by its parts, since unfolding it would take the quotes apart as well
      change Lacks '\n'
        s!"rt::expect_token({Text.quote rule}, {Text.quote field}, {kindConstant kind}, {token})?"
      simp (disch := decide) [toString, ruleQuote, fieldQuote, constant, ht]
  | rule id =>
      change Lacks '\n' s!"rt::Unparse::unparse({node})?"
      simp (disch := decide) [toString, hn]

theorem oneLined_unparseStep {n : Nat} {rule : String} (hr : Text.Identifier rule) {step : Step n}
    (hf : Text.Identifier step.field) (valid : ∀ kind ∈ stepKinds step, Text.Identifier kind) :
    OneLined (unparseStep rule step) := by
  have ident := lacks_fieldIdent isForeign_feed hf
  have ruleQuote := lacks_quote isForeign_feed hr
  have fieldQuote := lacks_quote isForeign_feed hf
  cases step with
  | text field optional =>
      simp only [Step.field] at ident
      cases optional <;> simp (disch := decide) [OneLined, unparseStep, Line.text, toString, ident]
  | child field accept quantifier =>
      simp only [Step.field] at ident fieldQuote
      have element (token node : String) (ht : Lacks '\n' token) (hn : Lacks '\n' node) :
          Lacks '\n' (elementCode rule field token node accept) :=
        lacks_elementCode hr hf valid ht hn
      have value := element "value" "&**value" (by decide) (by decide)
      cases quantifier with
      | one =>
          have own := element ("&self." ++ fieldIdent field) ("&*self." ++ fieldIdent field)
            (by simp (disch := decide) [ident]) (by simp (disch := decide) [ident])
          simp (disch := decide) [OneLined, unparseStep, Line.text, toString, own]
      | optional | zeroOrMore | oneOrMore =>
          simp (disch := decide) [OneLined, unparseStep, pushBlock, Line.text, toString, ident,
            ruleQuote, fieldQuote, value]

theorem oneLined_unparseBody {n : Nat} {rule root : String} (hr : Text.Identifier rule)
    (hk : Text.Identifier root) {steps : List (Step n)}
    (valid : ∀ step ∈ steps, Text.Identifier step.field ∧
      ∀ kind ∈ stepKinds step, Text.Identifier kind) : OneLined (unparseBody rule root steps) := by
  have kind := lacks_kindConstant isForeign_feed hk
  cases steps with
  | nil => simp (disch := decide) [OneLined, unparseBody, Line.text, toString, kind]
  | cons first rest =>
      have each : OneLined ((first :: rest).flatMap (unparseStep rule)) :=
        oneLined_flatMap fun step hs => oneLined_unparseStep hr (valid step hs).1 (valid step hs).2
      refine List.forall_mem_cons.mpr ⟨?_, each.append (List.forall_mem_singleton.mpr (by decide))⟩
      simp (disch := decide) [Line.text, toString, kind]

theorem lacks_runtime {schema : Schema} (h : schema.Contained) :
    Lacks '\n' (useRuntime schema).text := by
  simp (disch := decide) [useRuntime, Line.text, toString, h.runtime.1]

theorem lacks_tokensPath {c : Char} (foreign : isForeign c = true) {schema : Schema}
    (h : ∀ segment ∈ schema.tokenVocab, Lacks c segment) : Lacks c (tokensPath schema) := by
  unfold tokensPath
  split
  · exact lacks_of_isForeign foreign (by decide)
  · exact Text.lacks_intercalate (lacks_of_isForeign foreign (by decide)) h

theorem lacks_tokens {schema : Schema} (h : schema.Contained) :
    Lacks '\n' (useTokens schema).text := by
  have path := lacks_tokensPath isForeign_feed fun segment hs => (h.vocabulary segment hs).1
  simp only [useTokens]
  split <;> simp (disch := decide) [Line.text, toString, path]

theorem oneLined_implementors {names : List String} (h : ∀ name ∈ names, Lacks '\n' name) :
    OneLined (implementors names) := by
  have each : ∀ text ∈ names.map (fun name => s!"`{name}`"), Lacks '\n' text := by
    rw [List.forall_mem_map]
    intro name hn
    simp (disch := decide) [toString, h name hn]
  have list := Text.lacks_intercalate (by decide : Lacks '\n' ", ") each
  simp only [toString] at list
  unfold implementors
  split
  · exact List.forall_mem_nil _
  · simp (disch := decide) [OneLined, Line.text, toString, list]

section

variable {s : Shapes} (lawful : s.Lawful)
include lawful

theorem lacks_ruleName (id : s.Id) : Lacks '\n' (s.name id) :=
  lacks_name isForeign_feed (lawful.identifier_name id)

theorem lacks_ruleType (id : s.Id) : Lacks '\n' (ruleType s id) := by
  have type := lacks_typeName isForeign_feed lawful id
  unfold ruleType
  split <;> simp (disch := decide) [toString, type]

theorem lacks_fieldType (step : Step s.size) : Lacks '\n' (fieldType s step) := by
  have value (accept : Accept s.size) : Lacks '\n' (valueType s accept) := by
    cases accept with
    | token kind => exact (by decide : Lacks '\n' "rt::Tree")
    | rule id => exact lacks_ruleType lawful id
  unfold fieldType
  split <;> simp (disch := decide) [toString, value]

theorem oneLined_fieldLines {step : Step s.size} (field : Text.Identifier step.field)
    (valid : ∀ kind ∈ stepKinds step, Text.Identifier kind) : OneLined (fieldLines s step) := by
  have name := lacks_name isForeign_feed field
  have ident := lacks_fieldIdent isForeign_feed field
  have words : Lacks '\n' (describe s step) := by
    cases step with
    | text field optional => cases optional <;> simp (disch := decide) [describe]
    | child field accept quantifier =>
        have target : Lacks '\n' (describeTarget s accept) := by
          cases accept with
          | token kind =>
              have kind := lacks_name isForeign_feed (valid kind List.mem_cons_self)
              simp (disch := decide) [describeTarget, toString, kind]
          | rule id => simp (disch := decide) [describeTarget, toString, lacks_ruleName lawful id]
        cases quantifier <;> simp (disch := decide) [describe, toString, target]
  simp (disch := decide) [OneLined, fieldLines, Line.text, toString, name, ident, words,
    lacks_fieldType lawful step]

theorem lacks_capabilities (rule : String) : ∀ name ∈ capabilities s rule, Lacks '\n' name := by
  intro name hn
  obtain ⟨ancestor, ha, rfl⟩ := List.mem_map.mp hn
  exact lacks_typeIdent isForeign_feed
    (lawful.identifier_of_mem (mem_names_of_mem_transitive lawful ha))

theorem lacks_supertraits (rule : String) : ∀ name ∈ supertraits s rule, Lacks '\n' name := by
  intro name hn
  obtain ⟨lister, listed, rfl⟩ := mem_supertraits.mp hn
  exact lacks_typeIdent isForeign_feed
    (lawful.identifier_of_mem (mem_names_of_listed lawful listed))

theorem lacks_used {held : List String} (h : ∀ name ∈ held, Lacks '\n' name) (rule : String) :
    ∀ name ∈ sortNames (held ++ capabilities s rule), Lacks '\n' name := by
  intro name hn
  obtain hn | hn := List.mem_append.mp (mem_sortNames.mp hn)
  · exact h name hn
  · exact lacks_capabilities lawful rule name hn

theorem lacks_heldTypes (id : s.Id) (steps : List (Step s.size)) :
    ∀ name ∈ heldTypes s id steps, Lacks '\n' name := by
  intro name hn
  obtain ⟨target, _, _, rfl⟩ := mem_heldTypes.mp hn
  exact lacks_typeName isForeign_feed lawful target

section

variable (contained : s.schema.Contained)
include contained

theorem oneLined_shapeLines {id : s.Id} {root : String} {steps : List (Step s.size)}
    (hp : s.plan id = .shape root steps) : OneLined (shapeLines s id root steps) := by
  obtain ⟨rootValid, valid⟩ := identifiers_of_shape lawful hp
  have rule := lacks_ruleName lawful id
  have type := lacks_typeName isForeign_feed lawful id
  have kind := lacks_name isForeign_feed rootValid
  have fields : OneLined (steps.flatMap (fieldLines s)) :=
    oneLined_flatMap fun step hs => oneLined_fieldLines lawful (valid step hs).1 (valid step hs).2
  have absentable : ∀ field ∈ (steps.filter isAbsentable).map (·.field), Text.Identifier field :=
    List.forall_mem_map.mpr fun step hs => (valid step (List.mem_of_mem_filter hs)).1
  have head : OneLined (header s!"Rule `{s.name id}`: `{root}` nodes.") :=
    oneLined_header (by simp (disch := decide) [toString, rule, kind])
  have used : OneLined [useRuntime s.schema, useTokens s.schema] := by
    simp [OneLined, lacks_runtime contained, lacks_tokens contained]
  have types := oneLined_useTypes
    (lacks_used lawful (lacks_heldTypes lawful id steps) (s.name id))
  have struct : OneLined [.blank, .plain s!"/// A node of kind `{root}`.",
      .plain "#[derive(Debug)]", .opening s!"pub struct {typeName s id} \x7b"] := by
    simp (disch := decide) [OneLined, Line.text, toString, kind, type]
  have close : OneLined [Line.closing "\x7d"] := by decide
  have blank : OneLined [Line.blank] := by decide
  have body := oneLined_unparseBody (lawful.identifier_name id) rootValid valid
  exact ((((((((head.append used).append types).append struct).append fields).append close).append
    (oneLined_accessorBlock type absentable)).append blank).append
    (oneLined_unparseLines type body)).append
    (oneLined_capabilityLines type (lacks_capabilities lawful (s.name id)))

theorem oneLined_delegateLines (id target : s.Id) : OneLined (delegateLines s id target) := by
  have rule := lacks_ruleName lawful id
  have type := lacks_typeName isForeign_feed lawful id
  have other := lacks_ruleName lawful target
  have held : ∀ name ∈ (if target = id then [] else [typeName s target]), Lacks '\n' name := by
    split
    · exact List.forall_mem_nil _
    · exact List.forall_mem_singleton.mpr (lacks_typeName isForeign_feed lawful target)
  have head : OneLined (header s!"Rule `{s.name id}`: delegates to `{s.name target}`.") :=
    oneLined_header (by simp (disch := decide) [toString, rule, other])
  have used : OneLined [useRuntime s.schema] :=
    List.forall_mem_singleton.mpr (lacks_runtime contained)
  have types := oneLined_useTypes (lacks_used lawful held (s.name id))
  have struct : OneLined [.blank, .plain s!"/// A `{s.name target}` value, seen as `{s.name id}`.",
      .plain "#[derive(Debug)]", .opening s!"pub struct {typeName s id} \x7b",
      .plain s!"/// The `{s.name target}` value.",
      .plain s!"pub {innerField}: {ruleType s target},", .closing "\x7d", .blank] := by
    simp (disch := decide) [OneLined, Line.text, toString, innerField, rule, type, other,
      lacks_ruleType lawful target]
  have body : OneLined [.plain s!"rt::Unparse::unparse(&*self.{innerField})"] := by decide
  exact ((((head.append used).append types).append struct).append
    (oneLined_unparseLines type body)).append
    (oneLined_capabilityLines type (lacks_capabilities lawful (s.name id)))

theorem oneLined_capabilityUnitLines (id : s.Id) (alternatives : List s.Id) :
    OneLined (capabilityUnitLines s id alternatives) := by
  have rule := lacks_ruleName lawful id
  have type := lacks_typeName isForeign_feed lawful id
  have above := lacks_supertraits lawful (s.name id)
  have bounds := Text.lacks_intercalate (by decide : Lacks '\n' " + ")
    (List.forall_mem_cons.mpr ⟨(by decide : Lacks '\n' "rt::Unparse"), above⟩)
  have head : OneLined
      (header s!"Rule `{s.name id}`: a capability shared by its alternatives.") :=
    oneLined_header (by simp (disch := decide) [toString, rule])
  have used : OneLined [useRuntime s.schema] :=
    List.forall_mem_singleton.mpr (lacks_runtime contained)
  have doc : OneLined
      [.blank, .plain s!"/// Anything that may stand where `{s.name id}` is expected."] := by
    simp (disch := decide) [OneLined, Line.text, toString, rule]
  have names := oneLined_implementors
    (List.forall_mem_map.mpr fun alternative (_ : alternative ∈ alternatives) =>
      lacks_ruleName lawful alternative)
  refine ((((head.append used).append (oneLined_useTypes above)).append doc).append names).append ?_
  simp (disch := decide) [OneLined, Line.text, toString, type, bounds]

/-- In the file of a rule only the runtime and the vocabulary could bring line feeds. -/
theorem oneLined_ruleLines (id : s.Id) : OneLined (ruleLines s id) := by
  unfold ruleLines
  cases hp : s.plan id with
  | shape root steps => exact oneLined_shapeLines lawful contained hp
  | delegate target => exact oneLined_delegateLines lawful contained id target
  | choice alternatives => exact oneLined_capabilityUnitLines lawful contained id alternatives

end

/-! ### Functions -/

omit lawful in
theorem oneLined_lines {doc body : List Line} {name parameters result : String}
    (hd : OneLined doc) (hn : Lacks '\n' name) (hp : Lacks '\n' parameters)
    (hr : Lacks '\n' result) (hb : OneLined body) :
    OneLined (Function.lines ⟨doc, name, parameters, result, body⟩) := by
  have first : OneLined [.opening s!"pub fn {name}({parameters}) -> {result} \x7b"] := by
    simp (disch := decide) [OneLined, Line.text, toString, hn, hp, hr]
  exact ((hd.append first).append hb).append (by decide)

omit lawful in
theorem oneLined_testDoc {rule : String} (h : Lacks '\n' rule) : OneLined (testDoc rule) := by
  simp (disch := decide) [OneLined, testDoc, Line.text, toString, h]

omit lawful in
theorem oneLined_makeDoc {summary : String} (h : Lacks '\n' summary) :
    OneLined (makeDoc summary) := by
  simp (disch := decide) [OneLined, makeDoc, Line.text, toString, h]

omit lawful in
theorem oneLined_parseDoc {rule : String} (h : Lacks '\n' rule) {detail : List String}
    (hd : ∀ text ∈ detail, Lacks '\n' text) : OneLined (parseDoc rule detail) := by
  have each : OneLined (detail.flatMap fun text => [.plain s!"/// {text}", .plain "///"]) := by
    refine oneLined_flatMap fun text ht => ?_
    simp (disch := decide) [OneLined, Line.text, toString, hd text ht]
  refine OneLined.append (OneLined.append ?_ each) (by decide)
  simp (disch := decide) [OneLined, Line.text, toString, h]

omit lawful in
theorem lacks_resultOf {type : String} (h : Lacks '\n' type) : Lacks '\n' (resultOf type) := by
  simp (disch := decide) [resultOf, toString, h]

theorem lacks_testName (id : s.Id) : Lacks '\n' (testName s id) :=
  lacks_functionName isForeign_feed lawful id .test

theorem lacks_parseName (id : s.Id) : Lacks '\n' (parseName s id) :=
  lacks_functionName isForeign_feed lawful id .read

theorem lacks_makeName (id : s.Id) : Lacks '\n' (makeName s id) :=
  lacks_functionName isForeign_feed lawful id .make

theorem lacks_testArgument {accept : Accept s.size}
    (valid : ∀ kind ∈ acceptKinds accept, Text.Identifier kind) :
    Lacks '\n' (testArgument s accept) := by
  cases accept with
  | token kind =>
      have constant := lacks_kindConstant isForeign_feed (valid kind List.mem_cons_self)
      change Lacks '\n' s!"|t: &rt::Tree| t.is({kindConstant kind})"
      simp (disch := decide) [toString, constant]
  | rule id => exact lacks_testName lawful id

theorem lacks_readArgument (accept : Accept s.size) : Lacks '\n' (readArgument s accept) := by
  cases accept with
  | token kind =>
      change Lacks '\n' "|t: &rt::Tree| Ok(t.clone())"
      decide
  | rule id =>
      have name := lacks_parseName lawful id
      simp only [readArgument]
      split
      · exact name
      · simp (disch := decide) [toString, name]

theorem lacks_takeLine {step : Step s.size} (field : Text.Identifier step.field)
    (valid : ∀ kind ∈ stepKinds step, Text.Identifier kind) :
    Lacks '\n' (takeLine s step).text := by
  have quoted := lacks_quote isForeign_feed field
  have binding := lacks_localIdent isForeign_feed field
  cases step with
  | text field optional =>
      simp only [Step.field] at quoted binding
      cases optional <;>
        simp (disch := decide) [takeLine, Line.text, Step.field, toString, quoted, binding]
  | child field accept quantifier =>
      simp only [Step.field] at quoted binding
      have test := lacks_testArgument lawful valid
      have read := lacks_readArgument lawful accept
      cases quantifier <;>
        simp (disch := decide) [takeLine, Line.text, Step.field, toString, quoted, binding, test,
          read]

theorem oneLined_takeLines {steps : List (Step s.size)}
    (valid : ∀ step ∈ steps, Text.Identifier step.field ∧
      ∀ kind ∈ stepKinds step, Text.Identifier kind) : OneLined (takeLines s steps) := by
  have each : OneLined (steps.map (takeLine s)) :=
    List.forall_mem_map.mpr fun step hs => lacks_takeLine lawful (valid step hs).1 (valid step hs).2
  cases steps with
  | nil => exact List.forall_mem_singleton.mpr (by decide)
  | cons first rest =>
      exact List.forall_mem_cons.mpr
        ⟨by decide, each.append (List.forall_mem_singleton.mpr (by decide))⟩

omit lawful in
theorem oneLined_kindGuard {kind : String} (h : Lacks '\n' kind) : OneLined (kindGuard kind) := by
  simp (disch := decide) [OneLined, kindGuard, Line.text, toString, h]

theorem oneLined_shapeFunctions {id : s.Id} {root : String} {steps : List (Step s.size)}
    (hp : s.plan id = .shape root steps) :
    ∀ f ∈ shapeFunctions s id root steps, OneLined f.lines := by
  obtain ⟨rootValid, valid⟩ := identifiers_of_shape lawful hp
  have rule := lacks_ruleName lawful id
  have type := lacks_typeName isForeign_feed lawful id
  have kind := lacks_kindConstant isForeign_feed rootValid
  have quoted := lacks_quote isForeign_feed (lawful.identifier_name id)
  have inits : Lacks '\n'
      (structLiteral (typeName s id) (steps.map fun step => fieldInit step.field)) :=
    lacks_structLiteral isForeign_feed type
      (List.forall_mem_map.mpr fun step hs => lacks_fieldInit isForeign_feed (valid step hs).1)
  have idents : Lacks '\n'
      (structLiteral (typeName s id) (steps.map fun step => fieldIdent step.field)) :=
    lacks_structLiteral isForeign_feed type
      (List.forall_mem_map.mpr fun step hs => lacks_fieldIdent isForeign_feed (valid step hs).1)
  have parameters : ∀ parameter ∈
      steps.map (fun step => s!"{fieldIdent step.field}: {fieldType s step}"),
      Lacks '\n' parameter := by
    rw [List.forall_mem_map]
    intro step hs
    have ident := lacks_fieldIdent isForeign_feed (valid step hs).1
    simp (disch := decide) [toString, ident, lacks_fieldType lawful step]
  simp only [shapeFunctions, List.forall_mem_cons]
  refine ⟨?_, ?_, ?_, List.forall_mem_nil _⟩
  · apply oneLined_lines (oneLined_testDoc rule) (lacks_testName lawful id) (by decide) (by decide)
    simp (disch := decide) [OneLined, Line.text, toString, kind]
  · apply oneLined_lines (oneLined_parseDoc rule (List.forall_mem_nil _))
      (lacks_parseName lawful id) (by decide) (lacks_resultOf type)
    refine OneLined.append (OneLined.append (OneLined.append (OneLined.append ?_
      (oneLined_kindGuard kind)) (by decide)) (oneLined_takeLines lawful valid)) ?_
    · simp (disch := decide) [OneLined, Line.text, toString, quoted]
    · simp (disch := decide) [OneLined, Line.text, toString, inits]
  · have summary : Lacks '\n' s!"Builds a `{s.name id}` node from its field values." := by
      simp (disch := decide) [toString, rule]
    apply oneLined_lines (oneLined_makeDoc summary) (lacks_makeName lawful id)
      (Text.lacks_intercalate (by decide) parameters) type
    exact List.forall_mem_singleton.mpr idents

theorem oneLined_delegateFunctions (id target : s.Id) :
    ∀ f ∈ delegateFunctions s id target, OneLined f.lines := by
  have rule := lacks_ruleName lawful id
  have other := lacks_ruleName lawful target
  have type := lacks_typeName isForeign_feed lawful id
  have test := lacks_testName lawful target
  have read := lacks_parseName lawful target
  have inner : Lacks '\n' innerField := by decide
  simp only [delegateFunctions, List.forall_mem_cons]
  refine ⟨?_, ?_, ?_, List.forall_mem_nil _⟩
  · apply oneLined_lines (oneLined_testDoc rule) (lacks_testName lawful id) (by decide) (by decide)
    simp (disch := decide) [OneLined, Line.text, toString, test]
  · apply oneLined_lines (oneLined_parseDoc rule (List.forall_mem_nil _))
      (lacks_parseName lawful id) (by decide) (lacks_resultOf type)
    simp (disch := decide) [OneLined, Line.text, structLiteral, toString, type, read,
      apply_ite (Lacks '\n')]
  · have summary : Lacks '\n' s!"Wraps a `{s.name target}` value as `{s.name id}`." := by
      simp (disch := decide) [toString, rule, other]
    have parameter : Lacks '\n' s!"{innerField}: {ruleType s target}" := by
      simp (disch := decide) [toString, lacks_ruleType lawful target]
    have literal : Lacks '\n' (structLiteral (typeName s id) [innerField]) :=
      lacks_structLiteral isForeign_feed type (List.forall_mem_singleton.mpr inner)
    apply oneLined_lines (oneLined_makeDoc summary) (lacks_makeName lawful id) parameter type
    exact List.forall_mem_singleton.mpr literal

theorem oneLined_choiceFunctions (id : s.Id) (alternatives : List s.Id) :
    ∀ f ∈ choiceFunctions s id alternatives, OneLined f.lines := by
  have rule := lacks_ruleName lawful id
  have type := lacks_typeName isForeign_feed lawful id
  have quoted := lacks_quote isForeign_feed (lawful.identifier_name id)
  have tests : ∀ test ∈ alternatives.map fun a => s!"{testName s a}(tree)", Lacks '\n' test := by
    rw [List.forall_mem_map]
    intro alternative _
    simp (disch := decide) [toString, lacks_testName lawful alternative]
  have list := Text.lacks_intercalate (by decide : Lacks '\n' " || ") tests
  have dispatch : OneLined (alternatives.flatMap (dispatchLines s (typeName s id))) := by
    refine oneLined_flatMap fun alternative _ => ?_
    simp (disch := decide) [OneLined, dispatchLines, Line.text, toString, type,
      lacks_testName lawful alternative, lacks_parseName lawful alternative,
      apply_ite (Lacks '\n')]
  have last : OneLined (noAlternativeLines (s.name id)) := by
    simp (disch := decide) [OneLined, noAlternativeLines, Line.text, toString, quoted]
  simp only [choiceFunctions, List.forall_mem_cons]
  refine ⟨?_, ?_, List.forall_mem_nil _⟩
  · apply oneLined_lines (oneLined_testDoc rule) (lacks_testName lawful id) _ (by decide)
    · refine List.forall_mem_singleton.mpr ?_
      rw [Line.text]
      split
      · decide
      · exact list
    · rw [apply_ite (Lacks '\n')]
      split <;> decide
  · apply oneLined_lines (oneLined_parseDoc rule _) (lacks_parseName lawful id) (by decide)
      (lacks_resultOf _) (dispatch.append last)
    · exact List.forall_mem_singleton.mpr (Text.lacks_of_all (by decide))
    · simp (disch := decide) [toString, type]

theorem oneLined_of_mem_ruleFunctions {id : s.Id} :
    ∀ f ∈ ruleFunctions s id, OneLined f.lines := by
  unfold ruleFunctions
  cases hp : s.plan id with
  | shape root steps => exact oneLined_shapeFunctions lawful hp
  | delegate target => exact oneLined_delegateFunctions lawful id target
  | choice alternatives => exact oneLined_choiceFunctions lawful id alternatives

/-- Functions keep to their lines whatever the schema has written as it is. -/
theorem oneLined_functions : OneLined ((functions s).flatMap fun f => .blank :: f.lines) := by
  refine oneLined_flatMap fun f hf => List.forall_mem_cons.mpr ⟨by decide, ?_⟩
  obtain ⟨id, _, hf⟩ := List.mem_flatMap.mp hf
  exact oneLined_of_mem_ruleFunctions lawful f hf

/-! ### The files of the package -/

section

variable (contained : s.schema.Contained)
include contained

omit lawful in
theorem lacks_packageName : Lacks '\n' (packageName s.schema) :=
  Text.lacks_intercalate (by decide) contained.package

theorem oneLined_parserPreamble : OneLined (parserPreamble s) := by
  have package := lacks_packageName contained
  have types : Lacks '\n' (", ".intercalate (s.ids.map (typeName s))) :=
    Text.lacks_intercalate (by decide)
      (List.forall_mem_map.mpr fun id _ => lacks_typeName isForeign_feed lawful id)
  have head : OneLined (header
      s!"Membership tests, parsers and constructors for package `{packageName s.schema}`.") :=
    oneLined_header (by simp (disch := decide) [toString, package])
  have runtime : OneLined
      [.plain "#![allow(clippy::too_many_arguments)]", .blank, useRuntime s.schema] := by
    simp only [OneLined, List.forall_mem_cons]
    exact ⟨by decide, by decide, lacks_runtime contained, List.forall_mem_nil _⟩
  refine OneLined.append (OneLined.append (head.append runtime) ?_) ?_
  · split
    · exact List.forall_mem_singleton.mpr (lacks_tokens contained)
    · exact List.forall_mem_nil _
  · split
    · exact List.forall_mem_nil _
    · simp (disch := decide) [OneLined, Line.text, toString, braced, types]

theorem oneLined_parserLines : OneLined (parserLines s) :=
  (oneLined_parserPreamble lawful contained).append (oneLined_functions lawful)

theorem oneLined_modLines : OneLined (modLines s) := by
  have package := lacks_packageName contained
  have head : OneLined (header s!"Package `{packageName s.schema}`.") :=
    oneLined_header (by simp (disch := decide) [toString, package])
  have ident (id : s.Id) : Lacks '\n' (fieldIdent (s.name id)) :=
    lacks_fieldIdent isForeign_feed (lawful.identifier_name id)
  refine OneLined.append (OneLined.append (OneLined.append (head.append ?_) (by decide)) ?_) ?_
  · refine List.forall_mem_map.mpr fun id _ => ?_
    simp (disch := decide) [Line.text, toString, ident]
  · split <;> decide
  · refine List.forall_mem_map.mpr fun id _ => ?_
    simp (disch := decide) [Line.text, toString, ident, lacks_typeName isForeign_feed lawful id]

end

end

end Code
end TreeShape
