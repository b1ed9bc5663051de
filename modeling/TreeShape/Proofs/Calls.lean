import TreeShape.Proofs.Functions

/-!
What the bodies of functions mention. A body is made of fixed code and of names that stand apart in
it: those of the rule itself, and those of functions of the package.
-/

namespace TreeShape.Code

theorem isReader_of_head? {word : String} (hc : word.toList.head? ≠ some 'c')
    (hp : word.toList.head? ≠ some 'p') : isReader word = false := by
  unfold isReader
  cases h : word.toList with
  | nil => rfl
  | cons first rest =>
      rw [h, List.head?_cons] at hc hp
      have hc : ('c' == first) = false := by simpa using fun he => hc (by rw [he])
      have hp : ('p' == first) = false := by simpa using fun he => hp (by rw [he])
      simp [List.isPrefixOf, hc, hp]

theorem isReader_of_append {name rule : String}
    (h : name = "can_parse_" ++ rule ∨ name = "parse_" ++ rule) : isReader name = true := by
  obtain rfl | rfl := h <;> simp [isReader]

/-- No type is called as a function is. -/
theorem isReader_typeIdent (name : String) : isReader (typeIdent name) = false := by
  apply isReader_of_head?
  · exact fun hc => absurd (isLower_of_head?_typeIdent hc) (by decide)
  · exact fun hp => absurd (isLower_of_head?_typeIdent hp) (by decide)

variable {names : List String}

theorem said_identifier {name : String} (h : ∀ c ∈ name.toList, Text.isIdentifierPart c = true)
    (hn : isReader (identifier name) = true → identifier name ∈ names) :
    Said names (identifier name) := by
  unfold identifier at hn ⊢
  split
  · next keyword =>
    have quiet : ∀ keyword ∈ keywords, isReader keyword = false := by decide
    have this := quiet name (by simpa using keyword)
    rw [said_append_of_closesWith (by decide)]
    exact ⟨said_of_codeWords (by decide), said_of_identifier h (by simp [this])⟩
  · next keyword =>
    rw [if_neg keyword] at hn
    apply said_of_identifier _ hn
    obtain same | longer := toList_unreserved name
    · rwa [same]
    · rw [longer, List.forall_mem_append]
      exact ⟨h, List.all_eq_true.mp (by decide)⟩

theorem said_fieldIdent {field : String} (valid : Text.Identifier field)
    (hn : fieldIdent field ∈ names) : Said names (fieldIdent field) := by
  apply said_identifier _ fun _ => hn
  intro c hc
  exact isIdentifierPart_iff.mpr (.inr (isSmall_snakeCase valid c hc))

theorem said_localIdent {field : String} (valid : Text.Identifier field)
    (hn : localIdent field ∈ names) : Said names (localIdent field) := by
  obtain longer | same := localIdent_eq_or field
  · have quiet : ∀ name ∈ ["tree_value", "rest_value"],
        (Text.codeWords name).all (!isReader ·) = true :=
      List.all_iff_forall_prop.mp (by decide)
    exact said_of_codeWords (quiet _ longer)
  · rw [same] at hn ⊢
    exact said_fieldIdent valid hn

theorem said_typeIdent {name : String} (valid : Text.Identifier name) :
    Said names (typeIdent name) := by
  apply said_identifier
  · rw [upperCamelCase, String.toList_ofList]
    exact isIdentifierPart_camelChars valid.isIdentifierPart true
  · intro reader
    have whole : identifier (upperCamelCase name) = typeIdent name := rfl
    rw [whole, isReader_typeIdent] at reader
    cases reader

theorem escapeChar_of_isIdentifierPart {c : Char} (h : Text.isIdentifierPart c = true) :
    Text.escapeChar c = [c] := by
  have code : 0x20 ≤ c.toNat ∧ c.toNat ≤ 0x7e := by
    obtain upper | letter | digit | rfl := isIdentifierPart_iff.mp h
    · have bounds : 65 ≤ c.toNat ∧ c.toNat ≤ 90 := of_decide_eq_true upper
      omega
    · have bounds : 97 ≤ c.toNat ∧ c.toNat ≤ 122 := letter
      omega
    · have bounds : 48 ≤ c.toNat ∧ c.toNat ≤ 57 := digit
      omega
    · decide
  have standalone : Text.isStandalone c = true := by
    refine List.any_eq_true.mpr ⟨⟨0x20, 0x7e, 1⟩, List.mem_cons_self, ?_⟩
    simp [Text.CharRun.contains, code, Nat.mod_one]
  have other (special : Char) (hs : Text.isIdentifierPart special = false) : c ≠ special := by
    rintro rfl
    simp [hs] at h
  unfold Text.escapeChar
  rw [if_neg (other _ (by decide)), if_neg (other _ (by decide)), if_neg (other _ (by decide)),
    if_neg (other _ (by decide)), if_neg (other _ (by decide)), if_neg (other _ (by decide)),
    if_pos standalone]

/-- Names need no escapes. -/
theorem quote_of_identifier {name : String} (valid : Text.Identifier name) :
    Text.quote name = "\"" ++ name ++ "\"" := by
  have plain : name.toList.flatMap Text.escapeChar = name.toList := by
    rw [List.flatMap_congr fun c hc => escapeChar_of_isIdentifierPart (valid.isIdentifierPart c hc)]
    exact List.flatMap_singleton' _
  rw [← String.toList_inj, Text.quote, String.toList_ofList, Text.quoteChars, plain]
  simp

theorem said_quote {name : String} (valid : Text.Identifier name) (hn : name ∈ names) :
    Said names (Text.quote name) := by
  have whole : Said names name := said_of_identifier valid.isIdentifierPart fun _ => hn
  rw [quote_of_identifier valid]
  simp (disch := decide) [whole]

theorem said_kindConstant {kind : String} (valid : Text.Identifier kind) (hn : kind ∈ names) :
    Said names (kindConstant kind) := by
  have whole : Said names kind := said_of_identifier valid.isIdentifierPart fun _ => hn
  simp (disch := decide) [kindConstant, toString, whole]

variable {s : Shapes}

theorem isReader_testName (id : s.Id) : isReader (testName s id) = true :=
  isReader_of_append (.inl rfl)

theorem isReader_parseName (id : s.Id) : isReader (parseName s id) = true :=
  isReader_of_append (.inr rfl)

variable (lawful : s.Lawful)
include lawful

theorem said_functionName {id : s.Id} (role : Role) (hn : functionName s id role ∈ names) :
    Said names (functionName s id role) := by
  apply said_of_identifier _ fun _ => hn
  intro c hc
  exact isIdentifierPart_iff.mpr (.inr (isSmall_functionName lawful id role c hc))

theorem said_testName {id : s.Id} (hn : testName s id ∈ names) : Said names (testName s id) :=
  said_functionName lawful .test hn

theorem said_parseName {id : s.Id} (hn : parseName s id ∈ names) : Said names (parseName s id) :=
  said_functionName lawful .read hn

theorem said_typeName (id : s.Id) : Said names (typeName s id) :=
  said_typeIdent (lawful.identifier_name id)

/-- The kinds that a step takes. -/
def acceptKinds {n : Nat} : Accept n → List String
  | .token kind => [kind]
  | .rule _ => []

def stepKinds {n : Nat} : Step n → List String
  | .text _ _ => []
  | .child _ accept _ => acceptKinds accept

/-- The names that a step itself brings into code. -/
def stepNames {n : Nat} (step : Step n) : List String :=
  step.field :: fieldIdent step.field :: localIdent step.field :: stepKinds step

/-- The names of a rule that the functions for it use, those of other rules aside. -/
def ownNames {n : Nat} (rule : String) : Plan n → List String
  | .shape root steps => rule :: root :: steps.flatMap stepNames
  | .delegate _ | .choice _ => [rule]

section

variable (known : ∀ id : s.Id, testName s id ∈ names ∧ parseName s id ∈ names)
include known

theorem said_testArgument {accept : Accept s.size}
    (valid : ∀ kind ∈ acceptKinds accept, Text.Identifier kind)
    (kinds : acceptKinds accept ⊆ names) : Said names (testArgument s accept) := by
  cases accept with
  | token kind =>
      have hk : kind ∈ acceptKinds (.token kind : Accept s.size) := List.mem_cons_self
      have said := said_kindConstant (valid kind hk) (kinds hk)
      change Said names s!"|t: &rt::Tree| t.is({kindConstant kind})"
      simp (disch := decide) [toString, said]
  | rule id => exact said_testName lawful (known id).1

theorem said_readArgument (accept : Accept s.size) : Said names (readArgument s accept) := by
  cases accept with
  | token kind =>
      rw [readArgument]
      exact said_of_codeWords (by decide)
  | rule id =>
      have said := said_parseName lawful (known id).2
      simp only [readArgument]
      split
      · exact said
      · simp (disch := decide) [toString, said]

theorem said_takeLine {step : Step s.size} (field : Text.Identifier step.field)
    (valid : ∀ kind ∈ stepKinds step, Text.Identifier kind) (own : stepNames step ⊆ names) :
    Said names (takeLine s step).text := by
  obtain ⟨hf, -, hb, kinds⟩ : step.field ∈ names ∧ fieldIdent step.field ∈ names ∧
      localIdent step.field ∈ names ∧ stepKinds step ⊆ names := by
    simpa [stepNames] using own
  have quoted := said_quote field hf
  have binding := said_localIdent field hb
  cases step with
  | text field optional =>
      simp only [Step.field] at quoted binding
      cases optional <;>
        simp (disch := decide) [takeLine, Line.text, Step.field, toString, quoted, binding]
  | child field accept quantifier =>
      simp only [Step.field] at quoted binding
      have test := said_testArgument lawful known valid kinds
      have read := said_readArgument lawful known accept
      cases quantifier <;>
        simp (disch := decide) [takeLine, Line.text, Step.field, toString, quoted, binding, test,
          read]

omit lawful known in
theorem said_structLiteral {type : String} {fields : List String} (said : Said names type)
    (h : ∀ field ∈ fields, Said names field) : Said names (structLiteral type fields) := by
  cases fields with
  | nil => simp (disch := decide) [structLiteral, toString, said]
  | cons first rest =>
      have list := said_intercalate (b := ", ") (by decide) (by decide)
        (said_of_codeWords (by decide)) h
      simp (disch := decide) [structLiteral, toString, said, list]

omit lawful known in
theorem said_fieldInit {field : String} (valid : Text.Identifier field)
    (hi : fieldIdent field ∈ names) (hb : localIdent field ∈ names) :
    Said names (fieldInit field) := by
  have ident := said_fieldIdent valid hi
  have binding := said_localIdent valid hb
  unfold fieldInit
  split
  · exact ident
  · simp (disch := decide) [toString, ident, binding]

omit lawful known in
theorem said_kindGuard {kind : String} (said : Said names kind) :
    ∀ line ∈ kindGuard kind, Said names line.text := by
  simp (disch := decide) [kindGuard, Line.text, toString, said]

omit known in
theorem identifiers_of_shape {id : s.Id} {root : String} {steps : List (Step s.size)}
    (hp : s.plan id = .shape root steps) :
    Text.Identifier root ∧ ∀ step ∈ steps, Text.Identifier step.field ∧
      ∀ kind ∈ stepKinds step, Text.Identifier kind := by
  obtain ⟨body, has, rfl, resolves⟩ := lawful.body_of_shape hp
  have valid := lawful.body_wellFormed has
  refine ⟨(valid.root has.2).1, fun step hs => ?_⟩
  obtain ⟨item, hi, resolved⟩ := exists_mem_of_forall₂ resolves.flip hs
  have valid := valid.items item hi
  cases resolved with
  | text target | rule target => exact ⟨valid.field, by simp [stepKinds, acceptKinds]⟩
  | @token kind target =>
      refine ⟨valid.field, ?_⟩
      simpa [stepKinds, acceptKinds] using (valid.token kind target).1

theorem said_takeLines {steps : List (Step s.size)}
    (valid : ∀ step ∈ steps, Text.Identifier step.field ∧
      ∀ kind ∈ stepKinds step, Text.Identifier kind)
    (own : steps.flatMap stepNames ⊆ names) : ∀ line ∈ takeLines s steps, Said names line.text := by
  have each : ∀ step ∈ steps, Said names (takeLine s step).text := by
    intro step hs
    apply said_takeLine lawful known (valid step hs).1 (valid step hs).2
    exact fun name hn => own (List.mem_flatMap.mpr ⟨step, hs, hn⟩)
  cases steps with
  | nil =>
      simp only [takeLines, List.forall_mem_singleton]
      exact said_of_codeWords (by decide)
  | cons first rest =>
      change ∀ line ∈ _ :: (first :: rest).map (takeLine s) ++ [_], _
      rw [List.forall_mem_append, List.forall_mem_cons, List.forall_mem_map,
        List.forall_mem_singleton]
      exact ⟨⟨said_of_codeWords (by decide), each⟩, said_of_codeWords (by decide)⟩

theorem said_shapeFunctions {id : s.Id} {root : String} {steps : List (Step s.size)}
    (hp : s.plan id = .shape root steps) {f : Function} (hf : f ∈ shapeFunctions s id root steps)
    (own : ownNames (s.name id) (.shape root steps) ⊆ names) :
    ∀ line ∈ f.body, Said names line.text := by
  obtain ⟨rootValid, valid⟩ := identifiers_of_shape lawful hp
  obtain ⟨hr, hk, own⟩ : s.name id ∈ names ∧ root ∈ names ∧ steps.flatMap stepNames ⊆ names := by
    simpa [ownNames] using own
  have ownStep : ∀ step ∈ steps, fieldIdent step.field ∈ names ∧ localIdent step.field ∈ names := by
    intro step hs
    have sub : stepNames step ⊆ names :=
      fun name hn => own (List.mem_flatMap.mpr ⟨step, hs, hn⟩)
    exact ⟨sub (by simp [stepNames]), sub (by simp [stepNames])⟩
  have kind := said_kindConstant rootValid hk
  have quoted := said_quote (lawful.identifier_name id) hr
  have type : Said names (typeName s id) := said_typeName lawful id
  simp only [shapeFunctions, List.mem_cons, List.not_mem_nil, or_false] at hf
  obtain rfl | rfl | rfl := hf
  · simp (disch := decide) [Line.text, toString, kind]
  · have literal : Said names
        (structLiteral (typeName s id) (steps.map fun step => fieldInit step.field)) := by
      apply said_structLiteral type
      rw [List.forall_mem_map]
      exact fun step hs => said_fieldInit (valid step hs).1 (ownStep step hs).1 (ownStep step hs).2
    simp only [List.forall_mem_append]
    refine ⟨⟨⟨⟨?_, said_kindGuard kind⟩, ?_⟩, said_takeLines lawful known valid own⟩, ?_⟩
    · simp (disch := decide) [Line.text, toString, quoted]
    · simp (disch := decide) [Line.text]
    · simp (disch := decide) [Line.text, toString, literal]
  · rw [List.forall_mem_singleton]
    apply said_structLiteral type
    rw [List.forall_mem_map]
    exact fun step hs => said_fieldIdent (valid step hs).1 (ownStep step hs).1

theorem said_delegateFunctions {id target : s.Id} {f : Function}
    (hf : f ∈ delegateFunctions s id target) : ∀ line ∈ f.body, Said names line.text := by
  have type : Said names (typeName s id) := said_typeName lawful id
  simp only [delegateFunctions, List.mem_cons, List.not_mem_nil, or_false] at hf
  obtain rfl | rfl | rfl := hf
  · have test := said_testName lawful (known target).1
    simp (disch := decide) [Line.text, toString, test]
  · have read := said_parseName lawful (known target).2
    simp (disch := decide) [Line.text, structLiteral, toString, type, read, apply_ite (Said names)]
  · simp (disch := decide) [Line.text, structLiteral, toString, type]

theorem said_dispatchLines {type : String} (said : Said names type) (alternative : s.Id) :
    ∀ line ∈ dispatchLines s type alternative, Said names line.text := by
  have test := said_testName lawful (known alternative).1
  have read := said_parseName lawful (known alternative).2
  simp (disch := decide) [dispatchLines, Line.text, toString, said, test, read,
    apply_ite (Said names)]

omit lawful known in
theorem said_noAlternativeLines {rule : String} (valid : Text.Identifier rule) (hr : rule ∈ names) :
    ∀ line ∈ noAlternativeLines rule, Said names line.text := by
  have quoted := said_quote valid hr
  simp (disch := decide) [noAlternativeLines, Line.text, toString, quoted]

theorem said_choiceFunctions {id : s.Id} {alternatives : List s.Id} {f : Function}
    (hf : f ∈ choiceFunctions s id alternatives) (own : s.name id ∈ names) :
    ∀ line ∈ f.body, Said names line.text := by
  simp only [choiceFunctions, List.mem_cons, List.not_mem_nil, or_false] at hf
  obtain rfl | rfl := hf
  · have tests : ∀ test ∈ alternatives.map fun a => s!"{testName s a}(tree)", Said names test := by
      rw [List.forall_mem_map]
      intro alternative _
      have test := said_testName lawful (known alternative).1
      simp (disch := decide) [toString, test]
    have list := said_intercalate (b := " || ") (by decide) (by decide)
      (said_of_codeWords (by decide)) tests
    rw [List.forall_mem_singleton, Line.text]
    split
    · exact said_of_codeWords (by decide)
    · exact list
  · rw [List.forall_mem_append, List.forall_mem_flatMap]
    exact ⟨fun alternative _ =>
        said_dispatchLines lawful known (said_typeName lawful id) alternative,
      said_noAlternativeLines (lawful.identifier_name id) own⟩

end

/-- Whatever could be a function in the body of a function is one, or is a name of the rule. -/
theorem mem_functions_or_mem_ownNames {id : s.Id} {f : Function} (hf : f ∈ ruleFunctions s id)
    {line : Line} (hl : line ∈ f.body) {word : String} (hw : word ∈ Text.codeWords line.text)
    (reader : isReader word = true) :
    word ∈ (functions s).map (·.name) ∨ word ∈ ownNames (s.name id) (s.plan id) := by
  let names := (functions s).map (·.name) ++ ownNames (s.name id) (s.plan id)
  have known (id : s.Id) : testName s id ∈ names ∧ parseName s id ∈ names :=
    ⟨List.mem_append_left _ (testName_mem id), List.mem_append_left _ (parseName_mem id)⟩
  have own : ownNames (s.name id) (s.plan id) ⊆ names := List.subset_append_right _ _
  have said : Said names line.text := by
    unfold ruleFunctions at hf
    cases hp : s.plan id with
    | shape root steps =>
        rw [hp] at hf own
        exact said_shapeFunctions lawful known hp hf own line hl
    | delegate target =>
        rw [hp] at hf
        exact said_delegateFunctions lawful known hf line hl
    | choice alternatives =>
        rw [hp] at hf own
        exact said_choiceFunctions lawful known hf (own List.mem_cons_self) line hl
  exact List.mem_append.mp (said word hw reader)

end TreeShape.Code
