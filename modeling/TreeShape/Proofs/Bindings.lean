import TreeShape.Proofs.Calls

/-!
What a line of generated code binds, and what it refers to. Both are read off the parts of the line.
The line of a step binds the local of its field; what it refers to, paths and constants aside, are
the function's own variables and the functions that the step calls.
-/

namespace TreeShape.Code

/-- Whether a character only keeps apart what stands on both sides of it. -/
def isSeparator (c : Char) : Bool :=
  " (),;|?&".toList.contains c

/-- The names, paths, literals and signs of a line of code. -/
def parts (text : String) : List String :=
  ((Text.splitAtMarks isSeparator text.toList).map String.ofList).filter (· != "")

/-- The local that a line of code binds first. -/
def boundLocal? (text : String) : Option String :=
  match parts text with
  | first :: name :: _ => if first = "let" then some name else none
  | _ => none

/-- What a line that binds a local refers to: all that stands after the sign, except for what a
closure on the line has as its parameter. -/
def referred (text : String) : List String :=
  ((parts text).dropWhile (· != "=")).filter fun part => !(parts text).contains (part ++ ":")

def Line.local? (line : Line) : Option String :=
  boundLocal? line.text

def Line.refers (line : Line) : List String :=
  referred line.text

section

open Text (opensWith closesWith)

variable {a b c : String}

theorem piecewise_parts : Text.Piecewise isSeparator parts where
  empty := by decide
  append_mark mark a b := by
    simp only [parts, String.toList_ofList, Text.splitAtMarks_append_mark mark, List.map_append,
      List.filter_append]

@[simp] theorem parts_append_of_opensWith (h : opensWith isSeparator b = true) :
    parts (a ++ b) = parts a ++ parts b :=
  piecewise_parts.append_of_opensWith h

@[simp] theorem parts_append_of_closesWith (h : closesWith isSeparator a = true) :
    parts (a ++ b) = parts a ++ parts b :=
  piecewise_parts.append_of_closesWith h

@[simp] theorem parts_between (h : closesWith isSeparator b = true) :
    parts (a ++ b ++ c) = parts (a ++ b) ++ parts c :=
  parts_append_of_closesWith (Text.closesWith_append h)

/-- A text without separators is one part. -/
theorem parts_of_whole (some : a ≠ "") (h : ∀ c ∈ a.toList, isSeparator c = false) :
    parts a = [a] := by
  rw [parts, Text.splitAtMarks_of_unmarked h]
  simp [some]

end

theorem boundLocal?_of_first {text first : String} {rest : List String}
    (h : parts text = first :: rest) (other : first ≠ "let") : boundLocal? text = none := by
  rw [boundLocal?, h]
  split
  · next same => exact if_neg fun keyword => other ((List.cons.inj same).1.trans keyword)
  · rfl

/-- A line that begins with other code binds no local. -/
theorem boundLocal?_of_append {before name after : String}
    (closes : Text.closesWith isSeparator before = true)
    (begins : (parts before).head?.any (· != "let") = true) :
    boundLocal? (before ++ name ++ after) = none := by
  obtain ⟨first, head, other⟩ := (Option.any_eq_true _ _).mp begins
  obtain ⟨rest, begins⟩ := List.head?_eq_some_iff.mp head
  have whole : parts (before ++ name ++ after) = first :: (rest ++ parts (name ++ after)) := by
    rw [String.append_assoc, parts_append_of_closesWith closes, begins, List.cons_append]
  exact boundLocal?_of_first whole (bne_iff_ne.mp other)

theorem local?_kindGuard (kind : String) : ∀ line ∈ kindGuard kind, line.local? = none := by
  simp only [kindGuard, List.forall_mem_cons]
  refine ⟨?_, by decide, by decide, by decide, ?_, by decide, by decide, by decide, by decide, ?_⟩
  · exact boundLocal?_of_append (by decide) (by decide)
  · exact boundLocal?_of_append (by decide) (by decide)
  · exact List.forall_mem_nil _

theorem isSeparator_of_isIdentifierPart {c : Char} (h : Text.isIdentifierPart c = true) :
    isSeparator c = false := by
  have other : ∀ d ∈ " (),;|?&".toList, Text.isIdentifierPart d = false :=
    List.all_iff_forall_prop.mp (by decide)
  rw [isSeparator, ← Bool.not_eq_true, List.contains_iff_mem]
  intro hc
  simp [other c hc] at h

theorem isSeparator_of_isSmall {c : Char} (h : IsSmall c) : isSeparator c = false :=
  isSeparator_of_isIdentifierPart (isIdentifierPart_iff.mpr (.inr h))

/-- Made of what the names of locals are made of. -/
def IsLocalName (name : String) : Prop :=
  ∀ c ∈ name.toList, IsSmall c ∨ c = '#'

instance (name : String) : Decidable (IsLocalName name) :=
  decidable_of_iff (name.toList.all fun c => decide (IsSmall c ∨ c = '#')) List.all_iff_forall_prop

theorem isLocalName_localIdent {field : String} (valid : Text.Identifier field) :
    IsLocalName (localIdent field) := by
  obtain longer | same := localIdent_eq_or field
  · have each : ∀ name ∈ ["tree_value", "rest_value"], IsLocalName name :=
      List.all_iff_forall_prop.mp (by decide)
    exact each _ longer
  · intro c hc
    rw [same] at hc
    obtain h | ⟨_, h⟩ := fieldIdent_eq_or field
    · exact .inl (isSmall_unitName valid c (h ▸ hc))
    · rw [h, String.toList_append, List.mem_append] at hc
      obtain hc | hc := hc
      · have raw : IsLocalName "r#" := List.all_iff_forall_prop.mp (by decide)
        exact raw c hc
      · exact .inl (isSmall_snakeCase valid c hc)

theorem localIdent_ne_empty {field : String} (valid : Text.Identifier field) :
    localIdent field ≠ "" := by
  intro empty
  obtain longer | same := localIdent_eq_or field
  · rw [empty] at longer
    exact absurd longer (by decide)
  · rw [same] at empty
    obtain h | ⟨_, h⟩ := fieldIdent_eq_or field
    · exact unitName_ne_empty valid (h ▸ empty)
    · simp [h, String.append_eq_empty_iff] at empty

theorem parts_localIdent {field : String} (valid : Text.Identifier field) :
    parts (localIdent field) = [localIdent field] := by
  apply parts_of_whole (localIdent_ne_empty valid)
  intro c hc
  obtain small | rfl := isLocalName_localIdent valid c hc
  · exact isSeparator_of_isSmall small
  · decide

/-- Identifiers in between do not make parts of what has no separators. -/
theorem parts_enclosed {name before after : String} (valid : Text.Identifier name)
    (hb : before.toList.all (!isSeparator ·) = true)
    (ha : after.toList.all (!isSeparator ·) = true) :
    parts (before ++ name ++ after) = [before ++ name ++ after] := by
  apply parts_of_whole
  · intro empty
    have chars := congrArg String.toList empty
    simp [valid.toList_ne_nil] at chars
  · intro c hc
    simp only [String.toList_append, List.mem_append] at hc
    obtain (hc | hc) | hc := hc
    · simpa using List.all_eq_true.mp hb c hc
    · exact isSeparator_of_isIdentifierPart (valid.isIdentifierPart c hc)
    · simpa using List.all_eq_true.mp ha c hc

theorem parts_quote {name : String} (valid : Text.Identifier name) :
    parts (Text.quote name) = [Text.quote name] := by
  rw [quote_of_identifier valid]
  exact parts_enclosed valid (by decide) (by decide)

theorem parts_kindConstant {kind : String} (valid : Text.Identifier kind) :
    parts (kindConstant kind) = [kindConstant kind] := by
  have enclosed : kindConstant kind = "tokens::" ++ kind ++ "" := by
    rw [String.append_empty]
    rfl
  rw [enclosed]
  exact parts_enclosed valid (by decide) (by decide)

/-- What the arguments of a step are made of. -/
def acceptParts (s : Shapes) : Accept s.size → List String
  | .token kind =>
    ["t:", "rt::Tree", "t.is", kindConstant kind, "t:", "rt::Tree", "Ok", "t.clone"]
  | .rule id =>
    if (s.plan id).isChoice then [testName s id, parseName s id]
    else [testName s id, "t:", "rt::Tree", parseName s id, "t", ".map", "Box::new"]

section

variable {s : Shapes} (lawful : s.Lawful)
include lawful

theorem parts_functionName (id : s.Id) (role : Role) :
    parts (functionName s id role) = [functionName s id role] := by
  apply parts_of_whole
  · cases role <;> simp [functionName, Role.stem, String.append_eq_empty_iff]
  · exact fun c hc => isSeparator_of_isSmall (isSmall_functionName lawful id role c hc)

theorem parts_arguments {accept : Accept s.size}
    (valid : ∀ kind ∈ acceptKinds accept, Text.Identifier kind) :
    parts (testArgument s accept) ++ parts (readArgument s accept) = acceptParts s accept := by
  cases accept with
  | token kind =>
      have constant := parts_kindConstant (valid kind List.mem_cons_self)
      have opening : parts "|t: &rt::Tree| t.is(" = ["t:", "rt::Tree", "t.is"] := by decide
      have closing : parts ")" = [] := by decide
      have read : parts "|t: &rt::Tree| Ok(t.clone())" = ["t:", "rt::Tree", "Ok", "t.clone"] := by
        decide
      change parts s!"|t: &rt::Tree| t.is({kindConstant kind})" ++ _ = _
      simp (disch := decide) [toString, readArgument, acceptParts, opening, closing, read, constant]
  | rule id =>
      have test : parts (testName s id) = [testName s id] := parts_functionName lawful id .test
      have read : parts (parseName s id) = [parseName s id] := parts_functionName lawful id .read
      have opening : parts "|t: &rt::Tree| " = ["t:", "rt::Tree"] := by decide
      have closing : parts "(t).map(Box::new)" = ["t", ".map", "Box::new"] := by decide
      change parts (testName s id) ++ parts (readArgument s (.rule id)) = acceptParts s (.rule id)
      simp only [readArgument, acceptParts]
      split
      · rw [test, read]
        rfl
      · simp (disch := decide) [toString, opening, closing, read, test]

end

/-- What is called to take the children of a step. -/
def takerParts (field : String) : Quantifier → List String
  | .one => ["rt::take_one", "RULE", Text.quote field]
  | .optional => ["rt::take_optional"]
  | .zeroOrMore => ["rt::take_many"]
  | .oneOrMore => ["rt::take_at_least_one", "RULE", Text.quote field]

/-- What stands after the sign on the line of a step. -/
def valueParts (s : Shapes) : Step s.size → List String
  | .text field false => ["rt::capture_text", "RULE", Text.quote field, "tree"]
  | .text _ true => ["rt::capture_optional_text", "tree"]
  | .child field accept quantifier =>
    takerParts field quantifier ++ "rest" :: acceptParts s accept

/-- What the line of a step binds. -/
def boundParts {n : Nat} : Step n → List String
  | .text field _ => [localIdent field]
  | .child field _ _ => [localIdent field, "rest"]

theorem parts_takeLine {s : Shapes} (lawful : s.Lawful) {step : Step s.size}
    (field : Text.Identifier step.field) (valid : ∀ kind ∈ stepKinds step, Text.Identifier kind) :
    parts (takeLine s step).text = "let" :: boundParts step ++ "=" :: valueParts s step := by
  have quoted := parts_quote field
  have binding := parts_localIdent field
  cases step with
  | text field optional =>
      simp only [Step.field] at quoted binding
      have opening : parts "let " = ["let"] := by decide
      have required : parts " = rt::capture_text(RULE, " = ["=", "rt::capture_text", "RULE"] := by
        decide
      have closing : parts ", tree)?;" = ["tree"] := by decide
      have allowed : parts " = rt::capture_optional_text(tree);" =
          ["=", "rt::capture_optional_text", "tree"] := by decide
      cases optional <;>
        simp (disch := decide) [takeLine, Line.text, Step.field, toString, boundParts, valueParts,
          opening, required, closing, allowed, quoted, binding]
  | child field accept quantifier =>
      simp only [Step.field] at quoted binding
      have arguments := parts_arguments lawful valid
      have opening : parts "let (" = ["let"] := by decide
      have one : parts ", rest) = rt::take_one(RULE, " =
          ["rest", "=", "rt::take_one", "RULE"] := by decide
      have optional : parts ", rest) = rt::take_optional(" =
          ["rest", "=", "rt::take_optional"] := by decide
      have many : parts ", rest) = rt::take_many(" = ["rest", "=", "rt::take_many"] := by decide
      have atLeastOne : parts ", rest) = rt::take_at_least_one(RULE, " =
          ["rest", "=", "rt::take_at_least_one", "RULE"] := by decide
      have comma : parts ", " = [] := by decide
      have rest : parts "rest, " = ["rest"] := by decide
      have closing : parts ")?;" = [] := by decide
      simp only [boundParts, valueParts, ← arguments]
      cases quantifier <;>
        simp (disch := decide) [takeLine, Line.text, Step.field, toString, takerParts, opening, one,
          optional, many, atLeastOne, comma, rest, closing, quoted, binding]

/-- The functions that what a step accepts is tested and read by. -/
def acceptCalls (s : Shapes) : Accept s.size → List String
  | .token _ => []
  | .rule id => [testName s id, parseName s id]

def stepCalls (s : Shapes) : Step s.size → List String
  | .text _ _ => []
  | .child _ accept _ => acceptCalls s accept

/-- What the line of a step refers to, apart from paths and constants. -/
def stepReads (s : Shapes) : Step s.size → List String
  | .text _ _ => ["tree"]
  | .child _ accept _ => "rest" :: acceptCalls s accept

theorem IsLocalName.ne {name other : String} (h : IsLocalName name) (h' : ¬IsLocalName other) :
    name ≠ other := by
  intro same
  exact h' (same ▸ h)

theorem IsLocalName.ne_kindConstant {name : String} (h : IsLocalName name) (kind : String) :
    name ≠ kindConstant kind := by
  intro same
  have colon : ':' ∈ name.toList := by simp [same, kindConstant, toString]
  exact absurd (h ':' colon) (by decide)

theorem IsLocalName.ne_quote {name : String} (h : IsLocalName name) (text : String) :
    name ≠ Text.quote text := by
  intro same
  have mark : '"' ∈ name.toList := by simp [same, Text.quote, Text.quoteChars]
  exact absurd (h '"' mark) (by decide)

/-- A part that could be a local is referred to, unless it is the parameter of a closure. -/
theorem mem_stepReads_or_of_mem_valueParts {s : Shapes} {step : Step s.size} {name : String}
    (h : IsLocalName name) (hv : name ∈ valueParts s step) :
    name ∈ stepReads s step ∨ name = "t" ∧ "t:" ∈ valueParts s step := by
  have strange {text : String} (ht : ¬IsLocalName text) : (name = text) = False :=
    eq_false (h.ne ht)
  cases step with
  | text field optional =>
      left
      cases optional <;>
        simpa (disch := decide) [valueParts, stepReads, strange, h.ne_quote] using hv
  | child field accept quantifier =>
      have taker : name ∉ takerParts field quantifier := by
        cases quantifier <;> simp (disch := decide) [takerParts, strange, h.ne_quote]
      simp only [valueParts, stepReads, List.mem_append, taker, false_or, List.mem_cons] at hv ⊢
      cases accept with
      | token kind =>
          simp (disch := decide) [acceptParts, strange, h.ne_kindConstant] at hv
          exact .inl (.inl hv)
      | rule id =>
          simp only [acceptParts, acceptCalls] at hv ⊢
          split at hv
          · exact .inl hv
          · next single =>
            -- The name may be the closure's own parameter here.
            simpa (disch := decide) [strange, single, or_assoc] using hv

theorem stepReads_subset_valueParts {s : Shapes} (step : Step s.size) :
    stepReads s step ⊆ valueParts s step := by
  cases step with
  | text field optional => cases optional <;> simp [stepReads, valueParts]
  | child field accept quantifier =>
      have arguments : acceptCalls s accept ⊆ acceptParts s accept := by
        cases accept with
        | token kind => exact List.nil_subset _
        | rule id =>
            simp only [acceptCalls, acceptParts]
            split <;> simp
      apply List.subset_append_of_subset_right
      exact List.cons_subset_cons _ arguments

theorem parameter_not_mem_stepReads {s : Shapes} (step : Step s.size) : "t" ∉ stepReads s step := by
  cases step with
  | text field optional => simp [stepReads]
  | child field accept quantifier =>
      cases accept with
      | token kind => simp [stepReads, acceptCalls]
      | rule id =>
          simp [stepReads, acceptCalls, testName, parseName, toString, ← String.toList_inj]

theorem getLast?_quote (text : String) : (Text.quote text).toList.getLast? = some '"' := by
  rw [Text.quote, String.toList_ofList, Text.quoteChars]
  exact List.getLast?_concat

theorem getLast?_kindConstant_ne {kind : String} (valid : Text.Identifier kind) :
    (kindConstant kind).toList.getLast? ≠ some ':' := by
  have chars : (kindConstant kind).toList = "tokens::".toList ++ kind.toList := String.toList_append
  rw [chars, List.getLast?_append_of_ne_nil _ valid.toList_ne_nil]
  intro last
  exact absurd (valid.isIdentifierPart ':' (List.mem_of_getLast? last)) (by decide)

section

variable {s : Shapes} (lawful : s.Lawful) {step : Step s.size}
  (field : Text.Identifier step.field) (valid : ∀ kind ∈ stepKinds step, Text.Identifier kind)
include lawful valid

/-- Closures have one parameter, always of the same name. -/
theorem eq_of_mem_valueParts :
    ∀ part ∈ valueParts s step, part.toList.getLast? = some ':' → part = "t:" := by
  have named (id : s.Id) (role : Role) : (functionName s id role).toList.getLast? ≠ some ':' := by
    intro last
    exact absurd (isSmall_functionName lawful id role ':' (List.mem_of_getLast? last)) (by decide)
  cases step with
  | text field optional => cases optional <;> simp [valueParts, getLast?_quote]
  | child field accept quantifier =>
      have taker : ∀ part ∈ takerParts field quantifier, part.toList.getLast? ≠ some ':' := by
        cases quantifier <;> simp [takerParts, getLast?_quote]
      rw [valueParts, List.forall_mem_append, List.forall_mem_cons]
      refine ⟨fun part hp last => absurd last (taker part hp), by simp, ?_⟩
      cases accept with
      | token kind =>
          have constant := getLast?_kindConstant_ne (valid kind List.mem_cons_self)
          simp [acceptParts, constant]
      | rule id =>
          have test : (testName s id).toList.getLast? ≠ some ':' := named id .test
          have read : (parseName s id).toList.getLast? ≠ some ':' := named id .read
          simp only [acceptParts]
          split <;> simp [test, read]

include field

theorem local?_takeLine : (takeLine s step).local? = some (localIdent step.field) := by
  rw [Line.local?, boundLocal?, parts_takeLine lawful field valid]
  cases step <;> rfl

omit lawful valid in
theorem isLocalName_of_mem_boundParts : ∀ part ∈ "let" :: boundParts step, IsLocalName part := by
  have binding := isLocalName_localIdent field
  cases step with
  | text field optional => simpa [boundParts] using ⟨by decide, binding⟩
  | child field accept quantifier => simpa [boundParts] using ⟨by decide, binding, by decide⟩

theorem dropWhile_parts_takeLine :
    (parts (takeLine s step).text).dropWhile (· != "=") = "=" :: valueParts s step := by
  rw [parts_takeLine lawful field valid, List.dropWhile_append_of_pos,
    List.dropWhile_cons_of_neg (by decide)]
  intro part hp
  have name := isLocalName_of_mem_boundParts field part hp
  exact bne_iff_ne.mpr (name.ne (by decide))

/-- No part of the line of a step but the parameter of a closure ends in a colon. -/
theorem mem_parts_takeLine_iff {name : String} :
    name ++ ":" ∈ parts (takeLine s step).text ↔ name = "t" ∧ "t:" ∈ valueParts s step := by
  have last : (name ++ ":").toList.getLast? = some ':' := by
    rw [String.toList_append]
    exact List.getLast?_concat
  rw [parts_takeLine lawful field valid, List.mem_append]
  constructor
  · intro hp
    obtain hp | hp := hp
    · have name := isLocalName_of_mem_boundParts field _ hp
      exact absurd (name ':' (List.mem_of_getLast? last)) (by decide)
    · obtain sign | hp := List.mem_cons.mp hp
      · rw [sign] at last
        exact absurd last (by decide)
      · have same := eq_of_mem_valueParts lawful valid _ hp last
        have name_eq : name ++ ":" = "t" ++ ":" := same
        exact ⟨(String.append_left_inj ":").mp name_eq, same ▸ hp⟩
  · intro ⟨same, ht⟩
    rw [same]
    exact .inr (List.mem_cons_of_mem _ ht)

theorem mem_refers_takeLine_iff {name : String} (h : IsLocalName name) :
    name ∈ (takeLine s step).refers ↔ name ∈ stepReads s step := by
  rw [Line.refers, referred, dropWhile_parts_takeLine lawful field valid, List.mem_filter,
    Bool.not_eq_true', ← Bool.not_eq_true, List.contains_iff_mem,
    mem_parts_takeLine_iff lawful field valid]
  constructor
  · intro ⟨hv, free⟩
    have hv := (List.mem_cons.mp hv).resolve_left (h.ne (by decide))
    exact (mem_stepReads_or_of_mem_valueParts h hv).resolve_right free
  · intro hr
    refine ⟨List.mem_cons_of_mem _ (stepReads_subset_valueParts step hr), fun taken => ?_⟩
    exact parameter_not_mem_stepReads step (taken.1 ▸ hr)

end

end TreeShape.Code
