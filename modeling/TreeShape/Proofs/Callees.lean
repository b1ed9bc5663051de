import TreeShape.Proofs.Bindings
import TreeShape.Proofs.Contained

/-!
The functions that generated code calls, read off its lines. Where a line binds a local, functions
are handed on by their names, so it calls whatever it refers to; any other line calls what a
parenthesis follows. What the functions of a rule call in this sense are the functions of the rules
that it refers to, and nothing else.
-/

namespace TreeShape.Code

open Text (opensWith closesWith isBreak splitAtMarks)

def isParenthesis (c : Char) : Bool :=
  c == '('

/-- Whether a character keeps two words apart and does not apply the first one. -/
def isGap (c : Char) : Bool :=
  isBreak c && !isParenthesis c

/-- The words of a piece that a parenthesis follows. -/
def appliedIn (piece : List Char) : List String :=
  (splitAtMarks isParenthesis piece).dropLast.map String.ofList

def applied (text : String) : List String :=
  (splitAtMarks isGap text.toList).flatMap appliedIn

/-- The functions to test or read that a text applies. -/
def calls (text : String) : List String :=
  (applied text).filter isReader

/-- The functions to test or read that a line of code calls. -/
def callees (text : String) : List String :=
  if (boundLocal? text).isSome then (referred text).filter isReader else calls text

section

variable {a b c : String}

theorem appliedIn_append (x y : List Char) :
    appliedIn (x ++ '(' :: y) = appliedIn (x ++ ['(']) ++ appliedIn y := by
  have front : appliedIn (x ++ ['(']) = (splitAtMarks isParenthesis x).map String.ofList := by
    rw [appliedIn, Text.splitAtMarks_append_mark rfl]
    simp [splitAtMarks]
  rw [front, appliedIn, Text.splitAtMarks_append_mark rfl,
    List.dropLast_append_of_ne_nil (Text.splitAtMarks_ne_nil _ _), List.map_append]
  rfl

theorem piecewise_applied : Text.Piecewise isGap applied where
  empty := by decide
  append_mark mark a b := by
    simp only [applied, String.toList_ofList, Text.splitAtMarks_append_mark mark,
      List.flatMap_append]

theorem applied_append_of_parenthesis (h : closesWith isParenthesis a = true) :
    applied (a ++ b) = applied a ++ applied b := by
  obtain ⟨m, hm, mark⟩ := (Option.any_eq_true _ _).mp h
  obtain ⟨front, ha⟩ := List.getLast?_eq_some_iff.mp hm
  obtain rfl : m = '(' := by simpa [isParenthesis] using mark
  obtain ⟨before, last, hf⟩ := (List.eq_nil_or_concat' (splitAtMarks isGap front)).resolve_left
    (Text.splitAtMarks_ne_nil isGap front)
  obtain ⟨first, after, hb⟩ :=
    List.exists_cons_of_ne_nil (Text.splitAtMarks_ne_nil isGap b.toList)
  have alone : splitAtMarks isGap ['('] = [['(']] := by decide
  have joined : splitAtMarks isGap ('(' :: b.toList) = ('(' :: first) :: after := by
    simp [splitAtMarks, hb, isGap, isParenthesis]
  have whole : (a ++ b).toList = front ++ '(' :: b.toList := by simp [ha]
  rw [applied, whole, Text.splitAtMarks_append hf joined, applied, ha,
    Text.splitAtMarks_append hf alone, applied, hb]
  simp [appliedIn_append last first]

@[simp] theorem calls_append_of_closesWith (h : closesWith isBreak a = true) :
    calls (a ++ b) = calls a ++ calls b := by
  have additive : applied (a ++ b) = applied a ++ applied b := by
    obtain ⟨m, hm, mark⟩ := (Option.any_eq_true _ _).mp h
    cases parenthesis : isParenthesis m with
    | true =>
        apply applied_append_of_parenthesis
        rw [closesWith, hm]
        exact parenthesis
    | false =>
        apply piecewise_applied.append_of_closesWith
        rw [closesWith, hm]
        simp [isGap, mark, parenthesis]
  rw [calls, additive, List.filter_append]
  rfl

@[simp] theorem calls_append_of_opensWith (h : opensWith isGap b = true) :
    calls (a ++ b) = calls a ++ calls b := by
  rw [calls, piecewise_applied.append_of_opensWith h, List.filter_append]
  rfl

@[simp] theorem calls_append_append (h : closesWith isBreak b = true) :
    calls (a ++ b ++ c) = calls (a ++ b) ++ calls c :=
  calls_append_of_closesWith (Text.closesWith_append h)

/-- Without a parenthesis nothing is applied. -/
theorem calls_of_lacks (h : Text.Lacks '(' a) : calls a = [] := by
  have none : applied a = [] := by
    refine List.flatMap_eq_nil_iff.mpr fun piece hp => ?_
    have free : ∀ c ∈ piece, isParenthesis c = false := by
      intro c hc
      rw [isParenthesis, beq_eq_false_iff_ne]
      rintro rfl
      exact h (Text.mem_of_mem_splitAtMarks hp hc)
    rw [appliedIn, Text.splitAtMarks_of_unmarked free]
    rfl
  rw [calls, none, List.filter_nil]

theorem calls_of_isEmpty (h : (calls a).isEmpty = true) : calls a = [] :=
  List.isEmpty_iff.mp h

/-- A word with a parenthesis after it calls the function of that name. -/
theorem calls_append_of_word (word : ∀ c ∈ a.toList, IsSmall c)
    (opens : opensWith isParenthesis b = true) :
    calls (a ++ b) = [a].filter isReader ++ calls b := by
  obtain ⟨m, hm, mark⟩ := (Option.any_eq_true _ _).mp opens
  obtain ⟨rest, hb⟩ := List.head?_eq_some_iff.mp hm
  obtain rfl : m = '(' := by simpa [isParenthesis] using mark
  obtain rfl : b = "(" ++ String.ofList rest := by simp [← String.toList_inj, hb]
  have unmarked : ∀ c ∈ a.toList ++ ['('], isGap c = false := by
    simp only [List.forall_mem_append, List.forall_mem_singleton]
    refine ⟨fun c hc => ?_, by decide⟩
    simp [isGap, isBreak, isIdentifierPart_iff.mpr (.inr (word c hc))]
  have free : ∀ c ∈ a.toList, isParenthesis c = false := by
    intro c hc
    rw [isParenthesis, beq_eq_false_iff_ne]
    rintro rfl
    exact absurd (word _ hc) (by decide)
  have applies : applied (a ++ "(") = [a] := by
    have chars : (a ++ "(").toList = a.toList ++ ['('] := String.toList_append
    rw [applied, chars, Text.splitAtMarks_of_unmarked unmarked, List.flatMap_singleton, appliedIn,
      Text.splitAtMarks_append_mark rfl, Text.splitAtMarks_of_unmarked free]
    simp [splitAtMarks]
  have front : calls (a ++ "(") = [a].filter isReader := by rw [calls, applies]
  have sign : calls "(" = [] := by decide
  rw [← String.append_assoc, calls_append_of_closesWith (Text.closesWith_append (by decide)), front,
    calls_append_of_closesWith (by decide), sign, List.nil_append]

end

theorem callees_of_boundLocal? {text : String} (h : boundLocal? text = none) :
    callees text = calls text := by
  simp [callees, h]

theorem indifferent_callees : Indifferent callees := by
  intro depth text
  have same : parts (indented depth text) = parts text :=
    indifferent_of_piecewise piecewise_parts (by decide) depth text
  have applies : applied (indented depth text) = applied text :=
    indifferent_of_piecewise piecewise_applied (by decide) depth text
  have bound : boundLocal? (indented depth text) = boundLocal? text := by
    rw [boundLocal?, same]
    rfl
  simp only [callees, bound, referred, calls, same, applies]

theorem isForeign_parenthesis : isForeign '(' = true := by
  decide

section

variable {s : Shapes} (lawful : s.Lawful)
include lawful

theorem calls_testName_append (id : s.Id) {b : String} (h : opensWith isParenthesis b = true) :
    calls (testName s id ++ b) = testName s id :: calls b := by
  have word : ∀ c ∈ (testName s id).toList, IsSmall c := isSmall_functionName lawful id .test
  rw [calls_append_of_word word h, List.filter_cons_of_pos (isReader_testName id)]
  rfl

theorem calls_parseName_append (id : s.Id) {b : String} (h : opensWith isParenthesis b = true) :
    calls (parseName s id ++ b) = parseName s id :: calls b := by
  have word : ∀ c ∈ (parseName s id).toList, IsSmall c := isSmall_functionName lawful id .read
  rw [calls_append_of_word word h, List.filter_cons_of_pos (isReader_parseName id)]
  rfl

omit lawful in
/-- Of what stands after the sign on the line of a step, the functions are those that it calls. -/
theorem filter_valueParts (step : Step s.size) :
    (valueParts s step).filter isReader = stepCalls s step := by
  have quoted (text : String) : isReader (Text.quote text) = false := by
    apply isReader_of_head? <;> simp [Text.quote, Text.quoteChars]
  have constant (kind : String) : isReader (kindConstant kind) = false := by
    apply isReader_of_head? <;> simp [kindConstant, toString]
  cases step with
  | text field optional =>
      cases optional <;> simp +decide [valueParts, stepCalls, quoted]
  | child field accept quantifier =>
      have taker : (takerParts field quantifier).filter isReader = [] := by
        cases quantifier <;> simp +decide [takerParts, quoted]
      have arguments : (acceptParts s accept).filter isReader = acceptCalls s accept := by
        cases accept with
        | token kind => simp +decide [acceptParts, acceptCalls, constant]
        | rule id =>
            simp only [acceptParts, acceptCalls]
            split <;> simp +decide [isReader_testName, isReader_parseName]
      rw [valueParts, List.filter_append, taker, List.nil_append,
        List.filter_cons_of_neg (by decide), arguments]
      rfl

omit lawful in
theorem stepCalls_subset_stepReads (step : Step s.size) : stepCalls s step ⊆ stepReads s step := by
  cases step with
  | text field optional => exact List.nil_subset _
  | child field accept quantifier => exact List.subset_cons_self _ _

theorem callees_takeLine {step : Step s.size} (field : Text.Identifier step.field)
    (valid : ∀ kind ∈ stepKinds step, Text.Identifier kind) :
    callees (takeLine s step).text = stepCalls s step := by
  have bound : boundLocal? (takeLine s step).text = some (localIdent step.field) :=
    local?_takeLine lawful field valid
  -- no function is called as the parameter of a closure is
  have free : ∀ name ∈ stepCalls s step,
      (!(parts (takeLine s step).text).contains (name ++ ":")) = true := by
    intro name hn
    rw [Bool.not_eq_true', ← Bool.not_eq_true, List.contains_iff_mem,
      mem_parts_takeLine_iff lawful field valid]
    rintro ⟨rfl, _⟩
    exact parameter_not_mem_stepReads step (stepCalls_subset_stepReads step hn)
  rw [callees, bound, Option.isSome_some, if_pos rfl, referred,
    dropWhile_parts_takeLine lawful field valid, List.filter_comm,
    List.filter_cons_of_neg (by decide), filter_valueParts, List.filter_eq_self.mpr free]

theorem flatMap_takeLines {steps : List (Step s.size)}
    (valid : ∀ step ∈ steps, Text.Identifier step.field ∧
      ∀ kind ∈ stepKinds step, Text.Identifier kind) :
    ((takeLines s steps).flatMap fun line => callees line.text) = steps.flatMap (stepCalls s) := by
  have each : ((steps.map (takeLine s)).flatMap fun line => callees line.text) =
      steps.flatMap (stepCalls s) := by
    rw [List.flatMap_map]
    exact List.flatMap_congr fun step hs =>
      callees_takeLine lawful (valid step hs).1 (valid step hs).2
  have start : callees (Line.plain "let rest = tree.children();").text = [] := by decide
  have finish : callees (Line.plain "rt::finish(RULE, rest)?;").text = [] := by decide
  cases steps with
  | nil => rfl
  | cons first rest =>
      change ((_ :: (first :: rest).map (takeLine s)) ++ [_]).flatMap _ = _
      rw [List.flatMap_append, List.flatMap_cons, start, each, List.flatMap_singleton, finish,
        List.nil_append, List.append_nil]

omit lawful in
theorem callees_kindGuard {kind : String} (h : Text.Lacks '(' kind) :
    ((kindGuard kind).flatMap fun line => callees line.text) = [] := by
  have quiet := calls_of_lacks h
  have each : ∀ line ∈ kindGuard kind, calls line.text = [] := by
    simp (disch := decide) [kindGuard, Line.text, toString, quiet, calls_of_isEmpty]
  refine List.flatMap_eq_nil_iff.mpr fun line hl => ?_
  rw [callees_of_boundLocal? (local?_kindGuard kind line hl), each line hl]

/-- The functions that a function of a rule calls, by what it is for. -/
def callsOf (s : Shapes) : Plan s.size → Role → List String
  | .shape _ steps, .read => steps.flatMap (stepCalls s)
  | .delegate target, .test => [testName s target]
  | .delegate target, .read => [parseName s target]
  | .choice alternatives, .test => alternatives.map (testName s)
  | .choice alternatives, .read => alternatives.flatMap fun id => [testName s id, parseName s id]
  | .shape _ _, .test | .shape _ _, .make | .delegate _, .make | .choice _, .make => []

/-- A literal binds no local, since its type does not start as a keyword does. -/
theorem boundLocal?_structLiteral (id : s.Id) (fields : List String) :
    boundLocal? (structLiteral (typeName s id) fields) = none := by
  have words : ∀ c ∈ (typeName s id).toList, Text.isIdentifierPart c = true :=
    isIdentifierPart_typeIdent (lawful.identifier_name id)
  have other (brace : String) {text : String} {more : List String} (hb : brace ≠ "let")
      (h : parts text = parts (typeName s id) ++ brace :: more) : boundLocal? text = none := by
    by_cases empty : typeName s id = ""
    · have none : parts "" = [] := by decide
      rw [empty, none, List.nil_append] at h
      exact boundLocal?_of_first h hb
    · rw [parts_of_whole empty fun c hc => isSeparator_of_isIdentifierPart (words c hc)] at h
      refine boundLocal?_of_first h fun keyword => ?_
      have head : (typeName s id).toList.head? = some 'l' := by rw [keyword]; rfl
      exact absurd (isLower_of_head?_typeIdent head) (by decide)
  have braces : parts " \x7b\x7d" = ["\x7b\x7d"] := by decide
  have opening : parts " \x7b " = ["\x7b"] := by decide
  unfold structLiteral
  split
  · apply other "\x7b\x7d" (by decide)
    simp (disch := decide) [toString, braces]
    rfl
  · apply other "\x7b" (by decide)
    simp (disch := decide) [toString, opening]
    rfl

theorem callees_structLiteral (id : s.Id) {fields : List String}
    (h : ∀ field ∈ fields, Text.Lacks '(' field) :
    callees (structLiteral (typeName s id) fields) = [] := by
  rw [callees_of_boundLocal? (boundLocal?_structLiteral lawful id fields)]
  apply calls_of_lacks
  exact lacks_structLiteral isForeign_parenthesis (lacks_typeName isForeign_parenthesis lawful id) h

omit lawful in
theorem callees_ok (literal : String) : callees s!"Ok({literal})" = calls literal := by
  rw [callees_of_boundLocal? (boundLocal?_of_append (by decide) (by decide))]
  simp (disch := decide) [toString, calls_of_isEmpty]

theorem callees_shapeFunctions {id : s.Id} {root : String} {steps : List (Step s.size)}
    (hp : s.plan id = .shape root steps) :
    (shapeFunctions s id root steps).map (fun f => f.body.flatMap fun line => callees line.text) =
      (roles (.shape root steps)).map (callsOf s (.shape root steps)) := by
  obtain ⟨rootValid, valid⟩ := identifiers_of_shape lawful hp
  have kind := calls_of_lacks (lacks_kindConstant isForeign_parenthesis rootValid)
  have quoted := calls_of_lacks (lacks_quote isForeign_parenthesis (lawful.identifier_name id))
  have type := lacks_typeName isForeign_parenthesis lawful id
  have inits : ∀ field ∈ steps.map fun step => fieldInit step.field, Text.Lacks '(' field :=
    List.forall_mem_map.mpr fun step hs => lacks_fieldInit isForeign_parenthesis (valid step hs).1
  have idents : ∀ field ∈ steps.map fun step => fieldIdent step.field, Text.Lacks '(' field :=
    List.forall_mem_map.mpr fun step hs => lacks_fieldIdent isForeign_parenthesis (valid step hs).1
  have test : callees s!"tree.is({kindConstant root})" = [] := by
    rw [callees_of_boundLocal? (boundLocal?_of_append (by decide) (by decide))]
    simp (disch := decide) [toString, kind, calls_of_isEmpty]
  have rule : callees s!"const RULE: &str = {Text.quote (s.name id)};" = [] := by
    rw [callees_of_boundLocal? (boundLocal?_of_append (by decide) (by decide))]
    simp (disch := decide) [toString, quoted, calls_of_isEmpty]
  have literal := calls_of_lacks (lacks_structLiteral isForeign_parenthesis type inits)
  have blank : callees "" = [] := by decide
  simp only [shapeFunctions, roles, List.map_cons, List.map_nil, callsOf, List.flatMap_append,
    List.flatMap_cons, List.flatMap_nil, text_plain, text_blank, test, rule, callees_ok, literal,
    blank, callees_kindGuard (lacks_kindConstant isForeign_parenthesis rootValid),
    flatMap_takeLines lawful valid, callees_structLiteral lawful id idents, List.nil_append,
    List.append_nil]

theorem boundLocal?_testName_append (id : s.Id) {rest : String}
    (opens : opensWith isSeparator rest = true) : boundLocal? (testName s id ++ rest) = none := by
  have single : parts (testName s id) = [testName s id] := parts_functionName lawful id .test
  have whole : parts (testName s id ++ rest) = testName s id :: parts rest := by
    rw [parts_append_of_opensWith opens, single]
    rfl
  refine boundLocal?_of_first whole fun keyword => ?_
  simp [testName, toString, ← String.toList_inj] at keyword

theorem callees_test (id : s.Id) : callees s!"{testName s id}(tree)" = [testName s id] := by
  have none : boundLocal? s!"{testName s id}(tree)" = none :=
    boundLocal?_testName_append lawful id (by decide)
  have calls : calls s!"{testName s id}(tree)" = testName s id :: Code.calls "(tree)" :=
    calls_testName_append lawful id (by decide)
  rw [callees_of_boundLocal? none, calls]
  rfl

theorem callees_delegateFunctions (id target : s.Id) :
    (delegateFunctions s id target).map (fun f => f.body.flatMap fun line => callees line.text) =
      (roles (.delegate target)).map (callsOf s (.delegate target)) := by
  have type := calls_of_lacks (lacks_typeName isForeign_parenthesis lawful id)
  have read (inner : String) (h : calls inner = [parseName s target]) :
      calls (structLiteral (typeName s id) [s!"{innerField}: {inner}"]) = [parseName s target] := by
    simp (disch := decide) [structLiteral, innerField, toString, type, h, calls_of_isEmpty]
  have inner : calls (if (s.plan target).isChoice then s!"{parseName s target}(tree)?"
      else s!"Box::new({parseName s target}(tree)?)") = [parseName s target] := by
    split
    · simp (disch := decide) [toString, calls_parseName_append lawful, calls_of_isEmpty]
    · simp (disch := decide) [toString, String.append_assoc, calls_parseName_append lawful,
        calls_of_isEmpty]
  have make : callees (structLiteral (typeName s id) [innerField]) = [] :=
    callees_structLiteral lawful id (List.forall_mem_singleton.mpr (by decide))
  simp only [delegateFunctions, roles, List.map_cons, List.map_nil, callsOf, List.flatMap_cons,
    List.flatMap_nil, text_plain, callees_test lawful, callees_ok, read _ inner, make,
    List.append_nil]

theorem calls_alternatives (alternatives : List s.Id) :
    calls (" || ".intercalate (alternatives.map fun id => s!"{testName s id}(tree)")) =
      alternatives.map (testName s) := by
  induction alternatives with
  | nil => rfl
  | cons first rest ih =>
      have here : calls s!"{testName s first}(tree)" = [testName s first] :=
        calls_testName_append lawful first (by decide)
      cases rest with
      | nil => simpa using here
      | cons second rest =>
          have sign : calls " || " = [] := by decide
          simp only [List.map_cons, String.intercalate_cons_cons] at ih ⊢
          rw [calls_append_append (by decide), calls_append_of_opensWith (by decide), here, sign,
            ih]
          rfl

theorem parts_node (id : s.Id) (node : String) :
    parts s!"let node: Box<dyn {typeName s id}> = {node};" =
      ["let", "node:", "Box<dyn", typeName s id ++ ">"] ++ "=" :: parts node := by
  have words : ∀ c ∈ (typeName s id ++ ">").toList, isSeparator c = false := by
    rw [String.toList_append, List.forall_mem_append]
    refine ⟨fun c hc => ?_, List.all_iff_forall_prop.mp (by decide)⟩
    exact isSeparator_of_isIdentifierPart
      (isIdentifierPart_typeIdent (lawful.identifier_name id) c hc)
  have type : parts (typeName s id ++ ">") = [typeName s id ++ ">"] :=
    parts_of_whole (by simp [String.append_eq_empty_iff]) words
  have opening : parts "let node: Box<dyn " = ["let", "node:", "Box<dyn"] := by decide
  have sign : parts " = " = ["="] := by decide
  have closing : parts ";" = [] := by decide
  have text : s!"let node: Box<dyn {typeName s id}> = {node};" =
      "let node: Box<dyn " ++ (typeName s id ++ ">" ++ " = " ++ (node ++ ";")) := by
    simp [toString, ← String.toList_inj]
  rw [text, parts_append_of_closesWith (by decide), parts_between (by decide), opening,
    parts_append_of_opensWith (b := " = ") (by decide), type, sign,
    parts_append_of_opensWith (b := ";") (by decide), closing]
  simp

omit lawful in
theorem getLast?_typeName_angle (id : s.Id) :
    (typeName s id ++ ">").toList.getLast? = some '>' := by
  rw [String.toList_append]
  exact List.getLast?_concat

/-- Of the parts of the line that binds a node, only the local ends in a colon. -/
theorem eq_of_colon_parts_node (id : s.Id) {node : String}
    (plain : ∀ part ∈ parts node, part.toList.getLast? ≠ some ':') :
    ∀ part ∈ parts s!"let node: Box<dyn {typeName s id}> = {node};",
      part.toList.getLast? = some ':' → part = "node:" := by
  rw [parts_node lawful]
  simp only [List.forall_mem_append, List.forall_mem_cons]
  refine ⟨⟨by decide, by decide, by decide, fun colon => ?_, List.forall_mem_nil _⟩, by decide,
    fun part hp colon => absurd colon (plain part hp)⟩
  rw [getLast?_typeName_angle] at colon
  exact absurd colon (by decide)

/-- The line that reads a node by an alternative refers to the function for that. -/
theorem callees_node (id alternative : s.Id) {node : String} {before : List String}
    (h : parts node = before ++ [parseName s alternative, "tree"])
    (plain : ∀ part ∈ before, isReader part = false ∧ part.toList.getLast? ≠ some ':') :
    callees s!"let node: Box<dyn {typeName s id}> = {node};" = [parseName s alternative] := by
  let text := s!"let node: Box<dyn {typeName s id}> = {node};"
  have all : parts text = ["let", "node:", "Box<dyn", typeName s id ++ ">"] ++ "=" :: parts node :=
    parts_node lawful id node
  have bound : (boundLocal? text).isSome = true := by
    rw [boundLocal?, all]
    rfl
  have value : (parts text).dropWhile (· != "=") = "=" :: parts node := by
    rw [all, List.dropWhile_append_of_pos, List.dropWhile_cons_of_neg (by decide)]
    have other : typeName s id ++ ">" ≠ "=" := by
      intro same
      have angle := getLast?_typeName_angle id
      rw [same] at angle
      exact absurd angle (by decide)
    simp [other]
  have read : ("=" :: parts node).filter isReader = [parseName s alternative] := by
    have none : before.filter isReader = [] :=
      List.filter_eq_nil_iff.mpr fun part hp => by simp [(plain part hp).1]
    rw [List.filter_cons_of_neg (by decide), h, List.filter_append, none,
      List.filter_cons_of_pos (isReader_parseName alternative), List.filter_cons_of_neg (by decide)]
    rfl
  have name : (parseName s alternative).toList.getLast? ≠ some ':' := by
    intro colon
    have small := isSmall_functionName lawful alternative .read ':' (List.mem_of_getLast? colon)
    exact absurd small (by decide)
  have inner : ∀ part ∈ parts node, part.toList.getLast? ≠ some ':' := by
    rw [h]
    simp only [List.forall_mem_append, List.forall_mem_cons]
    exact ⟨fun part hp => (plain part hp).2, name, by decide, List.forall_mem_nil _⟩
  -- the function is not called as a parameter is, which would have a colon after it
  have free : (!(parts text).contains (parseName s alternative ++ ":")) = true := by
    rw [Bool.not_eq_true', ← Bool.not_eq_true, List.contains_iff_mem]
    intro hp
    have last : (parseName s alternative ++ ":").toList.getLast? = some ':' := by
      rw [String.toList_append]
      exact List.getLast?_concat
    have same := eq_of_colon_parts_node lawful id inner _ hp last
    simp [parseName, toString, ← String.toList_inj] at same
  rw [callees, if_pos bound, referred, value, List.filter_comm, read]
  exact List.filter_cons_of_pos free

theorem callees_dispatchLines (id alternative : s.Id) :
    ((dispatchLines s (typeName s id) alternative).flatMap fun line => callees line.text) =
      [testName s alternative, parseName s alternative] := by
  have name : parts (parseName s alternative) = [parseName s alternative] :=
    parts_functionName lawful alternative .read
  have read : parts s!"{parseName s alternative}(tree)?" = [parseName s alternative, "tree"] := by
    have argument : parts "(tree)?" = ["tree"] := by decide
    simp (disch := decide) [toString, name, argument]
  have condition :
      callees s!"if {testName s alternative}(tree) \x7b" = [testName s alternative] := by
    rw [callees_of_boundLocal? (boundLocal?_of_append (by decide) (by decide))]
    simp (disch := decide) [toString, String.append_assoc, calls_testName_append lawful,
      calls_of_isEmpty]
  have result : callees "return Ok(node);" = [] := by decide
  have brace : callees "\x7d" = [] := by decide
  simp only [dispatchLines, List.flatMap_cons, List.flatMap_nil, text_plain, text_opening,
    text_closing, condition, result, brace, List.append_nil]
  split
  · rw [callees_node lawful id alternative read (List.forall_mem_nil _)]
    rfl
  · have boxed (read : String) (h : parts read = [parseName s alternative, "tree"]) :
        parts s!"Box::new({read})" = ["Box::new"] ++ [parseName s alternative, "tree"] := by
      have opening : parts "Box::new(" = ["Box::new"] := by decide
      have closing : parts ")" = [] := by decide
      simp (disch := decide) [toString, opening, closing, h]
    rw [callees_node lawful id alternative (boxed _ read)
      (List.forall_mem_singleton.mpr (by decide))]
    rfl

omit lawful in
theorem callees_noAlternativeLines {rule : String} (valid : Text.Identifier rule) :
    ((noAlternativeLines rule).flatMap fun line => callees line.text) = [] := by
  have comma : parts "," = [] := by decide
  have single : parts s!"{Text.quote rule}," = [Text.quote rule] := by
    simp (disch := decide) [toString, parts_quote valid, comma]
  have keyword : Text.quote rule ≠ "let" := by
    simp [quote_of_identifier valid, ← String.toList_inj]
  have quoted := calls_of_lacks (lacks_quote isForeign_parenthesis valid)
  have named : callees s!"{Text.quote rule}," = [] := by
    rw [callees_of_boundLocal? (boundLocal?_of_first single keyword)]
    simp (disch := decide) [toString, quoted, calls_of_isEmpty]
  have fixed : ∀ text ∈ ["Err(rt::ShapeMismatch::new(", "rt::Mismatch::NoAlternative \x7b",
      "found: tree.kind().to_owned(),", "\x7d,", "))"], callees text = [] := by decide
  simp only [List.forall_mem_cons] at fixed
  simp [noAlternativeLines, named, fixed]

theorem callees_choiceFunctions (id : s.Id) (alternatives : List s.Id) :
    (choiceFunctions s id alternatives).map
        (fun f => f.body.flatMap fun line => callees line.text) =
      (roles (.choice alternatives)).map (callsOf s (.choice alternatives)) := by
  have test : callees (if alternatives.isEmpty then "false" else
      " || ".intercalate (alternatives.map fun id => s!"{testName s id}(tree)")) =
      alternatives.map (testName s) := by
    cases alternatives with
    | nil => exact (by decide : callees "false" = [])
    | cons first rest =>
        have none : boundLocal?
            (" || ".intercalate ((first :: rest).map fun id => s!"{testName s id}(tree)")) =
              none := by
          cases rest with
          | nil => exact boundLocal?_testName_append lawful first (by decide)
          | cons second rest =>
              rw [List.map_cons, List.map_cons, String.intercalate_cons_cons, String.append_assoc,
                String.append_assoc]
              exact boundLocal?_testName_append lawful first
                (by simp [Text.opensWith_append]; decide)
        rw [List.isEmpty_cons, if_neg Bool.false_ne_true, callees_of_boundLocal? none,
          calls_alternatives lawful]
  have dispatch : ((alternatives.flatMap (dispatchLines s (typeName s id))).flatMap
      fun line => callees line.text) =
        alternatives.flatMap fun id => [testName s id, parseName s id] := by
    rw [List.flatMap_assoc]
    exact List.flatMap_congr fun alternative _ => callees_dispatchLines lawful id alternative
  simp only [choiceFunctions, roles, List.map_cons, List.map_nil, callsOf, List.flatMap_cons,
    List.flatMap_nil, List.flatMap_append, text_plain, test, dispatch,
    callees_noAlternativeLines (lawful.identifier_name id), List.append_nil]

/-- What the functions of a rule call, in order. -/
theorem callees_ruleFunctions (id : s.Id) :
    (ruleFunctions s id).map (fun f => f.body.flatMap fun line => callees line.text) =
      (roles (s.plan id)).map (callsOf s (s.plan id)) := by
  unfold ruleFunctions
  cases hp : s.plan id with
  | shape root steps => exact callees_shapeFunctions lawful hp
  | delegate target => exact callees_delegateFunctions lawful id target
  | choice alternatives => exact callees_choiceFunctions lawful id alternatives

theorem exists_function (id : s.Id) {role : Role} (h : role ∈ roles (s.plan id)) :
    ∃ f ∈ ruleFunctions s id, f.name = functionName s id role ∧
      (f.body.flatMap fun line => callees line.text) = callsOf s (s.plan id) role := by
  have both : (ruleFunctions s id).map
        (fun f => (f.name, f.body.flatMap fun line => callees line.text)) =
      (roles (s.plan id)).map fun role => (functionName s id role, callsOf s (s.plan id) role) := by
    rw [← List.zip_map', ← List.zip_map', map_name_ruleFunctions, callees_ruleFunctions lawful]
  have mem := List.mem_map_of_mem
    (f := fun role => (functionName s id role, callsOf s (s.plan id) role)) h
  rw [← both] at mem
  obtain ⟨f, hf, same⟩ := List.mem_map.mp mem
  exact ⟨f, hf, (Prod.mk.inj same).1, (Prod.mk.inj same).2⟩

omit lawful in
/-- Functions only call what the package has. -/
theorem mem_of_mem_callsOf {plan : Plan s.size} {role : Role} {callee : String}
    (h : callee ∈ callsOf s plan role) : callee ∈ (functions s).map (·.name) := by
  have known : ∀ target : s.Id, ∀ name ∈ [testName s target, parseName s target],
      name ∈ (functions s).map (·.name) := by
    intro target
    simp only [List.forall_mem_cons]
    exact ⟨testName_mem target, parseName_mem target, List.forall_mem_nil _⟩
  unfold callsOf at h
  split at h
  · obtain ⟨step, _, hc⟩ := List.mem_flatMap.mp h
    cases step with
    | text field optional => cases hc
    | child field accept quantifier =>
        cases accept with
        | token kind => cases hc
        | rule target => exact known target _ hc
  · next target => exact List.mem_singleton.mp h ▸ testName_mem target
  · next target => exact List.mem_singleton.mp h ▸ parseName_mem target
  · obtain ⟨alternative, _, rfl⟩ := List.mem_map.mp h
    exact testName_mem alternative
  · obtain ⟨alternative, _, hc⟩ := List.mem_flatMap.mp h
    exact known alternative _ hc
  all_goals cases h

end

end TreeShape.Code
