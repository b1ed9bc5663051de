import TreeShape.Proofs.Clashes
import TreeShape.Proofs.Compiling
import TreeShape.Proofs.Lines
import TreeShape.Proofs.TypeNames

/-!
The functions of a package, which begin at the lines of a file that say so. Where files have
different names, so have functions. Between the first line of a function and the brace that closes
it, no line begins another one.
-/

namespace TreeShape

namespace Code

/-- The function that begins at a line of a text. -/
def definition? (text : String) : Option String :=
  ("pub fn ".toList.isPrefixOf? (Text.unindented text).toList).map fun rest =>
    String.ofList (rest.takeWhile (· != '('))

def definitions (text : String) : List String :=
  (Text.lines text).filterMap definition?

/-- The lines of a function in a text: those after its first line, down to a brace that is not
indented. -/
def functionBody (text name : String) : List String :=
  (((Text.lines text).dropWhile (definition? · != some name)).drop 1).takeWhile (· != "\x7d")

theorem indifferent_definition? : Indifferent definition? := by
  intro depth text
  rw [definition?, unindented_indented]
  rfl

theorem definitions_layout (lines : List Line) :
    definitions (layout lines) = (layoutFrom 0 lines).flatMap definitions :=
  filterMap_lines (by decide) lines

theorem functionBody_layout {before body after : List Line} {signature name : String}
    (oneLined : OneLined (before ++ .opening signature :: (body ++ .closing "\x7d" :: after)))
    (hb : Nested before) (inner : Nested body)
    (other : name ∉ before.filterMap fun line => definition? line.text)
    (named : definition? signature = some name) :
    functionBody (layout (before ++ .opening signature :: (body ++ .closing "\x7d" :: after)))
      name = layoutFrom 1 body := by
  have passed : ∀ text ∈ layoutFrom 0 before, (definition? text != some name) = true := by
    intro text ht
    rw [bne_iff_ne]
    intro here
    rw [← filterMap_layoutFrom indifferent_definition? 0] at other
    exact other (List.mem_filterMap.mpr ⟨text, ht, here⟩)
  have found : ¬(definition? (indented 0 signature) != some name) = true := by
    rw [indifferent_definition?, named]
    simp
  have kept : ∀ text ∈ layoutFrom 1 body, (text != "\x7d") = true := by
    intro text ht
    rw [bne_iff_ne]
    rintro rfl
    obtain empty | head := head?_of_mem_layoutFrom inner _ ht
    · exact absurd empty (by decide)
    · exact absurd head (by decide)
  have split :
      Text.lines (layout (before ++ .opening signature :: (body ++ .closing "\x7d" :: after))) =
      layoutFrom 0 before ++ indented 0 signature ::
        (layoutFrom 1 body ++ "\x7d" :: (layoutFrom 0 after ++ [""])) := by
    have brace : indented 0 "\x7d" = "\x7d" := rfl
    rw [lines_layout oneLined, layoutFrom_append hb, layoutFrom, layoutFrom_append inner,
      layoutFrom, Nat.zero_add, Nat.sub_self, brace]
    simp
  rw [functionBody, split, List.dropWhile_append_of_pos passed,
    List.dropWhile_cons_of_neg (p := fun text => definition? text != some name) found,
    List.drop_one, List.tail_cons, List.takeWhile_append_of_pos kept,
    List.takeWhile_cons_of_neg (by decide), List.append_nil]

/-- What a function is for. -/
inductive Role where
  | test
  | read
  | make
deriving DecidableEq

/-- What the name of a function begins with. -/
def Role.stem : Role → String
  | test => "can_parse_"
  | read => "parse_"
  | make => "make_"

theorem Role.stem_append_inj {role role' : Role} {a b : String}
    (h : role.stem ++ a = role'.stem ++ b) : role = role' ∧ a = b := by
  cases role <;> cases role' <;> simp [stem, ← String.toList_inj] at h ⊢ <;> exact h

def roles {n : Nat} : Plan n → List Role
  | .shape _ _ | .delegate _ => [.test, .read, .make]
  | .choice _ => [.test, .read]

theorem nodup_roles {n : Nat} (plan : Plan n) : (roles plan).Nodup := by
  cases plan <;> simp [roles]

variable {s : Shapes}

def functionName (s : Shapes) (id : s.Id) (role : Role) : String :=
  role.stem ++ unitName (s.name id)

theorem map_name_ruleFunctions (id : s.Id) :
    (ruleFunctions s id).map (·.name) = (roles (s.plan id)).map (functionName s id) := by
  unfold ruleFunctions
  cases s.plan id <;> rfl

theorem map_name_functions (s : Shapes) :
    (functions s).map (·.name) =
      s.ids.flatMap fun id => (roles (s.plan id)).map (functionName s id) := by
  rw [functions, List.map_flatMap]
  simp only [map_name_ruleFunctions]

theorem mem_functions {id : s.Id} {f : Function} (hf : f ∈ ruleFunctions s id) : f ∈ functions s :=
  List.mem_flatMap.mpr ⟨id, List.mem_finRange id, hf⟩

theorem functionName_mem (id : s.Id) (role : Role) (h : role ∈ roles (s.plan id)) :
    functionName s id role ∈ (functions s).map (·.name) := by
  rw [map_name_functions]
  exact List.mem_flatMap.mpr ⟨id, List.mem_finRange id, List.mem_map_of_mem h⟩

theorem testName_mem (id : s.Id) : testName s id ∈ (functions s).map (·.name) :=
  functionName_mem id .test (by cases s.plan id <;> simp [roles])

theorem parseName_mem (id : s.Id) : parseName s id ∈ (functions s).map (·.name) :=
  functionName_mem id .read (by cases s.plan id <;> simp [roles])

theorem nodup_map_name_functions (lawful : s.Lawful)
    (units : KeepsApart unitName s.schema.names) : ((functions s).map (·.name)).Nodup := by
  have apart {a b : s.Id} (h : unitName (s.name a) = unitName (s.name b)) : a = b :=
    lawful.name_injective (units _ (Shapes.mem_names_iff.mpr ⟨a, rfl⟩) _
      (Shapes.mem_names_iff.mpr ⟨b, rfl⟩) h)
  rw [map_name_functions, List.nodup_flatMap]
  constructor
  · intro id _
    exact (nodup_roles _).map fun _ _ h => (Role.stem_append_inj h).1
  · refine (List.nodup_finRange _).imp fun {a b} differ => ?_
    intro name ha hb
    obtain ⟨role, _, rfl⟩ := List.mem_map.mp ha
    obtain ⟨role', _, h⟩ := List.mem_map.mp hb
    exact differ (apart (Role.stem_append_inj h).2.symm)

theorem definition?_signature {f : Function} (h : ∀ c ∈ f.name.toList, IsSmall c) :
    definition? s!"pub fn {f.name}({f.parameters}) -> {f.result} \x7b" = some f.name := by
  have free : ∀ c ∈ f.name.toList, (c != '(') = true := by
    intro c hc
    have small := h c hc
    simp only [bne_iff_ne, ne_eq]
    rintro rfl
    exact absurd small (by decide)
  let rest := f.name ++ ("(" ++ f.parameters ++ ") -> " ++ f.result ++ " \x7b")
  have text : s!"pub fn {f.name}({f.parameters}) -> {f.result} \x7b" = "pub fn " ++ rest := by
    simp [rest, toString, String.append_assoc]
  have flush : Text.unindented ("pub fn " ++ rest) = "pub fn " ++ rest :=
    Text.unindented_append_of_not_blank (by decide)
  have begins : "pub fn ".toList.isPrefixOf? ("pub fn " ++ rest).toList = some rest.toList := by
    rw [List.isPrefixOf?_eq_some_iff_append_eq]
    exact String.toList_append.symm
  rw [definition?, text, flush, begins, Option.map_some, String.toList_append,
    List.takeWhile_append_of_pos free]
  simp

theorem definition?_of_begins {text : String} (h : Text.begins (· == 'p') text = false) :
    definition? text = none := by
  have no : "pub fn ".toList.isPrefixOf? (Text.unindented text).toList = none := by
    rw [Option.eq_none_iff_forall_not_mem]
    intro rest hr
    rw [Option.mem_def, List.isPrefixOf?_eq_some_iff_append_eq] at hr
    rw [Text.begins, Text.opensWith, ← hr] at h
    cases h
  rw [definition?, no]
  rfl

/-- A function's name stands at its first line after the remarks, and no other line of it begins a
function. -/
theorem filterMap_definition? {f : Function} (name : ∀ c ∈ f.name.toList, IsSmall c)
    (doc : ∀ line ∈ f.doc, definition? line.text = none)
    (body : ∀ line ∈ f.body, definition? line.text = none) :
    (f.lines.filterMap fun line => definition? line.text) = [f.name] := by
  have first : definition? (Line.opening _).text = some f.name := definition?_signature name
  have last : definition? (Line.closing "\x7d").text = none := by decide
  simp only [Function.lines, List.filterMap_append, List.filterMap_eq_nil_iff.mpr doc,
    List.filterMap_eq_nil_iff.mpr body, List.filterMap_cons, first, last, List.filterMap_nil,
    List.nil_append, List.append_nil]

/-- Whether a character starts a word that declares something or brings it into scope. -/
def startsItem (c : Char) : Bool :=
  c == 'i' || c == 'p' || c == 'u'

/-- Whether a text starts as one may that declares something or brings it into scope. -/
def opensItem (text : String) : Bool :=
  Text.begins startsItem text

@[simp] theorem opensItem_append (a b : String) :
    opensItem (a ++ b) = (opensItem a || (Text.isBlank a && opensItem b)) :=
  Text.begins_append _ a b

/-- A line that belongs to some item and begins none. -/
inductive Line.Inner (line : Line) : Prop
  | other : opensItem line.text = false → line.Inner
  | condition (rest : String) : line.text = "if" ++ " " ++ rest → line.Inner

@[simp] theorem inner_plain {text : String} (h : opensItem text = false) :
    (Line.plain text).Inner :=
  .other h

@[simp] theorem inner_opening {text : String} (h : opensItem text = false) :
    (Line.opening text).Inner :=
  .other h

@[simp] theorem inner_closing {text : String} (h : opensItem text = false) :
    (Line.closing text).Inner :=
  .other h

@[simp] theorem inner_blank : Line.blank.Inner :=
  .other rfl

theorem Line.Inner.definition? {line : Line} (h : line.Inner) :
    Code.definition? line.text = none := by
  apply definition?_of_begins
  cases h with
  | other h =>
      rw [opensItem, Text.begins, Text.opensWith, Option.any_eq_false] at h
      rw [Text.begins, Text.opensWith, Option.any_eq_false]
      intro c head
      have other := h c head
      simp only [startsItem, Bool.or_eq_false_iff] at other
      exact other.1.2
  | condition rest text => simp +decide [text]

@[simp] theorem opensItem_quote (text : String) : opensItem (Text.quote text) = false := by
  have quoted : Text.quote text =
      "\"" ++ String.ofList (text.toList.flatMap Text.escapeChar ++ ['"']) := by
    simp [Text.quote, Text.quoteChars]
  simp +decide [quoted]

/-- No small letter starts the name of a type. -/
theorem begins_typeName (lawful : s.Lawful) (id : s.Id) {isMark : Char → Bool}
    (small : ∀ c, isMark c = true → c.isLower = true) :
    Text.begins isMark (typeName s id) = false := by
  have single : ' ' ∉ (typeName s id).toList :=
    not_mem_typeIdent (lawful.identifier_name id) (by decide) (by decide)
  rw [Text.begins, Text.unindented_of_not_mem single, Text.opensWith, Option.any_eq_false]
  intro c head
  have lower : c.isLower = false := isLower_of_head?_typeIdent head
  rw [Bool.eq_false_iff]
  intro mark
  exact Bool.false_ne_true (lower.symm.trans (small c mark))

theorem opensItem_structLiteral (lawful : s.Lawful) (id : s.Id) (fields : List String) :
    opensItem (structLiteral (typeName s id) fields) = false := by
  have type : opensItem (typeName s id) = false := by
    apply begins_typeName lawful
    intro c hc
    simp only [startsItem, Bool.or_eq_true, beq_iff_eq] at hc
    obtain (rfl | rfl) | rfl := hc <;> rfl
  unfold structLiteral
  split <;> simp +decide [type, toString]

/-- All lines belong to some item. -/
def Inner (lines : List Line) : Prop :=
  ∀ line ∈ lines, line.Inner

theorem inner_kindGuard (kind : String) : Inner (kindGuard kind) := by
  have first : (Line.opening s!"if !tree.is({kind}) \x7b").Inner := by
    apply Line.Inner.condition s!"!tree.is({kind}) \x7b"
    simp [Line.text, ← String.toList_inj, toString]
  simp +decide [Inner, kindGuard, first]

theorem inner_takeLines (steps : List (Step s.size)) : Inner (takeLines s steps) := by
  have take (step : Step s.size) : (takeLine s step).Inner := by
    unfold takeLine
    split <;> simp +decide
  cases steps with
  | nil => simp +decide [Inner, takeLines]
  | cons first rest =>
      simp only [Inner, takeLines, List.forall_mem_append, List.forall_mem_cons,
        List.forall_mem_map]
      exact ⟨⟨by simp +decide, take first, fun step _ => take step⟩, by simp +decide, by simp⟩

theorem inner_dispatchLines (type : String) (alternative : s.Id) :
    Inner (dispatchLines s type alternative) := by
  have first : (Line.opening s!"if {testName s alternative}(tree) \x7b").Inner := by
    apply Line.Inner.condition s!"{testName s alternative}(tree) \x7b"
    simp [Line.text, ← String.toList_inj, toString]
  simp +decide [Inner, dispatchLines, first]

theorem inner_noAlternativeLines (rule : String) : Inner (noAlternativeLines rule) := by
  simp +decide [Inner, noAlternativeLines, toString]

theorem inner_testDoc (rule : String) : Inner (testDoc rule) := by
  simp +decide [Inner, testDoc]

theorem inner_makeDoc (summary : String) : Inner (makeDoc summary) := by
  simp +decide [Inner, makeDoc]

theorem inner_parseDoc (rule : String) (detail : List String) : Inner (parseDoc rule detail) := by
  simp only [Inner, parseDoc, List.forall_mem_append, List.forall_mem_flatMap]
  simp +decide

/-- No line of a function but its first one begins anything. -/
theorem inner_of_mem (lawful : s.Lawful) {id : s.Id} {f : Function}
    (hf : f ∈ ruleFunctions s id) : Inner f.doc ∧ Inner f.body := by
  unfold ruleFunctions at hf
  cases hp : s.plan id with
  | shape root steps =>
      simp only [hp, shapeFunctions, List.mem_cons, List.not_mem_nil, or_false] at hf
      obtain rfl | rfl | rfl := hf
      · exact ⟨inner_testDoc _, by simp +decide [Inner]⟩
      · refine ⟨inner_parseDoc _ _, ?_⟩
        simp only [Inner, List.forall_mem_append]
        exact ⟨⟨⟨⟨by simp +decide, inner_kindGuard _⟩, by simp⟩, inner_takeLines steps⟩,
          by simp +decide⟩
      · exact ⟨inner_makeDoc _, by simp [Inner, opensItem_structLiteral lawful]⟩
  | delegate target =>
      simp only [hp, delegateFunctions, List.mem_cons, List.not_mem_nil, or_false] at hf
      obtain rfl | rfl | rfl := hf
      · exact ⟨inner_testDoc _, by simp +decide [Inner, testName, toString]⟩
      · exact ⟨inner_parseDoc _ _, by simp +decide [Inner]⟩
      · exact ⟨inner_makeDoc _, by simp [Inner, opensItem_structLiteral lawful]⟩
  | choice alternatives =>
      simp only [hp, choiceFunctions, List.mem_cons, List.not_mem_nil, or_false] at hf
      obtain rfl | rfl := hf
      · refine ⟨inner_testDoc _, List.forall_mem_singleton.mpr (.other ?_)⟩
        cases alternatives with
        | nil => simp +decide [Line.text]
        | cons first rest => cases rest <;> simp +decide [Line.text, testName, toString]
      · refine ⟨inner_parseDoc _ _, ?_⟩
        simp only [Inner, List.forall_mem_append, List.forall_mem_flatMap]
        exact ⟨fun alternative _ => inner_dispatchLines _ alternative,
          inner_noAlternativeLines _⟩

theorem isSmall_functionName (lawful : s.Lawful) (id : s.Id) (role : Role) :
    ∀ c ∈ (functionName s id role).toList, IsSmall c := by
  have stem : ∀ c ∈ role.stem.toList, IsSmall c :=
    List.all_iff_forall_prop.mp (by cases role <;> decide)
  rw [functionName, String.toList_append, List.forall_mem_append]
  exact ⟨stem, isSmall_unitName (lawful.identifier_name id)⟩

theorem isSmall_of_mem_functions (lawful : s.Lawful) {f : Function} (hf : f ∈ functions s) :
    ∀ c ∈ f.name.toList, IsSmall c := by
  have hn : f.name ∈ (functions s).map (·.name) := List.mem_map_of_mem hf
  rw [map_name_functions] at hn
  obtain ⟨id, _, hn⟩ := List.mem_flatMap.mp hn
  obtain ⟨role, _, name⟩ := List.mem_map.mp hn
  rw [← name]
  exact isSmall_functionName lawful id role

/-- The lines of the file with all functions that stand before the first one. -/
def parserPreamble (s : Shapes) : List Line :=
  header s!"Membership tests, parsers and constructors for package `{packageName s.schema}`." ++
  [.plain "#![allow(clippy::too_many_arguments)]", .blank, useRuntime s.schema] ++
  (if s.ids.any fun id => isShape (s.plan id) then [useTokens s.schema] else []) ++
  (if s.ids.isEmpty then [] else [.plain s!"use super::{braced (s.ids.map (typeName s))};"])

theorem parserLines_eq (s : Shapes) :
    parserLines s = parserPreamble s ++ (functions s).flatMap fun f => .blank :: f.lines :=
  rfl

theorem definition?_of_mem_parserPreamble :
    ∀ line ∈ parserPreamble s, definition? line.text = none := by
  have runtime : definition? (useRuntime s.schema).text = none :=
    definition?_of_begins (by simp +decide [useRuntime, Line.text, toString])
  have tokens : definition? (useTokens s.schema).text = none := by
    simp only [useTokens]
    split <;> exact definition?_of_begins (by simp +decide [Line.text, toString])
  have types : definition? s!"use super::{braced (s.ids.map (typeName s))};" = none :=
    definition?_of_begins (by simp +decide [toString])
  have head : Inner (header
      s!"Membership tests, parsers and constructors for package `{packageName s.schema}`.") := by
    simp +decide [Inner, header]
  simp only [parserPreamble, List.forall_mem_append]
  refine ⟨⟨⟨fun line hl => (head line hl).definition?, ?_⟩, ?_⟩, ?_⟩
  · simp only [List.forall_mem_cons]
    exact ⟨by decide, by decide, runtime, List.forall_mem_nil _⟩
  · split
    · exact List.forall_mem_singleton.mpr tokens
    · exact List.forall_mem_nil _
  · split
    · exact List.forall_mem_nil _
    · exact List.forall_mem_singleton.mpr types

theorem filterMap_functions (lawful : s.Lawful) {some : List Function} (h : some ⊆ functions s) :
    ((some.flatMap fun f => .blank :: f.lines).filterMap fun line => definition? line.text) =
      some.map (·.name) := by
  have each : ∀ f ∈ some,
      ((Line.blank :: f.lines).filterMap fun line => definition? line.text) = [f.name] := by
    intro f hf
    obtain ⟨id, _, hr⟩ := List.mem_flatMap.mp (h hf)
    obtain ⟨doc, body⟩ := inner_of_mem lawful hr
    rw [List.filterMap_cons_none (by rfl)]
    exact filterMap_definition? (isSmall_of_mem_functions lawful (h hf))
      (fun line hl => (doc line hl).definition?) (fun line hl => (body line hl).definition?)
  rw [List.filterMap_flatMap, List.flatMap_congr each, ← List.map_eq_flatMap]

end Code
end TreeShape
