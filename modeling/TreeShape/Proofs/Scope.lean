import TreeShape.Proofs.Hierarchy
import TreeShape.Proofs.Tables

/-!
The names that generated files bring into scope, read off their lines: those of types, and those of
the modules that every file needs. A file keeps the name of a standard type for that type unless one
of the rules that it brings in is called like it.
-/

namespace TreeShape

namespace Text

/-- What follows the last mark. -/
def lastPiece (isMark : Char → Bool) (text : List Char) : List Char :=
  (splitAtMarks isMark text).getLastD []

theorem lastPiece_append_mark {isMark : Char → Bool} {m : Char} (mark : isMark m = true)
    (a : List Char) {b : List Char} (h : ∀ c ∈ b, isMark c = false) :
    lastPiece isMark (a ++ m :: b) = b := by
  rw [lastPiece, splitAtMarks_append_mark mark, splitAtMarks_of_unmarked h]
  simp

end Text

namespace Code

/-- The names of a list that is written with commas between them. -/
def listedNames (list : List Char) : List String :=
  (Text.splitAtMarks (· == ',') list).map fun name => String.ofList (name.dropWhile (· == ' '))

/-- The names that a path is for: those in braces at its end, or else the last one. -/
def pathNames (path : List Char) : List String :=
  if path.getLast? = some '\x7d' then listedNames (Text.lastPiece (· == '\x7b') path.dropLast)
  else [String.ofList (Text.lastPiece Text.isBreak path)]

/-- The names that a text is for which is a path with `use` and a semicolon. -/
def usedNames (text : String) : List String :=
  pathNames text.toList.dropLast

/-- The names that a text is for in which several paths end with semicolons. -/
def allUsedNames (text : String) : List String :=
  ((Text.splitAtMarks (· == ';') text.toList).filter (!·.isEmpty)).flatMap pathNames

/-- The names that a line brings into scope, by the names that it is for if it starts with `use`. -/
def brings (used : String → List String) (text : String) : List String :=
  match lineWords text with
  | first :: second :: rest =>
    if first = "use" then used (Text.unindented text)
    else if first = "pub" ∧ second = "struct" then rest.head?.toList
    else if first = "pub" ∧ second = "trait" then
      rest.head?.toList.map fun name => String.ofList name.toList.dropLast
    else []
  | _ => []

def Line.brings (used : String → List String) (line : Line) : List String :=
  Code.brings used line.text

def broughtBy (used : String → List String) (lines : List Line) : List String :=
  lines.flatMap (Line.brings used)

/-- The names that lines bring into scope, where each path has a line of its own. -/
def scope (lines : List Line) : List String :=
  broughtBy usedNames lines

/-- The names that a file brings into scope. -/
def scopeOf (text : String) : List String :=
  (Text.lines text).flatMap (brings allUsedNames)

theorem indifferent_brings (used : String → List String) : Indifferent (brings used) := by
  intro depth text
  rw [brings, indifferent_lineWords, unindented_indented]
  rfl

theorem scopeOf_layout {lines : List Line} (h : OneLined lines) :
    scopeOf (layout lines) = broughtBy allUsedNames lines :=
  flatMap_lines_layout (indifferent_brings allUsedNames) (by decide) h

theorem allUsedNames_of_lacks {text : String} (path : String) (h : Text.Lacks ';' path)
    (some : path ≠ "") (same : text = path ++ ";") : allUsedNames text = usedNames text := by
  have unmarked : ∀ c ∈ path.toList, (c == ';') = false := by
    intro c hc
    rw [beq_eq_false_iff_ne]
    rintro rfl
    exact h hc
  have chars : text.toList = path.toList ++ ';' :: [] := by simp [same]
  have pieces : Text.splitAtMarks (· == ';') text.toList = [path.toList, []] := by
    rw [chars, Text.splitAtMarks_append_mark (by decide), Text.splitAtMarks_of_unmarked unmarked]
    rfl
  rw [allUsedNames, pieces, usedNames, chars, List.dropLast_concat]
  simp [some]

/-- A runtime in which a path ends can bring any name with it. -/
example : brings allUsedNames "use runtime as rt; use other::String; use runtime as rt;" =
    ["rt", "String", "rt"] := by decide

/-- The lines of a schema that start with `use` are read as paths that have lines of their own. -/
structure Reading (schema : Schema) (used : String → List String) : Prop where
  runtime : used (useRuntime schema).text = usedNames (useRuntime schema).text
  tokens : used (useTokens schema).text = usedNames (useTokens schema).text
  types : ∀ names, Text.Lacks ';' names →
    used s!"use super::{names};" = usedNames s!"use super::{names};"

theorem reading_usedNames (schema : Schema) : Reading schema usedNames :=
  ⟨rfl, rfl, fun _ _ => rfl⟩

theorem reading_allUsedNames {schema : Schema} (h : schema.Contained) :
    Reading schema allUsedNames := by
  have path := lacks_tokensPath (by decide : isForeign ';' = true)
    fun segment hs => (h.vocabulary segment hs).2
  refine ⟨?_, ?_, fun names hn => ?_⟩
  · apply allUsedNames_of_lacks s!"use {schema.runtime} as rt"
    · simp (disch := decide) [toString, h.runtime.2]
    · simp [toString]
    · simp [useRuntime, toString, ← String.toList_inj]
  · simp only [useTokens]
    split
    · apply allUsedNames_of_lacks s!"use {tokensPath schema}"
      · simp (disch := decide) [toString, path]
      · simp [toString]
      · simp [toString]
    · apply allUsedNames_of_lacks s!"use {tokensPath schema} as tokens"
      · simp (disch := decide) [toString, path]
      · simp [toString]
      · simp [toString, ← String.toList_inj]
  · apply allUsedNames_of_lacks s!"use super::{names}"
    · simp (disch := decide) [toString, hn]
    · simp [toString]
    · simp [toString]

section

variable {used : String → List String} {text first second : String} {rest : List String}

theorem brings_of_first (words : lineWords text = first :: rest) (use : first ≠ "use")
    (pub : first ≠ "pub") : brings used text = [] := by
  unfold brings
  rw [words]
  split
  · next same =>
    obtain ⟨rfl, _⟩ := List.cons.inj same
    simp [use, pub]
  · rfl

theorem brings_of_second (words : lineWords text = "pub" :: second :: rest)
    (struct : second ≠ "struct") (trait : second ≠ "trait") : brings used text = [] := by
  simp [brings, words, struct, trait]

end

section

variable (used : String → List String)

@[simp] theorem broughtBy_append (lines more : List Line) :
    broughtBy used (lines ++ more) = broughtBy used lines ++ broughtBy used more :=
  List.flatMap_append

@[simp] theorem broughtBy_cons (line : Line) (lines : List Line) :
    broughtBy used (line :: lines) = line.brings used ++ broughtBy used lines :=
  List.flatMap_cons

@[simp] theorem broughtBy_nil : broughtBy used [] = [] :=
  rfl

theorem Line.Member.brings {line : Line} (h : line.Member) : line.brings used = [] := by
  cases h with
  | inner h =>
      obtain ⟨first, rest, words⟩ := exists_lineWords line.text
      exact brings_of_first words (h.first_ne words (by decide) (by decide))
        (h.first_ne words (by decide) (by decide))
  | pub h => exact brings_of_second h.lineWords_text h.struct h.trait

@[simp] theorem Line.Inner.brings {line : Line} (h : line.Inner) : line.brings used = [] :=
  h.member.brings used

theorem Members.broughtBy {lines : List Line} (h : Members lines) : broughtBy used lines = [] :=
  List.flatMap_eq_nil_iff.mpr fun line hl => (h line hl).brings used

theorem brings_impl {line : Line} (rest : String) (text : line.text = "impl" ++ " " ++ rest) :
    line.brings used = [] := by
  have words : lineWords line.text = "impl" :: spaced rest := by
    rw [text, lineWords_cons (by decide) (by decide)]
  exact brings_of_first words (by decide) (by decide)

theorem brings_struct {type : String} (single : ' ' ∉ type.toList) :
    (Line.opening s!"pub struct {type} \x7b").brings used = [type] := by
  rw [Line.brings, brings, lineWords_struct single]
  simp

theorem brings_trait {type bounds : String} (single : ' ' ∉ type.toList) :
    (Line.plain s!"pub trait {type}: {bounds} \x7b\x7d").brings used = [type] := by
  have text : s!"pub trait {type}: {bounds} \x7b\x7d" =
      "pub" ++ " " ++ ("trait" ++ " " ++ ((type ++ ":") ++ " " ++ (bounds ++ " \x7b\x7d"))) := by
    simp [← String.toList_inj, toString]
  have colon : ' ' ∉ (type ++ ":").toList := by
    rw [String.toList_append, List.mem_append]
    exact fun hc => hc.elim single (by decide)
  have words : lineWords (Line.plain s!"pub trait {type}: {bounds} \x7b\x7d").text =
      "pub" :: "trait" :: (type ++ ":") :: spaced (bounds ++ " \x7b\x7d") := by
    rw [Line.text, text, lineWords_cons (by decide) (by decide), spaced_cons (by decide),
      spaced_cons colon]
  rw [Line.brings, brings, words]
  simp

theorem Line.Use.brings {line : Line} (h : line.Use) : line.brings used = used line.text := by
  obtain ⟨path, text⟩ := h
  obtain ⟨second, rest, words⟩ := exists_spaced path
  have words : lineWords line.text = "use" :: second :: rest := by
    rw [text, lineWords_cons (by decide) (by decide), words]
  have same : Text.unindented line.text = line.text := by
    apply Text.unindented_of_opensWith
    rw [text]
    simp +decide
  simp [Line.brings, Code.brings, words, same]

end

/-- The last name of a path. -/
theorem usedNames_of_last {text name : String} (before : List Char) (m : Char)
    (chars : text.toList = before ++ m :: name.toList ++ [';'])
    (mark : Text.isBreak m = true) (brace : m ≠ '\x7d')
    (h : ∀ c ∈ name.toList, Text.isIdentifierPart c = true) : usedNames text = [name] := by
  have plain : ∀ c ∈ name.toList, Text.isBreak c = false := by
    intro c hc
    simp [Text.isBreak, h c hc]
  have last : (before ++ m :: name.toList).getLast? ≠ some '\x7d' := by
    rw [List.getLast?_append_of_ne_nil _ (List.cons_ne_nil _ _)]
    intro he
    obtain rfl | hc := List.mem_cons.mp (List.mem_of_getLast? he)
    · exact brace rfl
    · exact absurd (h _ hc) (by decide)
  simp only [usedNames, pathNames, chars, List.dropLast_concat, last, if_false,
    Text.lastPiece_append_mark mark before plain, String.ofList_toList]

theorem listedNames_space (list : List Char) : listedNames (' ' :: list) = listedNames list := by
  obtain ⟨piece, pieces, h⟩ :=
    List.exists_cons_of_ne_nil (Text.splitAtMarks_ne_nil (· == ',') list)
  simp [listedNames, Text.splitAtMarks, h]

theorem listedNames_single {name : String}
    (h : ∀ c ∈ name.toList, Text.isIdentifierPart c = true) : listedNames name.toList = [name] := by
  have unmarked : ∀ c ∈ name.toList, (c == ',') = false := by
    intro c hc
    rw [beq_eq_false_iff_ne]
    rintro rfl
    exact absurd (h _ hc) (by decide)
  have kept : name.toList.dropWhile (· == ' ') = name.toList := by
    cases chars : name.toList with
    | nil => rfl
    | cons c rest =>
        apply List.dropWhile_cons_of_neg
        rw [beq_iff_eq]
        rintro rfl
        exact absurd (h ' ' (chars ▸ List.mem_cons_self)) (by decide)
  simp [listedNames, Text.splitAtMarks_of_unmarked unmarked, kept]

section

variable {names : List String}
  (h : ∀ name ∈ names, ∀ c ∈ name.toList, Text.isIdentifierPart c = true)
include h

theorem listedNames_intercalate (some : names ≠ []) :
    listedNames (", ".intercalate names).toList = names := by
  induction names with
  | nil => exact absurd rfl some
  | cons name rest ih =>
      obtain ⟨here, later⟩ := List.forall_mem_cons.mp h
      cases rest with
      | nil => rw [String.intercalate_singleton, listedNames_single here]
      | cons next rest =>
          have chars : (", ".intercalate (name :: next :: rest)).toList =
              name.toList ++ ',' :: ' ' :: (", ".intercalate (next :: rest)).toList := by
            simp
          have split (b : List Char) :
              listedNames (name.toList ++ ',' :: b) = listedNames name.toList ++ listedNames b := by
            rw [listedNames, Text.splitAtMarks_append_mark (by decide), List.map_append]
            rfl
          rw [chars, split, listedNames_single here, listedNames_space,
            ih later (List.cons_ne_nil _ _)]
          rfl

theorem brace_not_mem_intercalate : '\x7b' ∉ (", ".intercalate names).toList := by
  induction names with
  | nil => simp
  | cons name rest ih =>
      obtain ⟨here, later⟩ := List.forall_mem_cons.mp h
      have first : '\x7b' ∉ name.toList := fun hc => absurd (here _ hc) (by decide)
      cases rest with
      | nil => simpa using first
      | cons next rest => simpa using ⟨first, by simpa using ih later⟩

theorem usedNames_braced (some : names ≠ []) :
    usedNames s!"use super::{braced names};" = names := by
  let list := (", ".intercalate names).toList
  have chars : s!"use super::{braced names};".toList =
      "use super::".toList ++ '\x7b' :: list ++ ['\x7d'] ++ [';'] := by
    simp [toString, braced, list]
  have unmarked : ∀ c ∈ list, (c == '\x7b') = false := by
    intro c hc
    rw [beq_eq_false_iff_ne]
    rintro rfl
    exact brace_not_mem_intercalate h hc
  have last : Text.lastPiece (· == '\x7b') ("use super::".toList ++ '\x7b' :: list) = list :=
    Text.lastPiece_append_mark rfl _ unmarked
  rw [usedNames, chars, pathNames]
  simp only [List.dropLast_concat, List.getLast?_concat, if_true, last]
  exact listedNames_intercalate h some

end

theorem usedNames_useRuntime (schema : Schema) : usedNames (useRuntime schema).text = ["rt"] := by
  apply usedNames_of_last s!"use {schema.runtime} as".toList ' ' _ (by decide) (by decide)
    (List.all_iff_forall_prop.mp (by decide))
  simp [useRuntime, Line.text, toString]

/-- A module that is called `tokens` is used by that name, and so is any other one. -/
theorem usedNames_useTokens (schema : Schema) :
    usedNames (useTokens schema).text = ["tokens"] := by
  have parts : ∀ c ∈ "tokens".toList, Text.isIdentifierPart c = true :=
    List.all_iff_forall_prop.mp (by decide)
  simp only [useTokens]
  split
  · next module =>
    simp only [isTokensModule, Bool.or_eq_true, beq_iff_eq] at module
    obtain module | module := module
    · rw [String.endsWith_eq_endsWith_toSlice, String.Slice.endsWith_string_iff,
        String.copy_toSlice] at module
      obtain ⟨before, chars⟩ := module
      apply usedNames_of_last ("use ".toList ++ before ++ [':']) ':' _ (by decide) (by decide)
        parts
      simp [Line.text, toString, ← chars]
    · apply usedNames_of_last "use".toList ' ' _ (by decide) (by decide) parts
      simp [Line.text, toString, module]
  · apply usedNames_of_last s!"use {tokensPath schema} as".toList ' ' _ (by decide) (by decide)
      parts
    simp [Line.text, toString]

/-! ### Blocks -/

section

variable (used : String → List String)

theorem broughtBy_accessorBlock (type : String) (fields : List String) :
    broughtBy used (accessorBlock type fields) = [] := by
  refine List.flatMap_eq_nil_iff.mpr fun line hl => ?_
  obtain member | rfl := members_accessorBlock type fields line hl
  · exact member.brings used
  · apply brings_impl used s!"{type} \x7b"
    simp [Line.text, ← String.toList_inj, toString]

theorem broughtBy_capabilityLines (type : String) (names : List String) :
    broughtBy used (capabilityLines type names) = [] := by
  have each (name : String) :
      (Line.plain s!"impl {name} for {type} \x7b\x7d").brings used = [] := by
    apply brings_impl used s!"{name} for {type} \x7b\x7d"
    simp [Line.text, ← String.toList_inj, toString]
  cases names with
  | nil => rfl
  | cons first rest => simp [capabilityLines, broughtBy, each]

theorem broughtBy_unparseLines (type : String) {body : List Line} (h : Members body) :
    broughtBy used (unparseLines type body) = [] := by
  have first : (Line.opening s!"impl rt::Unparse for {type} \x7b").brings used = [] := by
    apply brings_impl used s!"rt::Unparse for {type} \x7b"
    simp [Line.text, ← String.toList_inj, toString]
  simp +decide [unparseLines, h.broughtBy, first]

end

section

variable {schema : Schema} {used : String → List String} (reading : Reading schema used)
include reading

theorem brings_useRuntime : (useRuntime schema).brings used = ["rt"] := by
  rw [(use_useRuntime schema).brings, reading.runtime, usedNames_useRuntime]

theorem brings_useTokens : (useTokens schema).brings used = ["tokens"] := by
  rw [(use_useTokens schema).brings, reading.tokens, usedNames_useTokens]

variable {names : List String}
  (h : ∀ name ∈ names, ∀ c ∈ name.toList, Text.isIdentifierPart c = true)
include h

theorem brings_braced (some : names ≠ []) :
    (Line.plain s!"use super::{braced names};").brings used = names := by
  have path : Text.Lacks ';' (braced names) := by
    have list : Text.Lacks ';' (", ".intercalate names) :=
      Text.lacks_intercalate (by decide) fun name hn hc => absurd (h name hn _ hc) (by decide)
    simp (disch := decide) [braced, list]
  rw [(use_super _).brings, text_plain, reading.types _ path, usedNames_braced h some]

theorem broughtBy_useTypes : broughtBy used (useTypes names) = names := by
  match names with
  | [] => rfl
  | [name] =>
      have here := List.forall_mem_singleton.mp h
      have brings : (Line.plain s!"use super::{name};").brings used = [name] := by
        rw [(use_super _).brings, text_plain,
          reading.types name fun hc => absurd (here _ hc) (by decide)]
        apply usedNames_of_last "use super:".toList ':' _ (by decide) (by decide) here
        simp [toString]
      rw [useTypes, broughtBy_cons, brings, broughtBy_nil, List.append_nil]
  | name :: next :: rest =>
      change broughtBy used [.plain s!"use super::{braced (name :: next :: rest)};"] = _
      rw [broughtBy_cons, brings_braced reading h (List.cons_ne_nil _ _), broughtBy_nil,
        List.append_nil]

end

variable {s : Shapes}

theorem parts_typeName (lawful : s.Lawful) (id : s.Id) :
    ∀ c ∈ (typeName s id).toList, Text.isIdentifierPart c = true :=
  isIdentifierPart_typeIdent (lawful.identifier_name id)

theorem parts_used (lawful : s.Lawful) (rule : String) {held : List String}
    (h : ∀ name ∈ held, ∀ c ∈ name.toList, Text.isIdentifierPart c = true) :
    ∀ name ∈ sortNames (held ++ capabilities s rule), ∀ c ∈ name.toList,
      Text.isIdentifierPart c = true := by
  intro name hn
  obtain hn | hn := List.mem_append.mp (mem_sortNames.mp hn)
  · exact h name hn
  · obtain ⟨ancestor, ha, rfl⟩ := List.mem_map.mp hn
    have named := mem_names_of_mem_transitive lawful ha
    exact isIdentifierPart_typeIdent (lawful.identifier_of_mem named)

section

variable {used : String → List String} (reading : Reading s.schema used) (lawful : s.Lawful)
include reading lawful

theorem broughtBy_shapeLines {id : s.Id} {root : String}
    {steps : List (Step s.size)} (hp : s.plan id = .shape root steps) :
    broughtBy used (shapeLines s id root steps) =
      ["rt", "tokens"] ++ sortNames (heldTypes s id steps ++ capabilities s (s.name id)) ++
        [typeName s id] := by
  have fields : Members (steps.flatMap (fieldLines s)) :=
    members_flatMap fun step hs => members_fieldLines ((identifiers_of_shape lawful hp).2 step hs).1
  have held : ∀ name ∈ heldTypes s id steps, ∀ c ∈ name.toList,
      Text.isIdentifierPart c = true := by
    intro name hn
    obtain ⟨target, _, _, rfl⟩ := mem_heldTypes.mp hn
    exact parts_typeName lawful target
  have parts := parts_used lawful (s.name id) held
  simp +decide [shapeLines, (members_header _).broughtBy, brings_useRuntime reading,
    brings_useTokens reading, broughtBy_useTypes reading parts,
    brings_struct used (single_typeName lawful id), fields.broughtBy, broughtBy_accessorBlock,
    broughtBy_unparseLines used _ (members_unparseBody _ _ _), broughtBy_capabilityLines]

theorem broughtBy_delegateLines (id target : s.Id) :
    broughtBy used (delegateLines s id target) =
      ["rt"] ++ sortNames ((if target = id then [] else [typeName s target]) ++
        capabilities s (s.name id)) ++ [typeName s id] := by
  have held : ∀ name ∈ (if target = id then [] else [typeName s target]), ∀ c ∈ name.toList,
      Text.isIdentifierPart c = true := by
    split
    · simp
    · exact List.forall_mem_singleton.mpr (parts_typeName lawful target)
  have parts := parts_used lawful (s.name id) held
  have field : (Line.plain s!"pub {innerField}: {ruleType s target},").brings used = [] :=
    (members_inner target _ (by simp)).brings used
  have body : Members [.plain s!"rt::Unparse::unparse(&*self.{innerField})"] := by
    simp +decide [Members]
  simp +decide [delegateLines, (members_header _).broughtBy, brings_useRuntime reading,
    broughtBy_useTypes reading parts, brings_struct used (single_typeName lawful id), field,
    broughtBy_unparseLines used _ body, broughtBy_capabilityLines]

theorem broughtBy_capabilityUnitLines (id : s.Id) (alternatives : List s.Id) :
    broughtBy used (capabilityUnitLines s id alternatives) =
      ["rt"] ++ supertraits s (s.name id) ++ [typeName s id] := by
  have parts : ∀ name ∈ supertraits s (s.name id), ∀ c ∈ name.toList,
      Text.isIdentifierPart c = true := by
    intro name hn
    obtain ⟨lister, listed, rfl⟩ := mem_supertraits.mp hn
    exact isIdentifierPart_typeIdent (lawful.identifier_of_mem (mem_names_of_listed lawful listed))
  simp +decide [capabilityUnitLines, (members_header _).broughtBy, brings_useRuntime reading,
    broughtBy_useTypes reading parts, (members_implementors _).broughtBy,
    brings_trait used (single_typeName lawful id)]

end

/-- The rules whose types the file of a rule brings into scope. -/
inductive Brought (s : Shapes) (id : s.Id) : s.Id → Prop
  | own : Brought s id id
  | held {body : Body} {other : s.Id} : (s.rule id).form = .leaf body →
      s.name other ∈ (s.rule id).references → Brought s id other
  | above {body : Body} {other : s.Id} : (s.rule id).form = .leaf body →
      s.implements (s.name id) (s.name other) = true → Brought s id other
  | lister {names : List String} {other : s.Id} : (s.rule id).form = .alternatives names →
      s.name id ∈ (s.rule other).alternatives → Brought s id other

section

variable (lawful : s.Lawful) {id : s.Id} {type : String}
include lawful

/-- A concrete rule needs the types that it holds and the capabilities that its own type has. -/
theorem mem_used_iff {body : Body} (form : (s.rule id).form = .leaf body) {held : List String}
    (hh : ∀ type, type ∈ held ↔
      ∃ target ∈ (s.plan id).references, target ≠ id ∧ typeName s target = type) :
    type ∈ sortNames (held ++ capabilities s (s.name id)) ++ [typeName s id] ↔
      ∃ other, Brought s id other ∧ typeName s other = type := by
  have concrete := lawful.isChoice_of_leaf form
  rw [List.mem_append, mem_sortNames, List.mem_append, hh, List.mem_singleton]
  constructor
  · rintro ((⟨target, ht, _, rfl⟩ | above) | rfl)
    · refine ⟨target, .held form ?_, rfl⟩
      rw [lawful.references_eq_map]
      exact List.mem_map_of_mem ht
    · obtain ⟨ancestor, ha, rfl⟩ := List.mem_map.mp above
      obtain ⟨named, _, implements⟩ := (mem_transitive_of_concrete lawful concrete).mp ha
      obtain ⟨other, rfl⟩ := Shapes.mem_names_iff.mp named
      exact ⟨other, .above form implements, rfl⟩
    · exact ⟨id, .own, rfl⟩
  · rintro ⟨other, brought, rfl⟩
    -- a rule that refers to itself has its own type in scope already
    by_cases same : other = id
    · exact .inr (congrArg (typeName s) same)
    · refine .inl ?_
      cases brought with
      | own => exact absurd rfl same
      | held _ named =>
          rw [lawful.references_eq_map, List.mem_map] at named
          obtain ⟨target, ht, hn⟩ := named
          exact .inl ⟨other, lawful.name_injective hn ▸ ht, same, rfl⟩
      | above _ implements =>
          refine .inr (List.mem_map_of_mem ?_)
          refine (mem_transitive_of_concrete lawful concrete).mpr ⟨?_, ?_, implements⟩
          · exact Shapes.mem_names_iff.mpr ⟨other, rfl⟩
          · exact fun hn => same (lawful.name_injective hn)
      | lister choice _ => simp [form] at choice

variable {used : String → List String} (reading : Reading s.schema used)
include reading

theorem mem_broughtBy_ruleLines (own : type ∉ ["rt", "tokens"]) :
    type ∈ broughtBy used (ruleLines s id) ↔
      ∃ other, Brought s id other ∧ typeName s other = type := by
  obtain ⟨rt, tokens⟩ : type ≠ "rt" ∧ type ≠ "tokens" := by simpa using own
  unfold ruleLines
  cases hp : s.plan id with
  | shape root steps =>
      obtain ⟨body, has, _⟩ := lawful.body_of_shape hp
      have held (type : String) : type ∈ heldTypes s id steps ↔
          ∃ target ∈ (s.plan id).references, target ≠ id ∧ typeName s target = type := by
        rw [mem_heldTypes, hp]
        rfl
      rw [← mem_used_iff lawful has.1 held, broughtBy_shapeLines reading lawful hp,
        List.append_assoc, List.mem_append]
      simp [rt, tokens]
  | delegate target =>
      obtain ⟨body, form, _⟩ := lawful.body_of_delegate hp
      have held (type : String) : type ∈ (if target = id then [] else [typeName s target]) ↔
          ∃ target ∈ (s.plan id).references, target ≠ id ∧ typeName s target = type := by
        rw [hp]
        by_cases same : target = id
        · simp [same, Plan.references]
        · simp [same, Plan.references, @eq_comm _ type]
      rw [← mem_used_iff lawful form held, broughtBy_delegateLines reading lawful,
        List.append_assoc, List.mem_append]
      simp [rt]
  | choice alternatives =>
      have form := lawful.form_of_choice hp
      rw [broughtBy_capabilityUnitLines reading lawful, List.append_assoc, List.mem_append,
        List.mem_append, mem_supertraits, List.mem_singleton, List.mem_singleton]
      constructor
      · rintro (same | ⟨lister, listed, rfl⟩ | rfl)
        · exact absurd same rt
        · obtain ⟨rule, hr, rfl, mem⟩ := lawful.listed_iff_mem.mp listed
          obtain ⟨other, rfl⟩ := List.mem_iff_get.mp hr
          exact ⟨other, .lister form mem, rfl⟩
        · exact ⟨id, .own, rfl⟩
      · rintro ⟨other, brought, rfl⟩
        cases brought with
        | own => exact .inr (.inr rfl)
        | held leaf _ | above leaf _ => simp [form] at leaf
        | lister _ mem =>
            have listed := lawful.listed_iff_mem.mpr ⟨_, List.get_mem _ other, rfl, mem⟩
            exact .inr (.inl ⟨s.name other, listed, rfl⟩)

theorem mem_broughtBy_parserLines (own : type ∉ ["rt", "tokens"]) :
    type ∈ broughtBy used (parserLines s) ↔ ∃ id, typeName s id = type := by
  obtain ⟨rt, tokens⟩ : type ≠ "rt" ∧ type ≠ "tokens" := by simpa using own
  -- the vocabulary is in use only where some rule has a kind
  have modules : type ∉ broughtBy used
      (if s.ids.any fun id => isShape (s.plan id) then [useTokens s.schema] else []) := by
    split <;> simp [brings_useTokens reading, tokens]
  have types : broughtBy used (if s.ids.isEmpty then [] else
      [.plain s!"use super::{braced (s.ids.map (typeName s))};"]) = s.ids.map (typeName s) := by
    split
    · next none => simp [List.isEmpty_iff.mp none]
    · next some =>
      have parts : ∀ name ∈ s.ids.map (typeName s), ∀ c ∈ name.toList,
          Text.isIdentifierPart c = true :=
        List.forall_mem_map.mpr fun id _ => parts_typeName lawful id
      rw [broughtBy_cons, brings_braced reading parts (by simpa using some), broughtBy_nil,
        List.append_nil]
  simp only [parserLines, broughtBy_append, (members_header _).broughtBy,
    (members_functions lawful).broughtBy, types, List.mem_append, modules]
  simp +decide [brings_useRuntime reading, rt, Shapes.ids]

end

/-- The types that generated code calls by their own names. -/
def standardTypes : List String :=
  ["String", "Option", "Vec", "Box", "Result"]

theorem typeIdent_eq_iff {name word : String} (hw : word ∈ standardTypes) :
    typeIdent name = word ↔ SpelledAs word name := by
  obtain ⟨capital, small, chars, upper, lower⟩ : ∃ capital small, word.toList = capital :: small ∧
      capital ≠ '_' ∧ ∀ c ∈ small, c.isLower = true := by
    simp only [standardTypes, List.mem_cons, List.not_mem_nil, or_false] at hw
    obtain rfl | rfl | rfl | rfl | rfl := hw
    all_goals exact ⟨_, _, rfl, by decide, List.all_iff_forall_prop.mp (by decide)⟩
  have other : word ≠ "Self" ∧ word ≠ "Self_" := by
    constructor
    · rintro rfl
      exact absurd hw (by decide)
    · rintro rfl
      exact absurd hw (by decide)
  rw [← upperCamelCase_eq_iff chars upper lower]
  obtain ⟨same, _⟩ | ⟨camel, same⟩ := typeIdent_eq_or name
  · rw [same]
  · rw [same, camel]
    exact iff_of_false other.2.symm other.1.symm

/-- A file of an emitted package brings the name of a standard type into scope exactly if a rule
whose type it brings in is called like it. Every rule is one of those for the functions of the
package. If what the schema has written as it is ends no path, so it is for the text of the file. -/
theorem standardType_mem_scope_iff {schema : Schema} {s : Shapes} {files : List SourceUnit}
    (h : Shapes.compile schema = .ok s) (emitted : emit s = .ok files) :
    (∀ id, ⟨unitName (s.name id), layout (ruleLines s id)⟩ ∈ files) ∧
    ⟨parserUnit, layout (parserLines s)⟩ ∈ files ∧
    ∀ word ∈ standardTypes,
      (∀ id, typeName s id = word ↔ SpelledAs word (s.name id)) ∧
      (word ∈ scope (parserLines s) ↔ ∃ id, SpelledAs word (s.name id)) ∧
      (∀ id, word ∈ scope (ruleLines s id) ↔
        ∃ other, Brought s id other ∧ SpelledAs word (s.name other)) ∧
      (schema.Contained →
        (word ∈ scopeOf (layout (parserLines s)) ↔ ∃ id, SpelledAs word (s.name id)) ∧
        ∀ id, word ∈ scopeOf (layout (ruleLines s id)) ↔
          ∃ other, Brought s id other ∧ SpelledAs word (s.name other)) := by
  obtain ⟨rfl, lawful⟩ := Shapes.lawful_of_compile h
  obtain ⟨_, rfl⟩ := emit_eq_ok_iff.mp emitted
  refine ⟨fun id => ?_, ?_, fun word hw => ?_⟩
  · exact ruleUnit_mem_units id
  · exact List.mem_append_right _ List.mem_cons_self
  · have own : word ∉ ["rt", "tokens"] := by
      revert word
      decide
    have spelled (id : s.Id) : typeName s id = word ↔ SpelledAs word (s.name id) :=
      typeIdent_eq_iff hw
    have lines := reading_usedNames s.schema
    simp only [← spelled]
    refine ⟨fun _ => trivial, mem_broughtBy_parserLines lawful lines own,
      fun id => mem_broughtBy_ruleLines lawful lines own, fun contained => ?_⟩
    have texts := reading_allUsedNames contained
    rw [scopeOf_layout (oneLined_parserLines lawful contained)]
    refine ⟨mem_broughtBy_parserLines lawful texts own, fun id => ?_⟩
    rw [scopeOf_layout (oneLined_ruleLines lawful contained id)]
    exact mem_broughtBy_ruleLines lawful texts own

/-- A rule for strings, by that name, which holds a text. -/
def strings : Schema where
  package := ["demo"]
  tokenVocab := ["tokens"]
  runtime := "runtime"
  rules := [⟨"string", .leaf ⟨"STRING", [.of "value" .text .one]⟩⟩]

def stringShapes : Shapes where
  schema := strings
  ancestry := ⟨[]⟩
  plans := [.shape "STRING" [.text "value" false]]
  length_plans := rfl

theorem compile_strings : Shapes.compile strings = .ok stringShapes := by
  rfl

theorem emit_strings : emit stringShapes = .ok (units stringShapes) := by
  rfl

theorem standardType_mem_scope_strings :
    "String" ∈ scope (parserLines stringShapes) ∧ "Option" ∉ scope (parserLines stringShapes) ∧
      "String" ∈ scopeOf (layout (parserLines stringShapes)) := by
  obtain ⟨_, _, each⟩ := standardType_mem_scope_iff compile_strings emit_strings
  obtain ⟨_, parser, _, text⟩ := each "String" (by decide)
  obtain ⟨spelled, parser', _⟩ := each "Option" (by decide)
  have other : ∀ id, typeName stringShapes id ≠ "Option" := by decide
  have rule : ∃ id, SpelledAs "String" (stringShapes.name id) :=
    ⟨⟨0, by decide⟩, 0, 's', "tring".toList, 0, by decide, by decide⟩
  refine ⟨parser.mpr rule, fun h => ?_, (text (by decide)).1.mpr rule⟩
  obtain ⟨id, h⟩ := parser'.mp h
  exact other id ((spelled id).mpr h)

/-- The file declares a `String`, and the text in it should be another one. -/
theorem string_shadows :
    emit stringShapes = .ok (units stringShapes) ∧
      ∃ id : stringShapes.Id, typeName stringShapes id = "String" ∧
        "String" ∈ scope (ruleLines stringShapes id) ∧
        .opening "pub struct String \x7b" ∈ ruleLines stringShapes id ∧
        .plain "pub value: String," ∈ ruleLines stringShapes id := by
  have lawful := (Shapes.lawful_of_compile compile_strings).2
  refine ⟨emit_strings, ⟨0, by decide⟩, by decide, ?_, by decide, by decide⟩
  exact (mem_broughtBy_ruleLines lawful (reading_usedNames _) (by decide)).mpr ⟨_, .own, by decide⟩

end Code
end TreeShape
