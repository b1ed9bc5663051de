import TreeShape.Proofs.Callees
import TreeShape.Proofs.Passages
import TreeShape.Proofs.Storage

/-!
Emitting a package succeeds exactly if no two names of the schema meet in generated code. In what is
then emitted nothing meets: neither files, wherever they are written, nor modules, types and
variables. Nor do functions, and they call what is defined once, if what the schema has written as
it is ends no line.
-/

namespace TreeShape.Code

/-- The functions of a package in the text of the file that has all of them. -/
structure Resolved (s : Shapes) (text : String) : Prop where
  defines : definitions text = s.ids.flatMap fun id => (roles (s.plan id)).map (functionName s id)
  distinct : (definitions text).Nodup
  calls : ∀ id, ∀ role ∈ roles (s.plan id),
    (functionBody text (functionName s id role)).flatMap callees = callsOf s (s.plan id) role
  called : ∀ id, ∀ role ∈ roles (s.plan id),
    ∀ callee ∈ (functionBody text (functionName s id role)).flatMap callees,
      (definitions text).count callee = 1
  /-- A word that could be a function to test or read is one, or is a name of the rule. -/
  mentioned : ∀ id, ∀ role ∈ roles (s.plan id),
    ∀ line ∈ functionBody text (functionName s id role),
      ∀ word ∈ Text.codeWords line, isReader word = true →
        word ∈ ownNames (s.name id) (s.plan id) ∨ (definitions text).count word = 1

/-- The names of a package are told apart wherever they stand. -/
structure Separate (s : Shapes) (files : List SourceUnit) : Prop where
  units : files.map (·.name) = s.schema.names.map unitName ++ [parserUnit, modUnit]
  distinct : (files.map (·.name)).Nodup
  spelled : ∀ file ∈ files, file.name ≠ "" ∧ ∀ c ∈ file.name.toList, IsSmall c
  paths : ∀ directory, (files.map (unitPath directory)).Nodup
  /-- Whatever was on the disk, every file holds its own unit in the end. -/
  kept : ∀ root disk directory written,
    (Disk.access.writePackage root s.schema.package files).run disk = (.ok directory, written) →
      ∀ file ∈ files, written.read (unitPath directory file) = .ok file.contents
  functions : s.schema.Contained →
    ∃ file ∈ files, file.name = parserUnit ∧ Resolved s file.contents
  modules : (s.schema.names.map fieldIdent ++ [parserUnit]).Nodup
  types : (s.schema.names.map typeIdent).Nodup
  fields : ∀ id body, s.HasBody id body →
    (body.items.map fun item => fieldIdent item.field).Nodup ∧
      (body.items.map fun item => snakeCase item.field).Nodup
  locals : ∀ id body, s.HasBody id body →
    (body.items.map fun item => localIdent item.field).Nodup ∧
      ∀ item ∈ body.items, localIdent item.field ∉ ownLocals

theorem plainName_of_isSmall {name : String} (h : ∀ c ∈ name.toList, IsSmall c) :
    PlainName (name ++ ".rs") := by
  have long : 3 ≤ (name ++ ".rs").toList.length := by
    rw [String.toList_append, List.length_append]
    exact Nat.le_add_left 3 _
  refine ⟨?_, ?_, ?_, ?_⟩
  · rw [String.toList_append, List.mem_append]
    intro slash
    obtain slash | slash := slash
    · exact absurd (h _ slash) (by decide)
    · exact absurd slash (by decide)
  all_goals
    intro he
    rw [he] at long
    exact absurd long (by decide)

theorem name_of_unitPath_eq {file other : SourceUnit} (plain : PlainName (file.name ++ ".rs"))
    (plain' : PlainName (other.name ++ ".rs")) {directory : Path}
    (h : unitPath directory file = unitPath directory other) : file.name = other.name := by
  obtain ⟨front, pieces⟩ := Path.exists_pieces_join plain directory
  obtain ⟨front', pieces'⟩ := Path.exists_pieces_join plain' directory
  have same : front ++ [file.name ++ ".rs"] = front' ++ [other.name ++ ".rs"] := by
    rw [← pieces, ← pieces']
    exact congrArg Path.pieces h
  simpa using (List.append_inj' same rfl).2

variable {s : Shapes}

theorem emit_eq_ok_iff {files : List SourceUnit} :
    emit s = .ok files ↔ checkClashes s = .ok () ∧ units s = files := by
  rw [emit, check_bind_eq_ok_iff, pure_eq_ok_iff]

theorem emit_eq_error_iff {clash : Clash} :
    emit s = .error clash ↔ checkClashes s = .error clash := by
  rw [emit, check_bind_eq_error_iff]
  simp [pure, Except.pure]

theorem ruleUnit_mem_units (id : s.Id) : ruleUnit s id ∈ units s :=
  List.mem_append_left _ (List.mem_map_of_mem (List.mem_finRange id))

theorem map_name_units (s : Shapes) :
    (units s).map (·.name) = s.schema.names.map unitName ++ [parserUnit, modUnit] := by
  rw [units, List.map_append, List.map_map, ← map_name_ids, List.map_map]
  rfl

section

variable (lawful : s.Lawful) (apart : Apart s)
include lawful

theorem isSmall_of_mem_units {file : SourceUnit} (hf : file ∈ units s) :
    file.name ≠ "" ∧ ∀ c ∈ file.name.toList, IsSmall c := by
  have hn : file.name ∈ (units s).map (·.name) := List.mem_map_of_mem hf
  rw [map_name_units, List.mem_append] at hn
  obtain hn | hn := hn
  · obtain ⟨rule, hr, he⟩ := List.mem_map.mp hn
    have valid := lawful.identifier_of_mem hr
    rw [← he]
    exact ⟨unitName_ne_empty valid, isSmall_unitName valid⟩
  · obtain he | he : file.name = parserUnit ∨ file.name = modUnit := by simpa using hn
    all_goals rw [he]; exact ⟨by decide, List.all_iff_forall_prop.mp (by decide)⟩

include apart

theorem nodup_map_name_units : ((units s).map (·.name)).Nodup := by
  rw [map_name_units, List.nodup_append]
  refine ⟨apart.units.nodup lawful.names_nodup, by decide, ?_⟩
  intro unit hu other ho
  obtain ⟨rule, hr, rfl⟩ := List.mem_map.mp hu
  obtain ⟨notParser, notMod⟩ := apart.package rule hr
  obtain rfl | rfl : other = parserUnit ∨ other = modUnit := by simpa using ho
  · exact notParser
  · exact notMod

theorem nodup_modules : (s.schema.names.map fieldIdent ++ [parserUnit]).Nodup := by
  have separate : KeepsApart fieldIdent s.schema.names := by
    intro a ha b hb he
    exact apart.units a ha b hb (unitName_eq_of_fieldIdent_eq (lawful.identifier_of_mem ha)
      (lawful.identifier_of_mem hb) he)
  rw [List.nodup_append]
  refine ⟨separate.nodup lawful.names_nodup, List.nodup_singleton _, ?_⟩
  intro module hm other ho
  obtain ⟨rule, hr, rfl⟩ := List.mem_map.mp hm
  rw [List.mem_singleton.mp ho]
  obtain he | ⟨_, he⟩ := fieldIdent_eq_or rule
  · rw [he]
    exact (apart.package rule hr).1
  · rw [he]
    intro raw
    have first : ("r#" ++ snakeCase rule).toList.head? = some 'p' := by rw [raw]; rfl
    rw [String.toList_append] at first
    cases first

omit apart in
/-- Functions begin in the file of the package where it has them, and nowhere else unless the lines
before them bring some in. -/
theorem definitions_parserLines :
    definitions (layout (parserLines s)) =
      definitions (layout (parserPreamble s)) ++ (functions s).map (·.name) := by
  have single : ∀ text ∈ layoutFrom 0 ((functions s).flatMap fun f => .blank :: f.lines),
      definitions text = (definition? text).toList := by
    intro text ht
    have feeds := lacks_of_mem_layoutFrom (oneLined_functions lawful) text ht
    rw [definitions, Text.lines_of_lacks feeds, List.filterMap_eq_flatMap_toList,
      List.flatMap_singleton]
  rw [definitions_layout, definitions_layout, parserLines_eq,
    layoutFrom_append (nested_parserPreamble s), List.flatMap_append, List.flatMap_congr single,
    ← List.filterMap_eq_flatMap_toList, filterMap_layoutFrom indifferent_definition?,
    filterMap_functions lawful (List.Subset.refl _)]

/-- The place of a function in the file of the package: no function of that name begins before. -/
theorem exists_place {f : Function} (hf : f ∈ functions s) : ∃ front back,
    parserLines s = front ++ .opening s!"pub fn {f.name}({f.parameters}) -> {f.result} \x7b" ::
      (f.body ++ .closing "\x7d" :: back) ∧
    Nested front ∧ f.name ∉ front.filterMap fun line => definition? line.text := by
  obtain ⟨before, after, all⟩ := List.append_of_mem hf
  obtain ⟨id, _, hr⟩ := List.mem_flatMap.mp hf
  have sub : before ⊆ functions s := by
    rw [all]
    exact List.subset_append_left _ _
  refine ⟨parserPreamble s ++ before.flatMap (fun f => .blank :: f.lines) ++ [.blank] ++ f.doc,
    after.flatMap fun f => .blank :: f.lines, ?_, ?_, ?_⟩
  · rw [parserLines_eq, all]
    simp [Function.lines]
  · exact (((nested_parserPreamble s).append (nested_flatMap_functions s sub)).append
      (nested_iff.mpr rfl)).append (nested_functions s f hf).1
  · have quiet : ∀ line ∈ f.doc, definition? line.text = none :=
      fun line hl => ((inner_of_mem lawful hr).1 line hl).definition?
    have blank : definition? Line.blank.text = none := by decide
    have distinct := nodup_map_name_functions lawful apart.units
    rw [all, List.map_append, List.nodup_append] at distinct
    simp only [List.filterMap_append, filterMap_functions lawful sub,
      List.filterMap_eq_nil_iff.mpr definition?_of_mem_parserPreamble,
      List.filterMap_eq_nil_iff.mpr quiet, List.filterMap_cons, blank, List.filterMap_nil,
      List.nil_append, List.append_nil]
    intro hb
    exact distinct.2.2 _ hb _ (List.mem_map_of_mem List.mem_cons_self) rfl

section

variable (contained : s.schema.Contained) {f : Function} (hf : f ∈ functions s)
include contained hf

theorem functionBody_parserLines :
    functionBody (layout (parserLines s)) f.name = layoutFrom 1 f.body := by
  obtain ⟨front, back, place, nested, other⟩ := exists_place lawful apart hf
  have oneLined := oneLined_parserLines lawful contained
  rw [place] at oneLined ⊢
  exact functionBody_layout oneLined nested (nested_functions s f hf).2 other
    (definition?_signature (isSmall_of_mem_functions lawful hf))

theorem signature_mem_lines : s!"pub fn {f.name}({f.parameters}) -> {f.result} \x7b" ∈
    Text.lines (layout (parserLines s)) := by
  obtain ⟨front, back, place, nested, _⟩ := exists_place lawful apart hf
  rw [lines_layout (oneLined_parserLines lawful contained), place, layoutFrom_append nested,
    layoutFrom, indented_zero]
  exact List.mem_append_left _ (List.mem_append_right _ List.mem_cons_self)

end

section

variable (contained : s.schema.Contained)
include contained

omit apart in
theorem definitions_of_contained :
    definitions (layout (parserLines s)) = (functions s).map (·.name) := by
  have none : definitions (layout (parserPreamble s)) = [] := by
    rw [definitions, filterMap_lines_layout indifferent_definition? (by decide)
      (oneLined_parserPreamble lawful contained)]
    exact List.filterMap_eq_nil_iff.mpr definition?_of_mem_parserPreamble
  rw [definitions_parserLines lawful, none, List.nil_append]

/-- The lines of a function in the file call what the function does. -/
theorem exists_functionBody (id : s.Id) {role : Role} (h : role ∈ roles (s.plan id)) :
    ∃ f ∈ ruleFunctions s id,
      functionBody (layout (parserLines s)) (functionName s id role) = layoutFrom 1 f.body ∧
        (layoutFrom 1 f.body).flatMap callees = callsOf s (s.plan id) role := by
  obtain ⟨f, hf, name, calls⟩ := exists_function lawful id h
  refine ⟨f, hf, ?_, ?_⟩
  · rw [← name]
    exact functionBody_parserLines lawful apart contained (mem_functions hf)
  · rw [flatMap_layoutFrom indifferent_callees, calls]

theorem resolved_parserLines : Resolved s (layout (parserLines s)) := by
  have names := definitions_of_contained lawful contained
  have distinct := nodup_map_name_functions lawful apart.units
  have once {name : String} (h : name ∈ (functions s).map (·.name)) :
      (definitions (layout (parserLines s))).count name = 1 := by
    rw [names]
    exact List.count_eq_one_of_mem distinct h
  refine ⟨by rw [names, map_name_functions], names ▸ distinct, ?_, ?_, ?_⟩
  · intro id role h
    obtain ⟨f, _, body, calls⟩ := exists_functionBody lawful apart contained id h
    rw [body, calls]
  · intro id role h callee hc
    obtain ⟨f, _, body, calls⟩ := exists_functionBody lawful apart contained id h
    rw [body, calls] at hc
    exact once (mem_of_mem_callsOf hc)
  · intro id role h line hl word hw reader
    obtain ⟨f, hf, body, _⟩ := exists_functionBody lawful apart contained id h
    rw [body] at hl
    -- the words that could be functions do not depend on the depth of the line
    have read : Indifferent fun text => (Text.codeWords text).filter isReader :=
      indifferent_of_piecewise piecewise_readers (by decide)
    have said : word ∈ (layoutFrom 1 f.body).flatMap
        fun text => (Text.codeWords text).filter isReader :=
      List.mem_flatMap.mpr ⟨line, hl, List.mem_filter.mpr ⟨hw, reader⟩⟩
    rw [flatMap_layoutFrom read] at said
    obtain ⟨line, hl, said⟩ := List.mem_flatMap.mp said
    obtain hf | own := mem_functions_or_mem_ownNames lawful hf hl (List.mem_filter.mp said).1 reader
    · exact .inr (once hf)
    · exact .inl own

end

theorem separate_units : Separate s (units s) := by
  have plain : ∀ file ∈ units s, PlainName (file.name ++ ".rs") :=
    fun file hf => plainName_of_isSmall (isSmall_of_mem_units lawful hf).2
  have distinct := nodup_map_name_units lawful apart
  refine
    { units := map_name_units s
      distinct := distinct
      spelled := fun file hf => isSmall_of_mem_units lawful hf
      paths := fun directory => ?_
      kept := fun root disk directory written h => Disk.read_of_writePackage h plain distinct
      functions := fun contained => ?_
      modules := nodup_modules lawful apart
      types := apart.types.nodup lawful.names_nodup
      fields := fun id body has => ?_
      locals := fun id body has => ?_ }
  · refine List.Nodup.map_on (fun file hf other ho he => ?_) (List.Nodup.of_map _ distinct)
    have same := name_of_unitPath_eq (plain file hf) (plain other ho) he
    exact List.inj_on_of_nodup_map distinct hf ho same
  · refine ⟨⟨parserUnit, layout (parserLines s)⟩, by simp [units], rfl, ?_⟩
    dsimp only
    exact resolved_parserLines lawful apart contained
  · have idents := (apart.fields id body has).nodup (lawful.items_nodup has)
    rw [List.map_map] at idents
    have again : body.items.map (fieldIdent ∘ (·.field)) =
        (body.items.map fun item => snakeCase item.field).map identifier := by
      rw [List.map_map]
      rfl
    exact ⟨idents, List.Nodup.of_map identifier (again ▸ idents)⟩
  · have locals := (apart.locals id body has).nodup (lawful.items_nodup has)
    rw [List.map_map] at locals
    exact ⟨locals, fun item _ => localIdent_not_mem_ownLocals item.field⟩

end

/-- Emitting succeeds exactly if no two names meet. If some do, it tells which; and otherwise the
names of the package are told apart wherever they stand. -/
theorem emit_iff_apart {schema : Schema} {s : Shapes} (h : Shapes.compile schema = .ok s) :
    s.schema = schema ∧ ((∃ files, emit s = .ok files) ↔ Apart s) ∧
      (∀ clash, emit s = .error clash → Genuine s clash) ∧
      ∀ files, emit s = .ok files → Separate s files := by
  obtain ⟨rfl, lawful⟩ := Shapes.lawful_of_compile h
  have ok := checkClashes_eq_ok_iff lawful
  refine ⟨rfl, ?_, ?_, ?_⟩
  · simp only [emit_eq_ok_iff, ok, exists_and_left, exists_eq', and_true]
  · intro clash hc
    exact genuine_of_checkClashes lawful (emit_eq_error_iff.mp hc)
  · intro files hf
    obtain ⟨hc, rfl⟩ := emit_eq_ok_iff.mp hf
    exact separate_units lawful (ok.mp hc)

/-- Two rules that are one file. -/
def twins : Schema where
  package := ["demo"]
  tokenVocab := []
  runtime := "runtime"
  rules := [⟨"ifStmt", .leaf ⟨"IF", []⟩⟩, ⟨"if_stmt", .leaf ⟨"IF", []⟩⟩]

def twinShapes : Shapes where
  schema := twins
  ancestry := ⟨[]⟩
  plans := [.shape "IF" [], .shape "IF" []]
  length_plans := rfl

theorem emit_iff_apart_statements :
    Apart statementShapes ∧ Separate statementShapes (units statementShapes) ∧
      (∃ file ∈ units statementShapes, file.name = parserUnit ∧
        Resolved statementShapes file.contents) ∧
      emit twinShapes = .error (.rules "ifStmt" "if_stmt" "if_stmt") ∧
      Genuine twinShapes (.rules "ifStmt" "if_stmt" "if_stmt") ∧ ¬ Apart twinShapes := by
  have good : emit statementShapes = .ok (units statementShapes) := by rfl
  have bad : emit twinShapes = .error (.rules "ifStmt" "if_stmt" "if_stmt") := by rfl
  have compiled : Shapes.compile twins = .ok twinShapes := by rfl
  obtain ⟨_, apart, _, separate⟩ := emit_iff_apart compile_statements
  obtain ⟨_, _, genuine, _⟩ := emit_iff_apart compiled
  have clash := genuine _ bad
  exact ⟨apart.mp ⟨_, good⟩, separate _ good, (separate _ good).functions (by decide), bad, clash,
    clash.not_apart⟩

/-- A schema whose runtime ends the line that it stands on and goes on with a function. -/
def spliced : Schema where
  package := ["demo"]
  tokenVocab := ["tokens"]
  runtime := "runtime as rt;\npub fn parse_ident() \x7b\x7d\nuse runtime"
  rules := [⟨"ident", .leaf ⟨"IDENT", []⟩⟩]

def splicedShapes : Shapes where
  schema := spliced
  ancestry := ⟨[]⟩
  plans := [.shape "IDENT" []]
  length_plans := rfl

/-- No names of the schema meet, and yet a function is in the file twice. -/
theorem parse_ident_defined_twice :
    Shapes.compile spliced = .ok splicedShapes ∧
      emit splicedShapes = .ok (units splicedShapes) ∧ Apart splicedShapes ∧
      ∃ file ∈ units splicedShapes, file.name = parserUnit ∧
        definitions file.contents =
          ["parse_ident", "can_parse_ident", "parse_ident", "make_ident"] ∧
        ¬ Resolved splicedShapes file.contents := by
  have compiled : Shapes.compile spliced = .ok splicedShapes := by rfl
  have emitted : emit splicedShapes = .ok (units splicedShapes) := by rfl
  have lawful := (Shapes.lawful_of_compile compiled).2
  have preamble : definitions (layout (parserPreamble splicedShapes)) = ["parse_ident"] := by
    rw [definitions_layout]
    decide +kernel
  have functions : (functions splicedShapes).map (·.name) =
      ["can_parse_ident", "parse_ident", "make_ident"] := by decide
  have twice : definitions (layout (parserLines splicedShapes)) =
      ["parse_ident", "can_parse_ident", "parse_ident", "make_ident"] := by
    rw [definitions_parserLines lawful, preamble, functions]
    rfl
  refine ⟨compiled, emitted, ?_, ⟨parserUnit, layout (parserLines splicedShapes)⟩, ?_, rfl, twice,
    fun resolved => ?_⟩
  · exact (checkClashes_eq_ok_iff lawful).mp (emit_eq_ok_iff.mp emitted).1
  · simp [units]
  · have once := resolved.distinct
    rw [twice] at once
    exact absurd once (by decide)

end TreeShape.Code
