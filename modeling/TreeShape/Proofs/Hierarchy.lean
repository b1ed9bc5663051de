import TreeShape.Proofs.Emission

/-!
The hierarchy of capabilities in generated code. The file of a concrete rule gives its type every
capability that the rule can stand in for, once, and the file of a rule with alternatives declares
what its capability extends. What a type has is closed under what is declared, and enough for its
values to be returned where alternatives are.
-/

namespace TreeShape.Code

variable {s : Shapes}

theorem single_typeName (lawful : s.Lawful) (id : s.Id) : ' ' ∉ (typeName s id).toList :=
  not_mem_typeIdent (lawful.identifier_name id) (by decide) (by decide)

/-- The ancestors of a concrete rule are the other rules that it can stand in for. -/
theorem mem_transitive_of_concrete (lawful : s.Lawful) {id : s.Id}
    (concrete : (s.plan id).isChoice = false) {name : String} :
    name ∈ s.ancestry.transitive (s.name id) ↔
      name ∈ s.schema.names ∧ name ≠ s.name id ∧ s.implements (s.name id) name = true := by
  rw [Shapes.implements, Ancestry.implements_iff, Relation.reflTransGen_iff_eq_or_transGen,
    ← Ancestry.mem_transitive_iff]
  constructor
  · intro h
    refine ⟨mem_names_of_mem_transitive lawful h, ?_, .inr h⟩
    -- A rule that lists others is not concrete.
    have lists : ∃ below, s.ancestry.Listed below name := by
      cases Ancestry.mem_transitive_iff.mp h with
      | single listed | tail _ listed => exact ⟨_, listed⟩
    obtain ⟨_, listed⟩ := lists
    obtain ⟨lister, _, _, hn, hp, _⟩ := lawful.listed_iff.mp listed
    rintro rfl
    cases lawful.name_injective hn
    simp [hp, Plan.isChoice] at concrete
  · intro ⟨_, other, h⟩
    exact h.resolve_left other

theorem single_typeIdent (lawful : s.Lawful) {name : String} (hn : name ∈ s.schema.names) :
    ' ' ∉ (typeIdent name).toList := by
  obtain ⟨id, rfl⟩ := Shapes.mem_names_iff.mp hn
  exact single_typeName lawful id

theorem single_of_mem_capabilities (lawful : s.Lawful) (rule : String) :
    ∀ name ∈ capabilities s rule, ' ' ∉ name.toList := by
  intro name hn
  obtain ⟨ancestor, ha, rfl⟩ := List.mem_map.mp hn
  exact single_typeIdent lawful (mem_names_of_mem_transitive lawful ha)

theorem filterMap_shapeLines (lawful : s.Lawful) {id : s.Id} {root : String}
    {steps : List (Step s.size)} (hp : s.plan id = .shape root steps) :
    (shapeLines s id root steps).filterMap (implementation? ·.text) =
        ("rt::Unparse", typeName s id) ::
          (capabilities s (s.name id)).map (·, typeName s id) ∧
      (shapeLines s id root steps).filterMap (declaration? ·.text) = [] := by
  have single : ' ' ∉ (typeName s id).toList := single_typeName lawful id
  have fields : Members (steps.flatMap (fieldLines s)) :=
    members_flatMap fun step hs => members_fieldLines ((identifiers_of_shape lawful hp).2 step hs).1
  have used : Silent [useRuntime s.schema, useTokens s.schema] := by
    simp [Silent, (use_useRuntime _).silent, (use_useTokens _).silent]
  have doc : Members [.blank, .plain s!"/// A node of kind `{root}`.",
      .plain "#[derive(Debug)]"] := by
    simp +decide [Members]
  have type : Silent [.blank, .plain s!"/// A node of kind `{root}`.", .plain "#[derive(Debug)]",
      .opening s!"pub struct {typeName s id} \x7b"] :=
    doc.silent.append (List.forall_mem_singleton.mpr (silent_struct single))
  have close : Members [Line.closing "\x7d"] := by simp +decide [Members]
  have blank : Members [Line.blank] := by simp [Members]
  have before := ((((((members_header s!"Rule `{s.name id}`: `{root}` nodes.").silent.append
    used).append
    (silent_useTypes (sortNames (heldTypes s id steps ++ capabilities s (s.name id))))).append
    type).append fields.silent).append close.silent).append
    (silent_accessorBlock single ((steps.filter isAbsentable).map (·.field))) |>.append blank.silent
  exact filterMap_concrete single before (members_unparseBody (s.name id) root steps)
    (single_of_mem_capabilities lawful (s.name id))

theorem filterMap_delegateLines (lawful : s.Lawful) (id target : s.Id) :
    (delegateLines s id target).filterMap (implementation? ·.text) =
        ("rt::Unparse", typeName s id) ::
          (capabilities s (s.name id)).map (·, typeName s id) ∧
      (delegateLines s id target).filterMap (declaration? ·.text) = [] := by
  have single : ' ' ∉ (typeName s id).toList := single_typeName lawful id
  have used : Silent [useRuntime s.schema] :=
    List.forall_mem_singleton.mpr (use_useRuntime _).silent
  have doc : Members [.blank, .plain s!"/// A `{s.name target}` value, seen as `{s.name id}`.",
      .plain "#[derive(Debug)]"] := by
    simp +decide [Members]
  have type : Silent [.blank, .plain s!"/// A `{s.name target}` value, seen as `{s.name id}`.",
      .plain "#[derive(Debug)]", .opening s!"pub struct {typeName s id} \x7b",
      .plain s!"/// The `{s.name target}` value.",
      .plain s!"pub {innerField}: {ruleType s target},", .closing "\x7d", .blank] :=
    doc.silent.append (List.forall_mem_cons.mpr
      ⟨silent_struct single, (members_inner target).silent⟩)
  have body : Members [.plain s!"rt::Unparse::unparse(&*self.{innerField})"] := by
    simp +decide [Members]
  have before := (((members_header
    s!"Rule `{s.name id}`: delegates to `{s.name target}`.").silent.append used).append
    (silent_useTypes (sortNames ((if target = id then [] else [typeName s target]) ++
      capabilities s (s.name id))))).append type
  exact filterMap_concrete single before body (single_of_mem_capabilities lawful (s.name id))

theorem implementations_of_concrete (lawful : s.Lawful) (contained : s.schema.Contained) {id : s.Id}
    (concrete : (s.plan id).isChoice = false) :
    implementations (ruleUnit s id).contents = ("rt::Unparse", typeName s id) ::
        (s.ancestry.transitive (s.name id)).map (fun name => (typeIdent name, typeName s id)) ∧
      declarations (ruleUnit s id).contents = [] := by
  have same : (capabilities s (s.name id)).map (·, typeName s id) =
      (s.ancestry.transitive (s.name id)).map (fun name => (typeIdent name, typeName s id)) :=
    List.map_map
  have oneLined := oneLined_ruleLines lawful contained id
  rw [← same, ruleUnit, implementations_layout oneLined, declarations_layout oneLined, ruleLines]
  cases hp : s.plan id with
  | shape root steps => exact filterMap_shapeLines lawful hp
  | delegate target => exact filterMap_delegateLines lawful id target
  | choice alternatives => simp [hp, Plan.isChoice] at concrete

/-- The file of a rule with alternatives declares its capability, and gives none. -/
theorem declarations_of_choice (lawful : s.Lawful) (contained : s.schema.Contained) {id : s.Id}
    {alternatives : List s.Id} (hp : s.plan id = .choice alternatives) :
    declarations (ruleUnit s id).contents =
        [(typeName s id, "rt::Unparse" :: supertraits s (s.name id))] ∧
      implementations (ruleUnit s id).contents = [] := by
  have bounds : ∀ bound ∈ "rt::Unparse" :: supertraits s (s.name id),
      ' ' ∉ bound.toList ∧ isBound bound = true := by
    refine List.forall_mem_cons.mpr ⟨by decide, fun bound hb => ?_⟩
    obtain ⟨lister, listed, rfl⟩ := mem_supertraits.mp hb
    have valid := lawful.identifier_of_mem (mem_names_of_listed lawful listed)
    refine ⟨not_mem_typeIdent valid (by decide) (by decide), isBound_of_single ?_ ?_⟩
    · exact not_mem_typeIdent valid (by decide) (by decide)
    · exact not_mem_typeIdent valid (by decide) (by decide)
  let list := " + ".intercalate ("rt::Unparse" :: supertraits s (s.name id))
  have last := declaration?_of_text (rfl : s!"pub trait {typeName s id}: {list} \x7b\x7d" = _)
    rfl (single_typeName lawful id) (List.cons_ne_nil _ _) bounds
  have used : Silent [useRuntime s.schema] :=
    List.forall_mem_singleton.mpr (use_useRuntime _).silent
  have doc : Members [.blank,
      .plain s!"/// Anything that may stand where `{s.name id}` is expected."] := by
    simp +decide [Members]
  have before := ((((members_header
    s!"Rule `{s.name id}`: a capability shared by its alternatives.").silent.append used).append
    (silent_useTypes (supertraits s (s.name id)))).append doc.silent).append
    (members_implementors (alternatives.map s.name)).silent
  have oneLined := oneLined_ruleLines lawful contained id
  rw [ruleUnit, declarations_layout oneLined, implementations_layout oneLined]
  simp only [ruleLines, hp, capabilityUnitLines, List.filterMap_append,
    before.filterMap_declaration?, before.filterMap_implementation?, List.filterMap_cons,
    List.filterMap_nil, text_plain]
  rw [last.1, last.2]
  exact ⟨rfl, rfl⟩

/-- The first line of the function that reads a rule, by the type of what it reads. -/
def readerLine (s : Shapes) (id : s.Id) (type : String) : String :=
  s!"pub fn {parseName s id}(tree: &rt::Tree) -> Result<{type}, rt::ShapeMismatch> \x7b"

/-- The lines by which the function of a rule gives the value of an alternative. -/
def branch (s : Shapes) (id alternative : s.Id) (value : String) : List String :=
  [s!"if {testName s alternative}(tree) \x7b", s!"let node: Box<dyn {typeName s id}> = {value};",
    "return Ok(node);", "\x7d"]

/-- A value that was read by an alternative can be returned by the function of the rule that lists
it: the type or the capability of the alternative has the capability of the rule. This is read off
the file with all functions and the file of the alternative. -/
structure Dispatched (s : Shapes) (parser unit : String) (id alternative : s.Id) : Prop where
  result : readerLine s id s!"Box<dyn {typeName s id}>" ∈ Text.lines parser
  concrete : ∀ body, (s.rule alternative).form = .leaf body →
    (branch s id alternative s!"Box::new({parseName s alternative}(tree)?)").IsInfix
        ((functionBody parser (parseName s id)).map Text.unindented) ∧
      readerLine s alternative (typeName s alternative) ∈ Text.lines parser ∧
      (typeName s id, typeName s alternative) ∈ implementations unit
  choice : ∀ names, (s.rule alternative).form = .alternatives names →
    (branch s id alternative s!"{parseName s alternative}(tree)?").IsInfix
        ((functionBody parser (parseName s id)).map Text.unindented) ∧
      readerLine s alternative s!"Box<dyn {typeName s alternative}>" ∈ Text.lines parser ∧
      ∃ bounds, (typeName s alternative, bounds) ∈ declarations unit ∧ typeName s id ∈ bounds

/-- The capabilities that a package gives are those that it should, with all that they extend. -/
structure Coherent (s : Shapes) (files : List SourceUnit) : Prop where
  emitted : ∀ id, ∃ unit ∈ files, unit.name = unitName (s.name id)
  given : ∀ id body, (s.rule id).form = .leaf body →
    ∀ unit ∈ files, unit.name = unitName (s.name id) → ∃ above : List String, above.Nodup ∧
      (∀ name, name ∈ above ↔
        name ∈ s.schema.names ∧ name ≠ s.name id ∧ s.implements (s.name id) name = true) ∧
      implementations unit.contents = ("rt::Unparse", typeName s id) ::
        above.map (fun name => (typeIdent name, typeName s id)) ∧
      ((implementations unit.contents).map (·.1)).Nodup
  closed : ∀ unit ∈ files, ∀ other ∈ files, ∀ capability type bounds,
    (capability, type) ∈ implementations unit.contents →
      (capability, bounds) ∈ declarations other.contents →
        ∀ bound ∈ bounds, (bound, type) ∈ implementations unit.contents
  dispatched : ∀ id alternative, s.name alternative ∈ (s.rule id).alternatives →
    ∃ parser ∈ files, parser.name = parserUnit ∧
      ∃ unit ∈ files, unit.name = unitName (s.name alternative) ∧
        Dispatched s parser.contents unit.contents id alternative

theorem runtime_ne_typeIdent (lawful : s.Lawful) {name : String} (hn : name ∈ s.schema.names) :
    typeIdent name ≠ "rt::Unparse" := by
  intro he
  have colon : ':' ∉ (typeIdent name).toList :=
    not_mem_typeIdent (lawful.identifier_of_mem hn) (by decide) (by decide)
  exact colon (he ▸ by decide)

theorem exists_choice {n : Nat} {plan : Plan n} (h : plan.isChoice = true) :
    ∃ alternatives, plan = .choice alternatives := by
  cases plan with
  | choice alternatives => exact ⟨alternatives, rfl⟩
  | shape root steps | delegate target => cases h

section

variable (lawful : s.Lawful) (contained : s.schema.Contained)
include lawful contained

/-- Only the files of rules give or declare capabilities. -/
theorem eq_ruleUnit_or_silent {unit : SourceUnit} (h : unit ∈ units s) :
    (∃ id, unit = ruleUnit s id) ∨
      implementations unit.contents = [] ∧ declarations unit.contents = [] := by
  have silent {name : String} {lines : List Line} (oneLined : OneLined lines)
      (quiet : Silent lines) : implementations (⟨name, layout lines⟩ : SourceUnit).contents = [] ∧
        declarations (⟨name, layout lines⟩ : SourceUnit).contents = [] := by
    dsimp only
    rw [implementations_layout oneLined, declarations_layout oneLined]
    exact ⟨quiet.filterMap_implementation?, quiet.filterMap_declaration?⟩
  obtain h | h := List.mem_append.mp h
  · obtain ⟨id, _, rfl⟩ := List.mem_map.mp h
    exact .inl ⟨id, rfl⟩
  · simp only [List.mem_cons, List.not_mem_nil, or_false] at h
    obtain rfl | rfl := h
    · exact .inr (silent (oneLined_parserLines lawful contained) (silent_parserLines lawful))
    · exact .inr (silent (oneLined_modLines lawful contained) (silent_modLines s))

variable (types : KeepsApart typeIdent s.schema.names)
include types

theorem nodup_implementations {id : s.Id} (concrete : (s.plan id).isChoice = false) :
    ((implementations (ruleUnit s id).contents).map (·.1)).Nodup := by
  have above : ∀ name ∈ s.ancestry.transitive (s.name id), name ∈ s.schema.names :=
    fun name hn => mem_names_of_mem_transitive lawful hn
  have distinct : ((s.ancestry.transitive (s.name id)).map typeIdent).Nodup := by
    apply List.Nodup.map_on _ (Ancestry.nodup_transitive _)
    exact fun a ha b hb he => types a (above a ha) b (above b hb) he
  rw [(implementations_of_concrete lawful contained concrete).1, List.map_cons, List.map_map,
    List.nodup_cons]
  refine ⟨fun h => ?_, distinct⟩
  obtain ⟨name, hn, he⟩ := List.mem_map.mp h
  exact runtime_ne_typeIdent lawful (above name hn) he

/-- What a type has, it has with all that is declared to be extended. -/
theorem mem_implementations_of_bound {id other : s.Id} {capability type bound : String}
    {bounds : List String} (hi : (capability, type) ∈ implementations (ruleUnit s id).contents)
    (hd : (capability, bounds) ∈ declarations (ruleUnit s other).contents) (hb : bound ∈ bounds) :
    (bound, type) ∈ implementations (ruleUnit s id).contents := by
  cases concrete : (s.plan id).isChoice with
  | true =>
      obtain ⟨alternatives, hp⟩ := exists_choice concrete
      rw [(declarations_of_choice lawful contained hp).2] at hi
      cases hi
  | false =>
      cases choice : (s.plan other).isChoice with
      | false =>
          rw [(implementations_of_concrete lawful contained choice).2] at hd
          cases hd
      | true =>
          obtain ⟨alternatives, hp⟩ := exists_choice choice
          rw [(declarations_of_choice lawful contained hp).1, List.mem_singleton] at hd
          cases hd
          have named : s.name other ∈ s.schema.names := Shapes.mem_names_iff.mpr ⟨other, rfl⟩
          rw [(implementations_of_concrete lawful contained concrete).1, List.mem_cons,
            List.mem_map] at hi ⊢
          obtain hi | ⟨ancestor, ha, hi⟩ := hi
          · exact absurd (Prod.mk.inj hi).1 (runtime_ne_typeIdent lawful named)
          · obtain ⟨same, rfl⟩ := Prod.mk.inj hi
            have here := types _ (mem_names_of_mem_transitive lawful ha) _ named same
            obtain rfl | hb := List.mem_cons.mp hb
            · exact .inl rfl
            · obtain ⟨lister, listed, rfl⟩ := mem_supertraits.mp hb
              refine .inr ⟨lister, ?_, rfl⟩
              rw [Ancestry.mem_transitive_iff] at ha ⊢
              exact ha.tail (here ▸ listed)

end

section

variable {id : s.Id}

theorem exists_parse_of_concrete (concrete : (s.plan id).isChoice = false) :
    ∃ f ∈ functions s, s!"pub fn {f.name}({f.parameters}) -> {f.result} \x7b" =
      readerLine s id (typeName s id) := by
  have own : ∃ f ∈ ruleFunctions s id, s!"pub fn {f.name}({f.parameters}) -> {f.result} \x7b" =
      readerLine s id (typeName s id) := by
    unfold ruleFunctions
    cases hp : s.plan id with
    | shape root steps =>
        refine ⟨_, List.mem_cons_of_mem _ List.mem_cons_self, ?_⟩
        simp [readerLine, resultOf, toString, ← String.toList_inj]
    | delegate target =>
        refine ⟨_, List.mem_cons_of_mem _ List.mem_cons_self, ?_⟩
        simp [readerLine, resultOf, toString, ← String.toList_inj]
    | choice alternatives => simp [hp, Plan.isChoice] at concrete
  obtain ⟨f, hf, h⟩ := own
  exact ⟨f, mem_functions hf, h⟩

theorem exists_parse_of_choice {alternatives : List s.Id} (hp : s.plan id = .choice alternatives) :
    ∃ f ∈ functions s, f.name = parseName s id ∧
      s!"pub fn {f.name}({f.parameters}) -> {f.result} \x7b" =
        readerLine s id s!"Box<dyn {typeName s id}>" ∧
      ∀ alternative ∈ alternatives,
        (dispatchLines s (typeName s id) alternative).IsInfix f.body := by
  have own : ∀ f ∈ choiceFunctions s id alternatives, f ∈ functions s := by
    intro f hf
    apply mem_functions
    unfold ruleFunctions
    rwa [hp]
  refine ⟨_, own _ (List.mem_cons_of_mem _ List.mem_cons_self), rfl, ?_, ?_⟩
  · simp [readerLine, resultOf, toString, ← String.toList_inj]
  · intro alternative ha
    obtain ⟨before, after, rfl⟩ := List.append_of_mem ha
    refine ⟨before.flatMap (dispatchLines s (typeName s id)),
      after.flatMap (dispatchLines s (typeName s id)) ++ noAlternativeLines (s.name id), ?_⟩
    simp [List.flatMap_append, List.append_assoc]

/-- The lines of an alternative, whatever their depth. -/
theorem map_unindented_dispatchLines (id alternative : s.Id) :
    (dispatchLines s (typeName s id) alternative).map (fun line => Text.unindented line.text) =
      branch s id alternative (if (s.plan alternative).isChoice
        then s!"{parseName s alternative}(tree)?"
        else s!"Box::new({parseName s alternative}(tree)?)") := by
  have condition : Text.unindented s!"if {testName s alternative}(tree) \x7b" =
      s!"if {testName s alternative}(tree) \x7b" :=
    Text.unindented_of_opensWith (by simp (disch := decide) [toString]; decide)
  have value (node : String) : Text.unindented s!"let node: Box<dyn {typeName s id}> = {node};" =
      s!"let node: Box<dyn {typeName s id}> = {node};" :=
    Text.unindented_of_opensWith (by simp (disch := decide) [toString]; decide)
  have result : Text.unindented "return Ok(node);" = "return Ok(node);" := by decide
  have brace : Text.unindented "\x7d" = "\x7d" := by decide
  have boxed (read : String) (h : s!"{parseName s alternative}(tree)?" = read) :
      s!"Box::new({parseName s alternative}(tree)?)" = s!"Box::new({read})" := by
    simp [← h, toString, ← String.toList_inj]
  cases form : (s.plan alternative).isChoice with
  | true => simp only [dispatchLines, branch, form, List.map_cons, List.map_nil, text_opening,
      text_plain, text_closing, condition, value, result, brace, if_true]
  | false =>
      rw [boxed _ rfl]
      simp only [dispatchLines, branch, form, List.map_cons, List.map_nil, text_opening,
        text_plain, text_closing, condition, value, result, brace, Bool.false_eq_true, if_false]

end

section

variable (lawful : s.Lawful) (apart : Apart s) (contained : s.schema.Contained)
include lawful apart contained

theorem dispatched_of_mem {id alternative : s.Id}
    (h : s.name alternative ∈ (s.rule id).alternatives) :
    Dispatched s (layout (parserLines s)) (ruleUnit s alternative).contents id alternative := by
  obtain ⟨alternatives, other, hp, ha, hn⟩ := lawful.mem_alternatives_iff.mp h
  cases lawful.name_injective hn
  have listed : s.ancestry.Listed (s.name alternative) (s.name id) :=
    lawful.listed_iff.mpr ⟨id, alternatives, alternative, rfl, hp, ha, rfl⟩
  obtain ⟨f, hf, name, first, lines⟩ := exists_parse_of_choice hp
  have body : (functionBody (layout (parserLines s)) (parseName s id)).map Text.unindented =
      f.body.map fun line => Text.unindented line.text := by
    rw [← name, functionBody_parserLines lawful apart contained hf]
    exact map_layoutFrom unindented_indented 1 f.body
  have dispatch := (lines alternative ha).map fun line => Text.unindented line.text
  rw [map_unindented_dispatchLines, ← body] at dispatch
  refine ⟨first ▸ signature_mem_lines lawful apart contained hf, ?_, ?_⟩
  · intro body form
    have concrete := lawful.isChoice_of_leaf form
    obtain ⟨g, hg, signature⟩ := exists_parse_of_concrete concrete
    rw [concrete, if_neg Bool.false_ne_true] at dispatch
    refine ⟨dispatch, signature ▸ signature_mem_lines lawful apart contained hg, ?_⟩
    rw [(implementations_of_concrete lawful contained concrete).1]
    refine List.mem_cons_of_mem _ (List.mem_map.mpr ⟨s.name id, ?_, rfl⟩)
    exact Ancestry.mem_transitive_iff.mpr (.single listed)
  · intro names form
    obtain ⟨alternatives, hp⟩ := lawful.choice_of_alternatives form
    obtain ⟨g, hg, _, signature, _⟩ := exists_parse_of_choice hp
    have choice : (s.plan alternative).isChoice = true := by rw [hp]; rfl
    rw [if_pos choice] at dispatch
    refine ⟨dispatch, signature ▸ signature_mem_lines lawful apart contained hg,
      "rt::Unparse" :: supertraits s (s.name alternative), ?_, ?_⟩
    · rw [(declarations_of_choice lawful contained hp).1]
      exact List.mem_cons_self
    · exact List.mem_cons_of_mem _ (mem_supertraits.mpr ⟨s.name id, listed, rfl⟩)

end

/-- The hierarchy of capabilities in an emitted package is coherent, if what the schema has written
as it is ends no line. -/
theorem emit_coherent {schema : Schema} {s : Shapes} {files : List SourceUnit}
    (h : Shapes.compile schema = .ok s) (emitted : emit s = .ok files)
    (contained : schema.Contained) : Coherent s files := by
  obtain ⟨rfl, lawful⟩ := Shapes.lawful_of_compile h
  obtain ⟨checked, rfl⟩ := emit_eq_ok_iff.mp emitted
  have apart := apart_of_checkClashes lawful checked
  refine ⟨fun id => ⟨_, ruleUnit_mem_units id, rfl⟩, fun id body form unit hu named => ?_, ?_, ?_⟩
  · have concrete := lawful.isChoice_of_leaf form
    obtain rfl : unit = ruleUnit s id :=
      List.inj_on_of_nodup_map (nodup_map_name_units lawful apart) hu (ruleUnit_mem_units id)
        named
    refine ⟨s.ancestry.transitive (s.name id), Ancestry.nodup_transitive _,
      fun name => mem_transitive_of_concrete lawful concrete,
      (implementations_of_concrete lawful contained concrete).1, ?_⟩
    exact nodup_implementations lawful contained apart.types concrete
  · intro unit hu other ho capability type bounds hi hd bound hb
    obtain ⟨id, rfl⟩ | ⟨none, _⟩ := eq_ruleUnit_or_silent lawful contained hu
    · obtain ⟨otherId, rfl⟩ | ⟨_, none⟩ := eq_ruleUnit_or_silent lawful contained ho
      · exact mem_implementations_of_bound lawful contained apart.types hi hd hb
      · simp [none] at hd
    · simp [none] at hi
  · intro id alternative listed
    refine ⟨⟨parserUnit, layout (parserLines s)⟩, by simp [units], rfl, ruleUnit s alternative,
      ruleUnit_mem_units alternative, rfl, ?_⟩
    dsimp only
    exact dispatched_of_mem lawful apart contained listed

/-- A rule that is listed by two others, which are listed by one. -/
def diamond : Schema where
  package := ["demo"]
  tokenVocab := []
  runtime := "runtime"
  rules :=
    [⟨"node", .alternatives ["stmt", "expr"]⟩,
     ⟨"stmt", .alternatives ["block"]⟩,
     ⟨"expr", .alternatives ["block", "block"]⟩,
     ⟨"block", .leaf ⟨"BLOCK", []⟩⟩]

def diamondPlans : List (Plan 4) :=
  [.choice [1, 2], .choice [3], .choice [3, 3], .shape "BLOCK" []]

def diamondShapes : Shapes where
  schema := diamond
  ancestry := ⟨[("stmt", "node"), ("expr", "node"), ("block", "stmt"), ("block", "expr"),
    ("block", "expr")]⟩
  plans := diamondPlans
  length_plans := rfl

theorem emit_coherent_diamond :
    Coherent diamondShapes (units diamondShapes) ∧
      implementations (ruleUnit diamondShapes ⟨3, by decide⟩).contents =
        [("rt::Unparse", "Block"), ("Stmt", "Block"), ("Expr", "Block"), ("Node", "Block")] ∧
      declarations (ruleUnit diamondShapes ⟨2, by decide⟩).contents =
        [("Expr", ["rt::Unparse", "Node"])] := by
  have compiled : Shapes.compile diamond = .ok diamondShapes := by rfl
  have emitted : emit diamondShapes = .ok (units diamondShapes) := by rfl
  have contained : diamond.Contained := by decide
  have lawful := (Shapes.lawful_of_compile compiled).2
  refine ⟨emit_coherent compiled emitted contained, ?_, ?_⟩
  · rw [(implementations_of_concrete lawful contained rfl).1]
    decide
  · rw [(declarations_of_choice lawful contained rfl).1]
    decide

/-- A schema whose runtime ends the line that it stands on and goes on with a capability. -/
def grafted : Schema where
  package := ["demo"]
  tokenVocab := ["tokens"]
  runtime := "runtime as rt;\nimpl Expr for Ident \x7b\x7d\nuse runtime"
  rules := [⟨"expr", .alternatives ["ident"]⟩, ⟨"ident", .leaf ⟨"IDENT", []⟩⟩]

def graftedPlans : List (Plan 2) :=
  [.choice [⟨1, by decide⟩], .shape "IDENT" []]

def graftedShapes : Shapes where
  schema := grafted
  ancestry := ⟨[("ident", "expr")]⟩
  plans := graftedPlans
  length_plans := rfl

/-- No names of the schema meet, and yet a type has a capability twice. -/
theorem ident_given_expr_twice :
    Shapes.compile grafted = .ok graftedShapes ∧
      emit graftedShapes = .ok (units graftedShapes) ∧
      implementations (ruleUnit graftedShapes ⟨1, by decide⟩).contents =
        [("Expr", "Ident"), ("rt::Unparse", "Ident"), ("Expr", "Ident")] ∧
      ¬ Coherent graftedShapes (units graftedShapes) := by
  have twice : implementations (ruleUnit graftedShapes ⟨1, by decide⟩).contents =
      [("Expr", "Ident"), ("rt::Unparse", "Ident"), ("Expr", "Ident")] := by
    rw [ruleUnit, implementations, filterMap_lines (by decide)]
    decide +kernel
  refine ⟨by rfl, by rfl, twice, fun coherent => ?_⟩
  have emitted := ruleUnit_mem_units (s := graftedShapes) ⟨1, by decide⟩
  have given := coherent.given ⟨1, by decide⟩ ⟨"IDENT", []⟩ rfl
  obtain ⟨_, _, _, _, once⟩ := given (ruleUnit graftedShapes ⟨1, by decide⟩) emitted (by rfl)
  rw [twice] at once
  exact absurd once (by decide)

end TreeShape.Code
