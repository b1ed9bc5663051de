import TreeShape.Proofs.Overlaps
import TreeShape.Shapes.Construct

/-!
Recovery of values: where shapes are deterministic, a node that was made from values and then
written is read back as it was, with every value it was made from.
-/

namespace TreeShape

theorem FieldValue.Nested.of_elements_eq {value value' : FieldValue} {node : Node}
    (h : value.Nested node) (same : value.elements = value'.elements) : value'.Nested node := by
  cases h with
  | held hm => exact .held (same ▸ hm)
  | deeper hm hf h => exact .deeper (same ▸ hm) hf h

/-- The field of an item. A collection that is given no value is an empty one. -/
def Item.holding (item : Item) : FieldValue → Field
  | .empty => ⟨item.field, if item.repeated then .many [] else .empty⟩
  | value => ⟨item.field, value⟩

/-- The fields that values are given to: those of the items, or the one for the rule that is
delegated to. -/
inductive Body.Holds (body : Body) : List FieldValue → List Field → Prop
  | delegate (value : FieldValue) : body.delegates = true → body.Holds [value] [⟨innerField, value⟩]
  | shape {values : List FieldValue} : body.delegates = false →
      values.length = body.items.length →
      body.Holds values (List.zipWith Item.holding body.items values)

theorem Item.elements_holding (item : Item) (value : FieldValue) :
    (item.holding value).value.elements = value.elements := by
  cases value with
  | empty =>
      simp only [Item.holding]
      split <;> rfl
  | one _ | many _ => rfl

theorem Item.holding_ne_empty {item : Item} (h : item.repeated = true) (value : FieldValue) :
    (item.holding value).value ≠ .empty := by
  cases value <;> simp [Item.holding, h]

namespace Body

variable {body : Body} {values : List FieldValue} {fields : List Field}

theorem holds_iff_of_delegates (delegates : body.delegates = true) :
    body.Holds values fields ↔
      values.length = 1 ∧ values.map (Field.mk innerField) = fields := by
  constructor
  · intro h
    cases h with
    | delegate value => exact ⟨rfl, rfl⟩
    | shape direct => simp [delegates] at direct
  · rintro ⟨single, rfl⟩
    obtain ⟨value, rfl⟩ := List.length_eq_one_iff.mp single
    exact .delegate value delegates

theorem holds_iff_of_direct (direct : body.delegates = false) :
    body.Holds values fields ↔ values.length = body.items.length ∧
      List.zipWith Item.holding body.items values = fields := by
  constructor
  · intro h
    cases h with
    | delegate value delegates => simp [direct] at delegates
    | shape _ length => exact ⟨length, rfl⟩
  · rintro ⟨length, rfl⟩
    exact .shape direct length

theorem Holds.ne_empty (h : body.Holds values fields) (direct : body.delegates = false) :
    ∀ item field, (item, field) ∈ body.items.zip fields → item.repeated = true →
      field.value ≠ .empty := by
  obtain ⟨_, rfl⟩ := (holds_iff_of_direct direct).mp h
  intro item field hm repeated
  obtain ⟨i, hi, he⟩ := List.mem_iff_getElem.mp hm
  simp only [List.getElem_zip, List.getElem_zipWith, Prod.mk.injEq] at he
  obtain ⟨rfl, rfl⟩ := he
  exact Item.holding_ne_empty repeated _

theorem Holds.exists_nested (h : body.Holds values fields) {field : Field} (hf : field ∈ fields)
    {inner : Node} (nested : field.value.Nested inner) : ∃ value ∈ values, value.Nested inner := by
  cases h with
  | delegate value =>
      cases List.mem_singleton.mp hf
      exact ⟨value, List.mem_cons_self, nested⟩
  | shape =>
      rw [← List.map_uncurry_zip_eq_zipWith] at hf
      obtain ⟨⟨item, value⟩, hm, rfl⟩ := List.mem_map.mp hf
      refine ⟨value, (List.of_mem_zip hm).2, ?_⟩
      exact nested.of_elements_eq (item.elements_holding value)

end Body

namespace Shapes

variable (s : Shapes)

/-- No collection of a node is left unset. -/
def Filled (node : Node) : Prop :=
  ∀ id body, s.name id = node.rule → s.HasBody id body →
    ∀ item field, (item, field) ∈ body.items.zip node.fields → item.repeated = true →
      field.value ≠ .empty

variable {s}

theorem Resolves.repeats_eq {known : List String} {item : Item} {step : Step s.size}
    (h : s.Resolves item step) (ok : item.TargetOk known) (flags : item.conflict? = none) :
    item.repeated = step.repeats := by
  have repeated : item.repeated = item.quantifier.repeats := by
    by_contra hne
    simp [Item.conflict?, hne] at flags
  cases h with
  | text target =>
      rw [repeated, Step.repeats]
      simpa [Item.TargetOk, target] using ok
  | token _ | rule _ => exact repeated

private theorem forall_zip_iff {α : Type} {flag : α → Bool} {values : List α}
    {fields : List Field} :
    (∀ value field, (value, field) ∈ values.zip fields → flag value = true →
      field.value ≠ .empty) ↔
    ∀ set field, (set, field) ∈ (values.map flag).zip fields → set = true →
      field.value ≠ .empty := by
  simp only [List.zip_map_left, List.mem_map, Prod.exists, Prod.map_apply, id_eq, Prod.mk.injEq]
  constructor
  · rintro h _ _ ⟨value, field, hm, rfl, rfl⟩
    exact h value field hm
  · intro h value field hm
    exact h _ _ ⟨value, field, hm, rfl, rfl⟩

/-- Along a layout, collections that are not left unset are assigned. -/
theorem layout_assigned {related : s.Id → Node → Tree → Prop} {ends : SegmentEnd s.size}
    {text : Option String} {steps : List (Step s.size)} {fields : List Field}
    {children : List Tree} (h : Layout related ends text steps fields children)
    (filled : ∀ step field, (step, field) ∈ steps.zip fields → step.repeats = true →
      field.value ≠ .empty) :
    Layout related s.Assigned text steps fields children := by
  induction h with
  | nil => exact .nil
  | text ht _ ih =>
      exact .text ht (ih fun step field hm => filled step field (List.mem_cons_of_mem _ hm))
  | noText ht _ ih =>
      exact .noText ht (ih fun step field hm => filled step field (List.mem_cons_of_mem _ hm))
  | child holds slots _ _ ih =>
      exact .child holds slots (filled _ _ List.mem_cons_self)
        (ih fun step field hm => filled step field (List.mem_cons_of_mem _ hm))

/-- What a step and the item it comes from say of a field. -/
def SameField (item : Item) (step : Step s.size) : Prop :=
  item.field = step.field ∧ item.repeated = step.repeats

theorem SameField.fieldOf_eq {item : Item} {step : Step s.size} (h : SameField item step) :
    s.fieldOf step = item.holding := by
  funext value
  cases value <;> simp [fieldOf, Item.holding, h.1, h.2]

theorem zipWith_fieldOf {items : List Item} {steps : List (Step s.size)}
    (h : List.Forall₂ SameField items steps) (values : List FieldValue) :
    List.zipWith s.fieldOf steps values = List.zipWith Item.holding items values := by
  induction h generalizing values with
  | nil => rfl
  | cons same _ ih =>
      cases values with
      | nil => rfl
      | cons value values =>
          rw [List.zipWith_cons_cons, List.zipWith_cons_cons, same.fieldOf_eq, ih]

namespace Lawful

variable (lawful : s.Lawful) {id : s.Id}
include lawful

theorem sameFields {body : Body} {steps : List (Step s.size)} (has : s.HasBody id body)
    (resolves : List.Forall₂ s.Resolves body.items steps) :
    List.Forall₂ SameField body.items steps := by
  have checked := Rule.checkItems_of_checkRule (lawful.checkRule id) has.1 has.2
  have ok := (checkItems_eq_ok_iff.mp checked).1
  refine List.forall₂_iff_zip.mpr ⟨resolves.length_eq, fun hm => ?_⟩
  obtain ⟨_, _, target, flags⟩ := ok _ (List.of_mem_zip hm).1
  have resolved := (List.forall₂_iff_zip.mp resolves).2 hm
  exact ⟨resolved.field_eq, resolved.repeats_eq target flags⟩

theorem map_repeats_eq {body : Body} {steps : List (Step s.size)} (has : s.HasBody id body)
    (resolves : List.Forall₂ s.Resolves body.items steps) :
    body.items.map (·.repeated) = steps.map (·.repeats) := by
  rw [← List.forall₂_eq_eq_eq, List.forall₂_map_left_iff, List.forall₂_map_right_iff]
  exact (lawful.sameFields has resolves).imp fun _ _ same => same.2

/-- Making a node takes a rule with fields of its own, and a value for each. -/
theorem construct_eq_ok_iff {values : List FieldValue} {node : Node} :
    s.construct id values = .ok node ↔ ∃ body, (s.rule id).form = .leaf body ∧
      node.rule = s.name id ∧ body.Holds values node.fields := by
  have eq_iff {fields : List Field} :
      (⟨s.name id, fields⟩ : Node) = node ↔ node.rule = s.name id ∧ fields = node.fields := by
    cases node
    simp [eq_comm]
  unfold construct
  cases hp : s.plan id with
  | choice alternatives => simp [lawful.form_of_choice hp]
  | delegate target =>
      obtain ⟨body, form, delegates, _⟩ := lawful.body_of_delegate hp
      simp only [form, Body.holds_iff_of_delegates delegates, RuleForm.leaf.injEq, exists_eq_left']
      by_cases single : values.length = 1
      · simp [single, eq_iff]
      · simp [single]
  | shape root steps =>
      obtain ⟨body, has, _, resolves⟩ := lawful.body_of_shape hp
      have fields := zipWith_fieldOf (lawful.sameFields has resolves) values
      simp only [has.1, Body.holds_iff_of_direct has.2, RuleForm.leaf.injEq, exists_eq_left',
        fields, resolves.length_eq]
      by_cases length : values.length = steps.length
      · simp [length, eq_iff]
      · simp [length]

theorem filled_iff {root : String} {steps : List (Step s.size)} {fields : List Field}
    (hp : s.plan id = .shape root steps) :
    s.Filled ⟨s.name id, fields⟩ ↔ ∀ step field, (step, field) ∈ steps.zip fields →
      step.repeats = true → field.value ≠ .empty := by
  obtain ⟨body, has, _, resolves⟩ := lawful.body_of_shape hp
  rw [forall_zip_iff, ← lawful.map_repeats_eq has resolves, ← forall_zip_iff]
  constructor
  · intro filled
    exact filled id body rfl has
  · intro h other body' hn has'
    cases lawful.name_injective hn
    cases has.1.symm.trans has'.1
    exact h

/-- A node is read back from the tree it is written as, by its own rule. -/
theorem parse_of_serialize (deterministic : s.Deterministic) {node : Node} {tree : Tree}
    (hn : s.name id = node.rule) (filled : s.Filled node)
    (nested : ∀ field ∈ node.fields, ∀ inner, field.value.Nested inner → s.Filled inner)
    (h : s.serialize node = .ok tree) : s.parse tree id = .ok node := by
  induction node using Node.nested_induction generalizing id tree with
  | step rule fields ih =>
      subst hn
      -- A node that may stand for a rule is read by that rule as it is by its own.
      have parses : ∀ field ∈ fields, ∀ inner, .node inner ∈ field.value.elements →
          ∀ {target child}, s.Writes target inner child → s.Parses target inner child := by
        rintro field hf inner he target child ⟨implements, written⟩
        obtain ⟨innerId, hi, accepts⟩ := lawful.exists_accepts_of_serialize written
        rw [← hi] at implements
        have same := lawful.parse_eq_of_implements deterministic.choices implements accepts
        refine same.trans (ih field hf inner he hi ?_ ?_ written)
        · exact nested field hf inner (.held he)
        · intro deeper hd found h
          exact nested field hf found (.deeper he hd h)
      obtain ⟨other, hn, choice⟩ := lawful.exists_rule_of_serialize h
      cases lawful.name_injective hn
      cases hp : s.plan id with
      | shape root steps =>
          obtain ⟨body, has, _, resolves⟩ := lawful.body_of_shape hp
          obtain ⟨hk, _, layout⟩ := (lawful.serialize_shape_iff hp).mp h
          have assigned := layout_assigned layout ((lawful.filled_iff hp).mp filled)
          have layout : Layout s.Parses s.Assigned tree.text steps fields tree.children :=
            assigned.mono_of_mem (fun h => h) parses
          have greedy := lawful.layout_greedy lawful.accepts_of_parse resolves
            (deterministic.bodies id body has) layout
          exact (lawful.parse_shape_iff hp).mpr ⟨hk, fields, rfl, greedy⟩
      | delegate target =>
          obtain ⟨inner, rfl, writes⟩ := (lawful.serialize_delegate_iff hp).mp h
          have hi := parses _ List.mem_cons_self inner List.mem_cons_self writes
          exact (lawful.parse_delegate_eq_ok_iff hp).mpr ⟨inner, hi, rfl⟩
      | choice alternatives => simp [hp, Plan.isChoice] at choice

/-- What a node is made from is what it holds, and its own collections are set. -/
theorem filled_of_construct {values : List FieldValue} {node : Node}
    (h : s.construct id values = .ok node) :
    s.name id = node.rule ∧ s.Filled node ∧ ∀ field ∈ node.fields, ∀ inner,
      field.value.Nested inner → ∃ value ∈ values, value.Nested inner := by
  obtain ⟨body, form, hn, holds⟩ := lawful.construct_eq_ok_iff.mp h
  refine ⟨hn.symm, ?_, fun field hf inner => holds.exists_nested hf⟩
  intro other body' ho has
  cases lawful.name_injective (ho.trans hn)
  cases form.symm.trans has.1
  exact holds.ne_empty has.2

end Lawful

/-- Values are recovered from the tree of a node that is made from them, where no alternatives
overlap and no item may take what is meant for a later one. The former is what the warnings tell.
A node is made from values by giving them to the fields of its rule. -/
theorem parse_of_construct {schema : Schema} (hc : compile schema = .ok s) :
    (s.ExclusiveChoices ↔ ∀ overlap, .overlap overlap ∉ schema.warnings) ∧
    (∀ id values node, s.construct id values = .ok node ↔
      ∃ body, (s.rule id).form = .leaf body ∧ node.rule = s.name id ∧
        body.Holds values node.fields) ∧
    (s.Deterministic → ∀ id values node tree, s.construct id values = .ok node →
      (∀ value ∈ values, ∀ inner, value.Nested inner → s.Filled inner) →
      s.serialize node = .ok tree → s.parse tree id = .ok node) := by
  obtain ⟨rfl, lawful⟩ := lawful_of_compile hc
  refine ⟨?_, fun id values node => lawful.construct_eq_ok_iff, ?_⟩
  · simp only [lawful.overlap_mem_warnings_iff, lawful.exclusiveChoices_iff]
  · intro deterministic id values node tree made nested written
    obtain ⟨hn, filled, within⟩ := lawful.filled_of_construct made
    refine lawful.parse_of_serialize deterministic hn filled ?_ written
    intro field hf inner h
    obtain ⟨value, hv, h⟩ := within field hf inner h
    exact nested value hv inner h

/-- A condition, a body of one block, and no mark. -/
def madeIfValues : List FieldValue :=
  [.one (.node ⟨"ident", [⟨"name", .one (.text "a")⟩]⟩),
   .many [.node ⟨"block", [⟨"items", .many []⟩]⟩], .empty]

def madeIf : Node :=
  ⟨"ifStmt", List.zipWith Field.mk ["cond", "body", "mark"] madeIfValues⟩

def madeIfTree : Tree :=
  ⟨"IF", none, [⟨"IDENT", some "a", []⟩, ⟨"BLOCK", none, []⟩]⟩

theorem filled_madeIfValues : ∀ value ∈ madeIfValues, ∀ inner, value.Nested inner →
    statementShapes.Filled inner := by
  have lawful := (lawful_of_compile compile_statements).2
  have ident : statementShapes.plan ⟨4, by decide⟩ = .shape "IDENT" [.text "name" false] := rfl
  have block : statementShapes.plan ⟨3, by decide⟩ =
      .shape "BLOCK" [.child "items" (.rule ⟨0, by decide⟩) .zeroOrMore] := rfl
  intro value hv inner nested
  simp only [madeIfValues, List.mem_cons, List.not_mem_nil, or_false] at hv
  rcases hv with rfl | rfl | rfl
  · cases nested with
    | held hm =>
        cases List.mem_singleton.mp hm
        exact (lawful.filled_iff ident).mpr (by simp)
    | deeper hm hf h =>
        cases List.mem_singleton.mp hm
        cases List.mem_singleton.mp hf
        cases h with
        | held hm | deeper hm _ _ => simp [FieldValue.elements] at hm
  · cases nested with
    | held hm =>
        cases List.mem_singleton.mp hm
        exact (lawful.filled_iff block).mpr (by simp)
    | deeper hm hf h =>
        cases List.mem_singleton.mp hm
        cases List.mem_singleton.mp hf
        cases h with
        | held hm | deeper hm _ _ => simp [FieldValue.elements] at hm
  · cases nested with
    | held hm | deeper hm _ _ => cases hm

theorem parse_madeIf :
    statementShapes.serialize madeIf = .ok madeIfTree ∧
      statementShapes.parse madeIfTree ⟨2, by decide⟩ = .ok madeIf :=
  ⟨rfl, (parse_of_construct compile_statements).2.2 deterministic_statements _ madeIfValues _ _ rfl
    filled_madeIfValues rfl⟩

end Shapes
end TreeShape
