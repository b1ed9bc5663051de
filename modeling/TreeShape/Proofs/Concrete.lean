import Mathlib.Data.List.Nodup
import TreeShape.Proofs.Capability
import TreeShape.Proofs.Reading
import TreeShape.Shapes.Construct

/-!
What reading gives is a node of a concrete rule: that rule reads it as well, it has the fields of
that rule, and it can be made again from their values. The same holds of all nodes in it, each by
the rule that its place is for.
-/

namespace TreeShape

/-- A tree that is found in another one, which may be that tree itself. -/
def Tree.Part (part whole : Tree) : Prop :=
  Relation.ReflTransGen (fun child parent => child ∈ parent.children) part whole

section

variable {α β γ : Type} {relation : α → β → Prop} {xs : List α} {ys : List β} {zs : List γ} {z : γ}

private theorem exists_zip_of_forall₂ (h : List.Forall₂ relation xs ys) {x : α}
    (hx : (x, z) ∈ xs.zip zs) : ∃ y, (y, z) ∈ ys.zip zs ∧ relation x y := by
  induction h generalizing zs with
  | nil => cases hx
  | cons first _ ih =>
      cases zs with
      | nil => cases hx
      | cons _ zs =>
          cases hx with
          | head => exact ⟨_, List.mem_cons_self, first⟩
          | tail _ hx =>
              obtain ⟨y, hy, hr⟩ := ih hx
              exact ⟨y, List.mem_cons_of_mem _ hy, hr⟩

end

theorem Node.get?_of_mem {node : Node} (distinct : (node.fields.map (·.name)).Nodup) {field : Field}
    (h : field ∈ node.fields) : node.get? field.name = some field.value := by
  have found : node.fields.find? (·.name == field.name) = some field := by
    cases found : node.fields.find? (·.name == field.name) with
    | none => simpa using List.find?_eq_none.mp found field h
    | some first =>
        have same : first.name = field.name := by simpa using List.find?_some found
        have hf := List.mem_of_find?_eq_some found
        rw [List.inj_on_of_nodup_map distinct hf h same]
  rw [Node.get?, found]
  rfl

namespace Layout

variable {n : Nat} {related : Fin n → Node → Tree → Prop} {ends : SegmentEnd n}
  {text : Option String} {steps : List (Step n)} {fields : List Field} {children : List Tree}

theorem map_name_eq (h : Layout related ends text steps fields children) :
    fields.map (·.name) = steps.map (·.field) := by
  induction h with
  | nil => rfl
  | text _ _ ih | noText _ _ ih | child _ _ _ _ ih => exact congrArg (List.cons _) ih

/-- A node in a field stands for a child that the step of the field takes by a rule. -/
theorem exists_child (h : Layout related ends text steps fields children) {step : Step n}
    {field : Field} (hm : (step, field) ∈ steps.zip fields) {inner : Node}
    (he : .node inner ∈ field.value.elements) :
    ∃ target, step.rule? = some target ∧ ∃ child ∈ children, related target inner child := by
  induction h with
  | nil => cases hm
  | text _ _ ih | noText _ _ ih =>
      cases hm with
      | head => simp [FieldValue.elements] at he
      | tail _ hm => exact ih hm
  | child holds slots _ _ ih =>
      cases hm with
      | head =>
          rw [holds.elements_eq] at he
          obtain ⟨child, hc, slot⟩ := exists_mem_of_forall₂ slots he
          cases slot with
          | node hr => exact ⟨_, rfl, child, List.mem_append_left _ hc, hr⟩
      | tail _ hm =>
          obtain ⟨target, ht, child, hc, hr⟩ := ih hm
          exact ⟨target, ht, child, List.mem_append_right _ hc, hr⟩

end Layout

namespace Shapes

variable (s : Shapes)

/-- The node `inner` is in a field of `node` that is for the rule `target`. -/
inductive Embeds : Node → s.Id → Node → Prop
  | item {id target : s.Id} {body : Body} {item : Item} {fields : List Field} {field : Field}
      {inner : Node} : s.HasBody id body → (item, field) ∈ body.items.zip fields →
      item.target = .rule (s.name target) → .node inner ∈ field.value.elements →
      Embeds ⟨s.name id, fields⟩ target inner
  | wrapped {id target : s.Id} {body : Body} {fields : List Field} {field : Field}
      {inner : Node} : (s.rule id).form = .leaf body → body.delegates = true →
      body.root = s.name target → field ∈ fields → .node inner ∈ field.value.elements →
      Embeds ⟨s.name id, fields⟩ target inner

/-- The node `inner` is nested in `node`, at a place that is for the rule `target`. -/
inductive Contains : Node → s.Id → Node → Prop
  | here {node inner : Node} {target : s.Id} : s.Embeds node target inner →
      Contains node target inner
  | deeper {node middle inner : Node} {between target : s.Id} : s.Embeds node between middle →
      Contains middle target inner → Contains node target inner

/-- A node of the concrete rule `own`, as the rule `id` gives it for a tree. -/
structure ReadAs (id own : s.Id) (tree : Tree) (node : Node) : Prop where
  rule : node.rule = s.name own
  concrete : ∃ body, (s.rule own).form = .leaf body
  implements : s.implements node.rule (s.name id) = true
  parse : s.parse tree own = .ok node
  fields : node.fields.map (·.name) = (s.plan own).fields
  construct : s.construct own (node.fields.map (·.value)) = .ok node
  get? : ∀ field ∈ node.fields, node.get? field.name = some field.value

variable {s}

/-- A collection that was read is set, so that nothing changes where it is given as a value. -/
theorem zipWith_fieldOf_of_layout {related : s.Id → Node → Tree → Prop} {text : Option String}
    {steps : List (Step s.size)} {fields : List Field} {children : List Tree}
    (h : Layout related s.Greedy text steps fields children) :
    List.zipWith s.fieldOf steps (fields.map (·.value)) = fields := by
  induction h with
  | nil => rfl
  | text _ _ ih | noText _ _ ih => exact congrArg (List.cons _) ih
  | @child field accept quantifier value _ _ _ _ _ _ _ greedy _ ih =>
      have same : s.fieldOf (.child field accept quantifier) value = ⟨field, value⟩ := by
        cases value with
        | empty =>
            cases repeats : quantifier.repeats with
            | true => exact absurd rfl (greedy.1 repeats)
            | false => simp [fieldOf, Step.repeats, Step.field, repeats]
        | one _ | many _ => rfl
      rw [List.map_cons, List.zipWith_cons_cons, same, ih]

namespace Lawful

variable (lawful : s.Lawful)
include lawful

theorem fields_nodup (id : s.Id) : (s.plan id).fields.Nodup := by
  cases hp : s.plan id with
  | shape root steps =>
      obtain ⟨body, has, _, resolves⟩ := lawful.body_of_shape hp
      rw [Plan.fields, ← map_field_eq resolves]
      exact lawful.items_nodup has
  | delegate target => exact List.nodup_singleton _
  | choice alternatives => exact List.nodup_nil

/-- Going down through the alternatives taken, one comes to the rule that the node is of. -/
theorem exists_own {id : s.Id} {tree : Tree} {node : Node} (h : s.parse tree id = .ok node) :
    ∃ own, node.rule = s.name own ∧ (s.plan own).isChoice = false ∧
      s.parse tree own = .ok node := by
  induction id using lawful.rule_induction with
  | shape id root steps hp =>
      have named := ((lawful.parse_shape_eq_ok_iff hp).mp h).2
      obtain ⟨fields, rfl, _⟩ := named
      exact ⟨id, rfl, by rw [hp]; rfl, h⟩
  | delegate id target hp _ =>
      obtain ⟨inner, _, rfl⟩ := (lawful.parse_delegate_eq_ok_iff hp).mp h
      exact ⟨id, rfl, by rw [hp]; rfl, h⟩
  | choice id alternatives hp ih =>
      obtain ⟨alternative, found, ha⟩ := (lawful.parse_choice_eq_ok_iff hp).mp h
      exact ih alternative (List.mem_of_find?_eq_some found) ha

/-- A concrete rule makes the nodes it reads from their values. -/
theorem construct_of_parse {own : s.Id} {tree : Tree} {node : Node}
    (concrete : (s.plan own).isChoice = false) (h : s.parse tree own = .ok node) :
    node.fields.map (·.name) = (s.plan own).fields ∧
      s.construct own (node.fields.map (·.value)) = .ok node := by
  unfold construct
  cases hp : s.plan own with
  | shape root steps =>
      obtain ⟨_, fields, rfl, layout⟩ := (lawful.parse_shape_iff hp).mp h
      refine ⟨layout.map_name_eq, ?_⟩
      simp only [List.length_map, layout.length_eq, if_true, zipWith_fieldOf_of_layout layout]
  | delegate target =>
      obtain ⟨inner, _, rfl⟩ := (lawful.parse_delegate_eq_ok_iff hp).mp h
      exact ⟨rfl, rfl⟩
  | choice alternatives => simp [hp, Plan.isChoice] at concrete

theorem exists_readAs {id : s.Id} {tree : Tree} {node : Node} (h : s.parse tree id = .ok node) :
    ∃ own, s.ReadAs id own tree node := by
  obtain ⟨own, rule, concrete, parsed⟩ := lawful.exists_own h
  obtain ⟨fields, made⟩ := lawful.construct_of_parse concrete parsed
  refine ⟨own, rule, ?_, lawful.implements_of_parse h, parsed, fields, made, ?_⟩
  · have planned := lawful.planned own
    cases form : (s.rule own).form with
    | leaf body => exact ⟨body, rfl⟩
    | alternatives names =>
        rw [form] at planned
        generalize s.plan own = plan at planned concrete
        cases planned
        cases concrete
  · intro field hf
    exact Node.get?_of_mem (fields ▸ lawful.fields_nodup own) hf

/-- A node that is embedded was read from a part of the tree, by the rule that its place is for. -/
theorem exists_part_of_embeds {id target : s.Id} {tree : Tree} {node inner : Node}
    (h : s.parse tree id = .ok node) (embeds : s.Embeds node target inner) :
    ∃ part, part.Part tree ∧ s.parse part target = .ok inner := by
  obtain ⟨own, rule, _, h⟩ := lawful.exists_own h
  cases embeds with
  | item has hm ht he =>
      cases lawful.name_injective rule
      obtain ⟨steps, hp, resolves⟩ := lawful.shape_of_body has
      obtain ⟨_, _, same, layout⟩ := (lawful.parse_shape_iff hp).mp h
      cases same
      obtain ⟨step, hs, resolved⟩ := exists_zip_of_forall₂ resolves hm
      obtain ⟨found, hr, child, hc, parsed⟩ := layout.exists_child hs he
      cases resolved with
      | text other | token other => simp [other] at ht
      | rule other =>
          cases hr
          cases lawful.name_injective (Target.rule.inj (other.symm.trans ht))
          exact ⟨child, .single hc, parsed⟩
  | wrapped form delegates root hf he =>
      cases lawful.name_injective rule
      obtain ⟨next, hp, same⟩ := lawful.delegate_of_body form delegates
      cases lawful.name_injective (same.symm.trans root)
      obtain ⟨_, parsed, wrapped⟩ := (lawful.parse_delegate_eq_ok_iff hp).mp h
      cases wrapped
      cases List.mem_singleton.mp hf
      cases List.mem_singleton.mp he
      exact ⟨tree, .refl, parsed⟩

/-- Every node in a field is at a place for some rule. -/
theorem exists_embeds {id : s.Id} {tree : Tree} {node inner : Node} {field : Field}
    (h : s.parse tree id = .ok node) (hf : field ∈ node.fields)
    (he : .node inner ∈ field.value.elements) : ∃ target, s.Embeds node target inner := by
  obtain ⟨own, _, concrete, h⟩ := lawful.exists_own h
  cases hp : s.plan own with
  | shape root steps =>
      obtain ⟨_, fields, rfl, layout⟩ := (lawful.parse_shape_iff hp).mp h
      obtain ⟨body, has, _, resolves⟩ := lawful.body_of_shape hp
      rw [← List.map_snd_zip (Nat.le_of_eq layout.length_eq)] at hf
      obtain ⟨⟨step, field⟩, hm, rfl⟩ := List.mem_map.mp hf
      obtain ⟨target, hr, _⟩ := layout.exists_child hm he
      obtain ⟨item, hi, resolved⟩ := exists_zip_of_forall₂ resolves.flip hm
      cases resolved with
      | text _ | token _ => cases hr
      | rule named => exact ⟨_, .item has hi named he⟩
  | delegate target =>
      obtain ⟨_, _, rfl⟩ := (lawful.parse_delegate_eq_ok_iff hp).mp h
      obtain ⟨body, form, delegates, root⟩ := lawful.body_of_delegate hp
      exact ⟨target, .wrapped form delegates root hf he⟩
  | choice alternatives => simp [hp, Plan.isChoice] at concrete

theorem exists_part_of_contains {id target : s.Id} {tree : Tree} {node inner : Node}
    (h : s.parse tree id = .ok node) (contains : s.Contains node target inner) :
    ∃ part, part.Part tree ∧ s.parse part target = .ok inner := by
  induction contains generalizing id tree with
  | here embeds => exact lawful.exists_part_of_embeds h embeds
  | deeper embeds _ ih =>
      obtain ⟨middle, hm, parsed⟩ := lawful.exists_part_of_embeds h embeds
      obtain ⟨part, hp, parsed⟩ := ih parsed
      exact ⟨part, hp.trans hm, parsed⟩

theorem exists_contains {id : s.Id} {tree : Tree} {node inner : Node} {field : Field}
    (h : s.parse tree id = .ok node) (hf : field ∈ node.fields)
    (nested : field.value.Nested inner) : ∃ target, s.Contains node target inner := by
  generalize hv : field.value = value at nested
  induction nested generalizing id tree node field with
  | held he =>
      obtain ⟨target, embeds⟩ := lawful.exists_embeds h hf (hv ▸ he)
      exact ⟨target, .here embeds⟩
  | deeper he hd _ ih =>
      obtain ⟨between, embeds⟩ := lawful.exists_embeds h hf (hv ▸ he)
      obtain ⟨_, _, parsed⟩ := lawful.exists_part_of_embeds h embeds
      obtain ⟨target, contains⟩ := ih parsed hd rfl
      exact ⟨target, .deeper embeds contains⟩

end Lawful

/-- A node that was read is one of a concrete rule, and so is every node in it: each is nested at a
place for some rule, and was read by that rule from a part of the tree. -/
theorem parse_concrete {schema : Schema} (hc : compile schema = .ok s) {id : s.Id} {tree : Tree}
    {node : Node} (h : s.parse tree id = .ok node) :
    (∃ own, s.ReadAs id own tree node) ∧
    (∀ field ∈ node.fields, ∀ inner, field.value.Nested inner →
      ∃ target, s.Contains node target inner) ∧
    ∀ target inner, s.Contains node target inner → ∃ part own, part.Part tree ∧
      s.parse part target = .ok inner ∧ s.ReadAs target own part inner := by
  have lawful := (lawful_of_compile hc).2
  refine ⟨lawful.exists_readAs h, ?_, ?_⟩
  · intro field hf inner nested
    exact lawful.exists_contains h hf nested
  · intro target inner contains
    obtain ⟨part, hp, parsed⟩ := lawful.exists_part_of_contains h contains
    obtain ⟨own, read⟩ := lawful.exists_readAs parsed
    exact ⟨part, own, hp, parsed, read⟩

/-- The name in the parentheses is two nodes below the one that stands for the expression. -/
theorem parse_concrete_groupedName :
    (∃ own, statementShapes.ReadAs ⟨1, by decide⟩ own groupedNameTree groupedName) ∧
      ∃ part own, part.Part groupedNameTree ∧ statementShapes.ReadAs ⟨1, by decide⟩ own part
        ⟨"ident", [⟨"name", .one (.text "x")⟩]⟩ := by
  have paren : (statementShapes.rule ⟨5, by decide⟩).form = .leaf ⟨"group", []⟩ := rfl
  have group : (statementShapes.rule ⟨6, by decide⟩).form = .leaf
      ⟨"PAREN", [.of "note" .text .optional, .of "expr" (.rule "expr") .one]⟩ := rfl
  have contains : statementShapes.Contains groupedName ⟨1, by decide⟩
      ⟨"ident", [⟨"name", .one (.text "x")⟩]⟩ := by
    have outer : statementShapes.Embeds groupedName ⟨6, by decide⟩ _ :=
      .wrapped paren rfl rfl List.mem_cons_self List.mem_cons_self
    refine .deeper outer (.here ?_)
    exact .item ⟨group, rfl⟩ (List.mem_cons_of_mem _ List.mem_cons_self) rfl List.mem_cons_self
  have read : statementShapes.parse groupedNameTree ⟨1, by decide⟩ = .ok groupedName := rfl
  obtain ⟨concrete, _, within⟩ := parse_concrete compile_statements read
  obtain ⟨part, own, hp, _, inner⟩ := within _ _ contains
  exact ⟨concrete, part, own, hp, inner⟩

end Shapes
end TreeShape
