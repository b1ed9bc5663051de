import TreeShape.Proofs.Dispatch
import TreeShape.Proofs.Nesting
import TreeShape.Proofs.Writing

/-!
Capabilities: what a rule accepts is accepted wherever the rule may stand, and so is every tree that
a node is written as.
-/

namespace TreeShape.Shapes

variable {s : Shapes}

namespace Lawful

variable (lawful : s.Lawful)
include lawful

/-- Ancestors of a rule are rules, and accept what it does. -/
theorem exists_accepts_of_reach {id : s.Id} {kind name : String}
    (h : Relation.ReflTransGen s.ancestry.Listed (s.name id) name)
    (ha : s.accepts id kind = true) :
    ∃ above, s.name above = name ∧ s.accepts above kind = true := by
  induction h with
  | refl => exact ⟨id, rfl, ha⟩
  | tail _ listed ih =>
      obtain ⟨below, rfl, hb⟩ := ih
      obtain ⟨above, _, _, rfl, hp, hm, he⟩ := lawful.listed_iff.mp listed
      cases lawful.name_injective he
      exact ⟨above, rfl, (lawful.accepts_choice_iff hp).mpr ⟨below, hm, hb⟩⟩

theorem accepts_of_implements {id above : s.Id} {kind : String}
    (h : s.implements (s.name id) (s.name above) = true) (ha : s.accepts id kind = true) :
    s.accepts above kind = true := by
  obtain ⟨found, he, hf⟩ := lawful.exists_accepts_of_reach (Ancestry.implements_iff.mp h) ha
  cases lawful.name_injective he
  exact hf

/-- The rule of a node accepts the tree that the node is written as, through all the nodes that are
only wrapped. -/
theorem exists_accepts_of_serialize {node : Node} {tree : Tree}
    (h : s.serialize node = .ok tree) :
    ∃ id, s.name id = node.rule ∧ s.accepts id tree.kind = true := by
  induction node using Node.nested_induction generalizing tree with
  | step rule fields ih =>
      obtain ⟨id, rfl, choice⟩ := lawful.exists_rule_of_serialize h
      refine ⟨id, rfl, ?_⟩
      cases hp : s.plan id with
      | shape root steps =>
          exact (lawful.accepts_shape_iff hp).mpr ((lawful.serialize_shape_iff hp).mp h).1
      | delegate target =>
          obtain ⟨inner, rfl, implements, written⟩ := (lawful.serialize_delegate_iff hp).mp h
          obtain ⟨innerId, he, ha⟩ :=
            ih _ List.mem_cons_self inner List.mem_cons_self written
          rw [← he] at implements
          exact (lawful.accepts_delegate_iff hp).mpr (lawful.accepts_of_implements implements ha)
      | choice alternatives => simp [hp, Plan.isChoice] at choice

/-- The node that a rule reads may stand for that rule. -/
theorem implements_of_parse {id : s.Id} {tree : Tree} {node : Node}
    (h : s.parse tree id = .ok node) : s.implements node.rule (s.name id) = true := by
  refine Ancestry.implements_iff.mpr ?_
  induction id using lawful.rule_induction generalizing node with
  | shape id root steps hp =>
      obtain ⟨_, fields, rfl, _⟩ := (lawful.parse_shape_eq_ok_iff hp).mp h
      exact .refl
  | delegate id target hp _ =>
      obtain ⟨inner, _, rfl⟩ := (lawful.parse_delegate_eq_ok_iff hp).mp h
      exact .refl
  | choice id alternatives hp ih =>
      obtain ⟨alternative, found, h⟩ := (lawful.parse_choice_eq_ok_iff hp).mp h
      have hm := List.mem_of_find?_eq_some found
      have listed : s.ancestry.Listed (s.name alternative) (s.name id) :=
        lawful.listed_iff.mpr ⟨id, alternatives, alternative, rfl, hp, hm, rfl⟩
      exact .tail (ih alternative hm h) listed

end Lawful

/-- Every capability of a node's rule accepts the tree that the node is written as, and what a rule
accepts is accepted by each of its capabilities. -/
theorem canParse_of_capability {schema : Schema} (h : compile schema = .ok s) :
    (∀ node tree, s.serialize node = .ok tree → ∀ capability,
      s.implements node.rule (s.name capability) = true → s.canParse capability tree = true) ∧
    ∀ id capability, s.implements (s.name id) (s.name capability) = true →
      ∀ tree, s.canParse id tree = true → s.canParse capability tree = true := by
  have lawful := (lawful_of_compile h).2
  constructor
  · intro node tree written capability implements
    obtain ⟨id, he, ha⟩ := lawful.exists_accepts_of_serialize written
    rw [← he] at implements
    exact lawful.accepts_of_implements implements ha
  · intro id capability implements tree ha
    exact lawful.accepts_of_implements implements ha

/-- A name in parentheses, as a node of `statements`. -/
def groupedName : Node :=
  wrap "paren" ⟨"group", [⟨"note", .empty⟩,
    ⟨"expr", .one (.node ⟨"ident", [⟨"name", .one (.text "x")⟩]⟩)⟩]⟩

def groupedNameTree : Tree :=
  ⟨"PAREN", none, [⟨"IDENT", some "x", []⟩]⟩

/-- A name in parentheses is written as a tree that expressions accept. -/
theorem canParse_groupedName :
    statementShapes.serialize groupedName = .ok groupedNameTree ∧
      statementShapes.implements "paren" "expr" = true ∧
      statementShapes.canParse ⟨1, by decide⟩ groupedNameTree = true :=
  ⟨rfl, by decide,
    (canParse_of_capability compile_statements).1 groupedName groupedNameTree rfl _ (by decide)⟩

end TreeShape.Shapes
