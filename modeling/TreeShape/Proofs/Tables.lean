import TreeShape.Proofs.Extension
import TreeShape.Proofs.Rendering

/-!
The tables of rules and plans. Every position that a plan holds is that of a rule which its own rule
names, and nothing is ever looked up beyond the ends of the tables: whatever is put there, no result
changes.
-/

namespace TreeShape

section

variable {n m : Nat} (f : Fin n → Fin m)

def Accept.map : Accept n → Accept m
  | token kind => token kind
  | rule id => rule (f id)

def Step.map : Step n → Step m
  | text field optional => text field optional
  | child field accept quantifier => child field (accept.map f) quantifier

def Plan.map : Plan n → Plan m
  | shape root steps => shape root (steps.map (Step.map f))
  | delegate target => delegate (f target)
  | choice alternatives => choice (alternatives.map f)

theorem Plan.related_map (plan : Plan n) :
    Plan.Related (fun id id' => id' = f id) plan (plan.map f) := by
  cases plan with
  | shape root steps =>
      refine .shape root (List.forall₂_map_right_iff.mpr (List.forall₂_same.mpr fun step _ => ?_))
      cases step with
      | text field optional => exact .text field optional
      | child field accept quantifier =>
          cases accept with
          | token kind => exact .child field quantifier (.token kind)
          | rule id => exact .child field quantifier (.rule rfl)
  | delegate target => exact .delegate rfl
  | choice alternatives =>
      exact .choice (List.forall₂_map_right_iff.mpr (List.forall₂_same.mpr fun _ _ => rfl))

end

/-- Names that were found are found at the same place when rules follow. -/
theorem Schema.positionIn_append {name : String} {rules : List Rule} {position : Fin rules.length}
    (h : positionIn name rules = some position) (more : List Rule) :
    positionIn name (rules ++ more) =
      some (position.castLE (List.prefix_append _ _).length_le) := by
  induction rules with
  | nil => cases h
  | cons rule rest ih =>
      simp only [positionIn] at h
      split at h
      · next he =>
        cases h
        exact if_pos he
      · next he =>
        obtain ⟨before, hb, rfl⟩ := Option.map_eq_some_iff.mp h
        change (if rule.name = name then _ else (positionIn name (rest ++ more)).map Fin.succ) = _
        rw [if_neg he, ih hb]
        rfl

namespace Shapes

variable (s : Shapes)

/-- The same tables with something more at their ends. -/
def continued (rules : List Rule) (plans : List (Plan (s.schema.rules ++ rules).length))
    (same : plans.length = rules.length) : Shapes where
  schema := { s.schema with rules := s.schema.rules ++ rules }
  ancestry := s.ancestry
  plans := s.plans.map (Plan.map (Fin.castLE (List.prefix_append _ _).length_le)) ++ plans
  length_plans := by simp [s.length_plans, same]

variable {s} {rules : List Rule} {plans : List (Plan (s.schema.rules ++ rules).length)}
  {same : plans.length = rules.length}

/-- A rule is still at its position. -/
def kept (id : s.Id) : (s.continued rules plans same).Id :=
  id.castLE (List.prefix_append _ _).length_le

theorem kept_inj {a b : s.Id} :
    (kept a : (s.continued rules plans same).Id) = kept b ↔ a = b := by
  rw [Fin.ext_iff, Fin.ext_iff]
  exact Iff.rfl

theorem rule_kept (id : s.Id) :
    (s.continued rules plans same).rule (kept id) = s.rule id :=
  List.getElem_append_left id.isLt

theorem plan_kept (id : s.Id) :
    (s.continued rules plans same).plan (kept id) = (s.plan id).map kept := by
  have h : id.val < s.plans.length := by
    rw [s.length_plans]
    exact id.isLt
  have inside : id.val < (s.plans.map (Plan.map (Fin.castLE
      (List.prefix_append s.schema.rules rules).length_le))).length := by
    rwa [List.length_map]
  exact (List.getElem_append_left inside).trans (List.getElem_map _)

theorem extends_continued :
    Extends s (s.continued rules plans same) fun id id' => id' = kept id where
  size_le := (List.prefix_append _ _).length_le
  name {id id'} h := by
    rw [h, name, rule_kept]
    rfl
  plan {id id'} h := by
    rw [h, plan_kept]
    exact Plan.related_map kept (s.plan id)
  find? {name id} h := ⟨_, Schema.positionIn_append h rules, rfl⟩
  implements _ _ := rfl

namespace Lawful

variable (lawful : s.Lawful)
include lawful

theorem references_eq_map (id : s.Id) :
    (s.rule id).references = (s.plan id).references.map s.name := by
  have planned := lawful.planned id
  have formed := checkRule_eq_ok_iff.mp (lawful.checkRule id)
  unfold Rule.WellFormed at formed
  unfold Rule.references Rule.successors
  generalize (s.rule id).form = form at planned formed
  generalize s.plan id = plan at planned
  cases planned with
  | choice => rfl
  | delegate delegates root =>
      simp [delegates, (formed.delegate delegates).2, root, Plan.references]
  | @shape body steps direct resolves =>
      simp only [direct, Bool.false_eq_true, if_false, List.nil_append, Plan.references]
      generalize body.items = items at resolves
      induction resolves with
      | nil => rfl
      | cons first _ ih =>
          cases first with
          | text target | token target | rule target =>
              simp [target, List.filterMap_cons, Step.rule?, ih]

/-- The names that a rule refers to are found at the positions that its plan holds. -/
theorem map_find?_references (id : s.Id) :
    (s.rule id).references.map s.find? = (s.plan id).references.map some := by
  rw [lawful.references_eq_map, List.map_map]
  refine List.map_congr_left fun target _ => ?_
  exact lawful.find?_eq_some_iff.mpr rfl

end Lawful

variable (s)

/-- Tables in which nothing is looked up that is not there. -/
structure Safe : Prop where
  plans : List.Forall₂ (fun rule plan => s.Planned rule.form plan ∧
    rule.references.map s.find? = plan.references.map some) s.schema.rules s.plans
  isSome_find? : ∀ name, (s.find? name).isSome = true ↔ name ∈ s.schema.names
  find?_iff : ∀ name id, s.find? name = some id ↔ s.schema.names[id.val]? = some name
  /-- A node of no rule is refused by its name. -/
  unknown : ∀ node, s.find? node.rule = none →
    s.serialize node = .error ⟨node.rule, .notSerializable⟩
  /-- A node is refused by the number of its fields before any of them is looked at. -/
  arity : ∀ id fields, (s.plan id).isChoice = false → fields.length ≠ (s.plan id).fields.length →
    s.serialize ⟨s.name id, fields⟩ =
      .error ⟨s.name id, .arity (s.plan id).fields.length fields.length⟩
  /-- Whatever is put beyond the ends of the tables, no rule does anything else. -/
  bounded : ∀ rules plans same id,
    ActsAlike s (s.continued rules plans same) id (kept id) ∧
    Code.RenderedAlike s (s.continued rules plans same) id (kept id) ∧
    ∀ fields, (s.continued rules plans same).serialize ⟨s.name id, fields⟩ =
      s.serialize ⟨s.name id, fields⟩

variable {s}

theorem Lawful.safe (lawful : s.Lawful) : s.Safe where
  plans := by
    refine List.forall₂_iff_get.mpr ⟨s.length_plans.symm, fun i h _ => ?_⟩
    exact ⟨lawful.planned ⟨i, h⟩, lawful.map_find?_references ⟨i, h⟩⟩
  isSome_find? name := Schema.positionIn_isSome_iff
  find?_iff name id := by
    rw [lawful.find?_eq_some_iff, Schema.names, List.getElem?_map, List.getElem?_eq_getElem id.isLt,
      Option.map_some, Option.some.injEq]
    rfl
  unknown node h := by
    obtain ⟨rule, fields⟩ := node
    simp only [serialize, h, Option.map_none]
  arity id fields := by
    simp only [serialize, lawful.find?_map_plan]
    cases s.plan id with
    | choice alternatives => simp [Plan.isChoice]
    | delegate target =>
        intro _ h
        change fields.length ≠ 1 at h
        simp only [checkArity, if_neg h]
        rfl
    | shape root steps =>
        intro _ h
        simp only [Plan.fields, List.length_map] at h ⊢
        simp only [checkArity, if_neg h]
        rfl
  bounded rules plans same id := by
    have more : Extends s (s.continued rules plans same) _ := extends_continued
    refine ⟨more.actsAlike lawful rfl, ?_, fun fields => ?_⟩
    · refine Code.renderedAlike_of_similar more.toSimilar ?_ ⟨rfl, rfl, rfl, rfl⟩ rfl
      intro a a' b b' ha hb
      rw [ha, hb]
      exact kept_inj
    · exact more.serialize_eq lawful ⟨s.name id, fields⟩ id (lawful.find?_eq_some_iff.mpr rfl)

/-- Compiling fails where validating does, and with the same fault; nothing after the check can
fail, and what is compiled is safe to use. -/
theorem compile_safe (schema : Schema) :
    (∀ fault, compile schema = .error fault ↔ schema.validate.result = .error fault) ∧
    (schema.validate.result = .ok () → ∃ ancestry lowered,
      Ancestry.resolve schema.rules = .ok ancestry ∧
      lowerRules schema.position? schema.rules = .ok lowered) ∧
    ∀ s, compile schema = .ok s → s.schema = schema ∧ s.Safe := by
  refine ⟨fun fault => compile_eq_error_iff, exists_tables, fun s h => ?_⟩
  obtain ⟨same, lawful⟩ := lawful_of_compile h
  exact ⟨same, lawful.safe⟩

/-- Beyond the end there is a rule that hands on to itself. -/
theorem compile_safe_statements :
    (∃ ancestry lowered, Ancestry.resolve statements.rules = .ok ancestry ∧
      lowerRules statements.position? statements.rules = .ok lowered) ∧
    ∀ id tree, (statementShapes.continued [⟨"loop", .leaf ⟨"loop", []⟩⟩]
      [.delegate ⟨7, by decide⟩] rfl).parse tree (kept id) = statementShapes.parse tree id := by
  obtain ⟨_, rest, safe⟩ := compile_safe statements
  refine ⟨rest rfl, fun id => ?_⟩
  exact ((safe statementShapes compile_statements).2.bounded _ _ _ id).1.parse

end Shapes
end TreeShape
