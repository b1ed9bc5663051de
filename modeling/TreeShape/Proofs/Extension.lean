import Mathlib.Data.List.Perm.Subperm
import TreeShape.Proofs.Capability
import TreeShape.Proofs.Compiling

/-!
More rules than before, in any order. What a rule does is settled by that rule and those it refers
to, so it stays the same in every schema that has them all.
-/

namespace TreeShape

namespace Shapes

variable {s s' : Shapes}

/-- Rules of `s` are found again in `s'`, under their names and with no more rules that may stand in
for them. -/
structure Extends (s s' : Shapes) (related : s.Id → s'.Id → Prop) : Prop
    extends Similar s s' related where
  find? : ∀ {name id}, s.find? name = some id → ∃ id', s'.find? name = some id' ∧ related id id'
  implements : ∀ {id id'}, related id id' → ∀ name,
    s'.implements name (s.name id) = s.implements name (s.name id)

/-- Only rules may stand in for rules. -/
theorem Lawful.exists_of_implements (lawful : s.Lawful) {name : String} {id : s.Id}
    (h : s.implements name (s.name id) = true) : ∃ found, s.find? name = some found := by
  have reach := Ancestry.implements_iff.mp h
  cases reach using Relation.ReflTransGen.head_induction_on with
  | refl => exact ⟨id, lawful.find?_eq_some_iff.mpr rfl⟩
  | head listed _ =>
      obtain ⟨_, _, alternative, _, _, _, he⟩ := lawful.listed_iff.mp listed
      exact ⟨alternative, lawful.find?_eq_some_iff.mpr he⟩

namespace Extends

variable {related : s.Id → s'.Id → Prop} (more : Extends s s' related) (lawful : s.Lawful)

/-- A node of a known rule is written alike. -/
def WrittenAlike (s s' : Shapes) (node : Node) : Prop :=
  ∀ id, s.find? node.rule = some id → s'.serialize node = s.serialize node

include more lawful

theorem serializeElement_eq {accept : Accept s.size} {accept' : Accept s'.size}
    (h : Accept.Related related accept accept') (rule field : String) (element : Element)
    (ih : ∀ inner, element = .node inner → WrittenAlike s s' inner) :
    s'.serializeElement rule field accept' element =
      s.serializeElement rule field accept element := by
  cases h with
  | token kind => cases element <;> simp only [serializeElement, elementSort]
  | @rule id id' hr =>
      cases element with
      | token token | text text => simp only [serializeElement, elementSort, more.name hr]
      | node inner =>
          simp only [serializeElement, elementSort, more.name hr, more.implements hr]
          by_cases hi : s.implements inner.rule (s.name id) = true
          · obtain ⟨found, hf⟩ := lawful.exists_of_implements hi
            rw [if_pos hi, if_pos hi, ih inner rfl found hf]
          · rw [if_neg hi, if_neg hi]

theorem serializeElements_eq {accept : Accept s.size} {accept' : Accept s'.size}
    (h : Accept.Related related accept accept') (rule field : String) (tree : Tree)
    (elements : List Element)
    (ih : ∀ inner, .node inner ∈ elements → WrittenAlike s s' inner) :
    s'.serializeElements rule field accept' tree elements =
      s.serializeElements rule field accept tree elements := by
  induction elements generalizing tree with
  | nil => simp only [serializeElements]
  | cons element rest ihe =>
      have first := more.serializeElement_eq lawful h rule field element
        fun inner he => ih inner (he ▸ List.mem_cons_self)
      simp only [serializeElements, first]
      congr 1
      funext child
      exact ihe _ fun inner hi => ih inner (List.mem_cons_of_mem _ hi)

theorem serializeValue_eq {step : Step s.size} {step' : Step s'.size}
    (h : Step.Related related step step') (rule : String) (tree : Tree) (value : FieldValue)
    (ih : ∀ inner, .node inner ∈ value.elements → WrittenAlike s s' inner) :
    s'.serializeValue rule tree step' value = s.serializeValue rule tree step value := by
  cases h with
  | text field optional =>
      cases value with
      | empty => cases optional <;> simp only [serializeValue]
      | one element => cases element <;> simp only [serializeValue]
      | many elements => simp only [serializeValue]
  | child field quantifier h =>
      cases value with
      | empty => cases quantifier <;> simp only [serializeValue]
      | one element =>
          have single := more.serializeElement_eq lawful h rule field element
            fun inner he => ih inner (he ▸ List.mem_cons_self)
          cases quantifier <;> simp only [serializeValue, single]
      | many elements =>
          have all := more.serializeElements_eq lawful h rule field tree elements ih
          cases quantifier <;> simp only [serializeValue, all]

theorem serializeFields_eq {steps : List (Step s.size)} {steps' : List (Step s'.size)}
    (h : List.Forall₂ (Step.Related related) steps steps') (rule : String) (tree : Tree)
    (fields : List Field)
    (ih : ∀ field ∈ fields, ∀ inner, .node inner ∈ field.value.elements → WrittenAlike s s' inner) :
    s'.serializeFields rule tree steps' fields = s.serializeFields rule tree steps fields := by
  induction h generalizing tree fields with
  | nil => simp only [serializeFields]
  | cons first _ ihs =>
      cases fields with
      | nil => simp only [serializeFields]
      | cons field fields =>
          obtain ⟨name, value⟩ := field
          have written := more.serializeValue_eq lawful first rule tree value
            (ih _ List.mem_cons_self)
          simp only [serializeFields, first.field_eq, written]
          congr 1
          funext _
          congr 1
          funext middle
          exact ihs _ _ fun field hf => ih field (List.mem_cons_of_mem _ hf)

theorem serializeInner_eq {target : s.Id} {target' : s'.Id} (h : related target target')
    (rule : String) (fields : List Field)
    (ih : ∀ field ∈ fields, ∀ inner, .node inner ∈ field.value.elements → WrittenAlike s s' inner) :
    s'.serializeInner rule target' fields = s.serializeInner rule target fields := by
  cases fields with
  | nil => simp only [serializeInner]
  | cons field fields =>
      obtain ⟨name, value⟩ := field
      cases value with
      | empty | many elements => simp only [serializeInner]
      | one element =>
          have single := more.serializeElement_eq lawful (.rule h) rule innerField element
            fun inner he => ih _ List.mem_cons_self inner (he ▸ List.mem_cons_self)
          simp only [serializeInner, single]

/-- Whatever rules are named further down, a node of a rule that was there is written alike. -/
theorem serialize_eq (node : Node) : WrittenAlike s s' node := by
  induction node using Node.nested_induction with
  | step rule fields ih =>
      intro id hf
      obtain ⟨id', hf', hr⟩ := more.find? hf
      have plan := more.plan hr
      simp only [serialize, hf, hf', Option.map_some]
      generalize s.plan id = p at plan
      generalize s'.plan id' = p' at plan
      cases plan with
      | choice alternatives => rfl
      | delegate target => simp only [more.serializeInner_eq lawful target rule fields ih]
      | shape root steps =>
          simp only [steps.length_eq, more.serializeFields_eq lawful steps rule _ fields ih]

end Extends

/-- The same rule, by its name. -/
def SameName (id : s.Id) (id' : s'.Id) : Prop :=
  s'.name id' = s.name id

theorem Resolves.related {item : Item} {step : Step s.size} {step' : Step s'.size}
    (h : s.Resolves item step) (h' : s'.Resolves item step') :
    Step.Related SameName step step' := by
  cases h with
  | text target =>
      cases h' with
      | text => exact .text _ _
      | token target' | rule target' => cases target.symm.trans target'
  | token target =>
      cases h' with
      | token target' =>
          cases target.symm.trans target'
          exact .child _ _ (.token _)
      | text target' | rule target' => cases target.symm.trans target'
  | rule target =>
      cases h' with
      | rule target' =>
          have same := Target.rule.inj (target.symm.trans target')
          exact .child _ _ (.rule same.symm)
      | text target' | token target' => cases target.symm.trans target'

private theorem steps_related {items : List Item} {steps : List (Step s.size)}
    {steps' : List (Step s'.size)} (h : List.Forall₂ s.Resolves items steps)
    (h' : List.Forall₂ s'.Resolves items steps') :
    List.Forall₂ (Step.Related SameName) steps steps' := by
  induction h generalizing steps' with
  | nil =>
      cases h'
      exact .nil
  | cons first _ ih =>
      cases h' with
      | cons first' rest' => exact .cons (first.related first') (ih rest')

/-- Plans of one form differ in nothing but the positions of rules. -/
theorem Planned.related {form : RuleForm} {plan : Plan s.size} {plan' : Plan s'.size}
    (h : s.Planned form plan) (h' : s'.Planned form plan') : Plan.Related SameName plan plan' := by
  cases h with
  | @choice alternatives =>
      generalize hn : alternatives.map s.name = names at h'
      cases h' with
      | @choice alternatives' =>
          refine .choice ?_
          rw [← List.forall₂_eq_eq_eq, List.forall₂_map_left_iff, List.forall₂_map_right_iff] at hn
          exact hn.imp fun _ _ => Eq.symm
  | delegate delegates root =>
      cases h' with
      | delegate _ root' => exact .delegate (root'.symm.trans root)
      | shape direct _ => simp [delegates] at direct
  | shape direct steps =>
      cases h' with
      | delegate delegates _ => simp [delegates] at direct
      | shape _ steps' => exact .shape _ (steps_related steps steps')

namespace Lawful

variable (lawful : s.Lawful) (lawful' : s'.Lawful) (sub : s.schema.rules ⊆ s'.schema.rules)
include sub

theorem exists_sameName (id : s.Id) : ∃ id' : s'.Id, SameName id id' := by
  obtain ⟨id', h⟩ := List.mem_iff_get.mp (sub (List.get_mem _ id))
  exact ⟨id', congrArg Rule.name h⟩

include lawful lawful'

/-- New rules may list old ones, but what stands in for an old rule is listed by old rules only. -/
theorem implements_eq_of_subset (name : String) (id : s.Id) :
    s'.implements name (s.name id) = s.implements name (s.name id) := by
  have forth : ∀ {name lister}, s.ancestry.Listed name lister →
      s'.ancestry.Listed name lister := by
    intro name lister h
    obtain ⟨rule, hr, hn, ha⟩ := lawful.listed_iff_mem.mp h
    exact lawful'.listed_iff_mem.mpr ⟨rule, sub hr, hn, ha⟩
  have back : ∀ {name id}, s'.ancestry.Listed name (s.name id) →
      s.ancestry.Listed name (s.name id) := by
    intro name id h
    obtain ⟨rule, hr, hn, ha⟩ := lawful'.listed_iff_mem.mp h
    have same : rule = s.rule id :=
      List.inj_on_of_nodup_map lawful'.names_nodup hr (sub (List.get_mem _ _)) hn
    exact lawful.listed_iff_mem.mpr ⟨rule, same ▸ List.get_mem _ _, hn, ha⟩
  apply Bool.eq_iff_iff.mpr
  refine Ancestry.implements_iff.trans (Iff.trans ?_ Ancestry.implements_iff.symm)
  constructor
  · intro reach
    have known : Relation.ReflTransGen s.ancestry.Listed name (s.name id) ∧
        ∃ found, s.name found = name := by
      -- Backwards from an old rule: whatever it lists is old again, so no new list comes in.
      induction reach using Relation.ReflTransGen.head_induction_on with
      | refl => exact ⟨.refl, id, rfl⟩
      | head listed _ ih =>
          obtain ⟨reach, found, rfl⟩ := ih
          have listed := back listed
          obtain ⟨_, _, alternative, _, _, _, he⟩ := lawful.listed_iff.mp listed
          exact ⟨.head listed reach, alternative, he⟩
    exact known.1
  · intro reach
    exact reach.lift (·) fun _ _ => forth

theorem extends_of_subset : Extends s s' SameName where
  size_le := ((List.Nodup.of_map _ lawful.names_nodup).subperm sub).length_le
  name h := h
  plan {id id'} h := by
    have same : s.rule id = s'.rule id' := lawful'.eq_rule_of_mem (sub (List.get_mem _ _)) h
    have planned' := lawful'.planned id'
    rw [← same] at planned'
    exact (lawful.planned id).related planned'
  find? {name id} h := by
    obtain ⟨id', same⟩ := exists_sameName sub id
    have hn := lawful.find?_eq_some_iff.mp h
    exact ⟨id', lawful'.find?_eq_some_iff.mpr (same.trans hn), same⟩
  implements {id _} _ name := lawful.implements_eq_of_subset lawful' sub name id

end Lawful

/-- What a rule does is the same among other rules and in another order, and so is whether the rules
compile at all. -/
theorem unaffected_by_other_rules :
    (∀ (schema schema' : Schema) (s s' : Shapes), compile schema = .ok s →
      compile schema' = .ok s' → (∀ rule ∈ schema.rules, rule ∈ schema'.rules) →
      (∀ id : s.Id, ∃ id' : s'.Id, s'.find? (s.name id) = some id' ∧ ActsAlike s s' id id') ∧
      (∀ rule ∈ schema.names, ∀ capability ∈ schema.names,
        s'.implements rule capability = s.implements rule capability) ∧
      ∀ node : Node, node.rule ∈ schema.names → s'.serialize node = s.serialize node) ∧
    ∀ (schema : Schema) (rules : List Rule), rules.Perm schema.rules →
      ((∃ s, compile { schema with rules } = .ok s) ↔ ∃ s, compile schema = .ok s) := by
  constructor
  · intro schema schema' s s' h h' sub
    obtain ⟨rfl, lawful⟩ := lawful_of_compile h
    obtain ⟨rfl, lawful'⟩ := lawful_of_compile h'
    have more := lawful.extends_of_subset lawful' fun rule hr => sub rule hr
    refine ⟨fun id => ?_, fun rule _ capability hc => ?_, fun node hn => ?_⟩
    · obtain ⟨id', found, same⟩ := more.find? (lawful.find?_eq_some_iff.mpr rfl)
      exact ⟨id', found, more.actsAlike lawful same⟩
    · obtain ⟨id, rfl⟩ := mem_names_iff.mp hc
      exact lawful.implements_eq_of_subset lawful' (fun rule hr => sub rule hr) rule id
    · obtain ⟨id, hid⟩ := mem_names_iff.mp hn
      exact more.serialize_eq lawful node id (lawful.find?_eq_some_iff.mpr hid)
  · intro schema rules perm
    rw [exists_compile_iff, exists_compile_iff]
    exact ⟨Schema.check_of_perm perm, Schema.check_of_perm perm.symm⟩

end Shapes

/-- The statements in reverse, with a program and with calls, of which both list some of them. -/
def callStatements : Schema :=
  { statements with
    rules :=
      [⟨"program", .alternatives ["stmt", "call"]⟩,
       ⟨"callee", .alternatives ["ident", "call"]⟩,
       ⟨"call", .leaf ⟨"CALL", [.of "callee" (.rule "callee") .one]⟩⟩] ++ statements.rules.reverse }

theorem unaffected_statements :
    (∃ s, Shapes.compile callStatements = .ok s ∧
      (∀ id : statementShapes.Id, ∃ id' : s.Id,
        s.find? (statementShapes.name id) = some id' ∧ Shapes.ActsAlike statementShapes s id id') ∧
      s.implements "ident" "expr" = true ∧
      s.serialize ⟨"block", [⟨"items", .many [.node ⟨"call", []⟩]⟩]⟩ =
        .error ⟨"block", .wrongValue "items" "a `stmt` node"⟩) ∧
    ∃ s, Shapes.compile { statements with rules := statements.rules.reverse } = .ok s := by
  obtain ⟨s, h⟩ := Shapes.exists_compile_iff.mpr (rfl : callStatements.check = .ok ())
  have sub : ∀ rule ∈ statements.rules, rule ∈ callStatements.rules := by
    intro rule hr
    exact List.mem_append_right _ (List.mem_reverse.mpr hr)
  obtain ⟨alike, implements, serialize⟩ := Shapes.unaffected_by_other_rules.1
    statements callStatements statementShapes s compile_statements h sub
  refine ⟨⟨s, h, alike, ?_, ?_⟩, ?_⟩
  · exact implements "ident" (by decide) "expr" (by decide)
  · exact (serialize _ (by decide)).trans rfl
  · exact (Shapes.unaffected_by_other_rules.2 statements statements.rules.reverse
      (List.reverse_perm _)).mpr ⟨_, compile_statements⟩

end TreeShape
