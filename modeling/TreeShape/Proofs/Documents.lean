import Mathlib.Logic.Basic
import TreeShape.Proofs.Result
import TreeShape.Schema.Document

/-!
What documents stand for. A document stands for a schema exactly if each of its entries has one of
the two forms of a rule; if not, the first entry without one is told, and what it lacks. Nothing is
lost on the way: the schema, spelled out again, is the document with its defaults filled in.
-/

namespace TreeShape

/-- Either text is captured or something is matched. -/
def ItemDocument.WellShaped (item : ItemDocument) : Prop :=
  Xor (item.text = true) (item.target.isSome = true)

/-- Either alternatives and nothing else, or a root, which may have items. -/
def RuleDocument.WellShaped (rule : RuleDocument) : Prop :=
  (rule.alternatives.isSome = true ∧ rule.root = none ∧ rule.items = []) ∨
    (rule.root.isSome = true ∧ rule.alternatives = none ∧ ∀ item ∈ rule.items, item.WellShaped)

inductive ItemDocument.Flaw (item : ItemDocument) : MalformedRule → Prop
  | textAndMatch : item.text = true → item.target.isSome = true →
      Flaw item (.textAndMatch item.field)
  | neitherTextNorMatch : item.text = false → item.target = none →
      Flaw item (.neitherTextNorMatch item.field)

/-- What is wrong with an entry; of its items, the first one that is wrong counts. -/
inductive RuleDocument.Flaw (rule : RuleDocument) : MalformedRule → Prop
  | mixedForms : rule.alternatives.isSome = true → rule.root.isSome = true ∨ rule.items ≠ [] →
      Flaw rule .mixedForms
  | noForm : rule.alternatives = none → rule.root = none → Flaw rule .noForm
  | item {before after : List ItemDocument} {item : ItemDocument} {reason : MalformedRule} :
      rule.alternatives = none → rule.root.isSome = true → rule.items = before ++ item :: after →
      (∀ earlier ∈ before, earlier.WellShaped) → item.Flaw reason → Flaw rule reason

/-- A kind is named with a capital, and a rule without one. -/
def Target.Cased : Target → Prop
  | .rule name => Text.startsUppercase name = false
  | .token kind => Text.startsUppercase kind = true
  | .text => True

def Rule.Cased (rule : Rule) : Prop :=
  match rule.form with
  | .leaf body => ∀ item ∈ body.items, item.target.Cased
  | .alternatives _ => True

def Schema.Cased (schema : Schema) : Prop :=
  ∀ rule ∈ schema.rules, rule.Cased

/-! ### Defaults -/

def ItemDocument.completed (item : ItemDocument) : ItemDocument :=
  { item with quantifier := some (item.quantifier.getD .one) }

def RuleDocument.completed (rule : RuleDocument) : RuleDocument :=
  { rule with items := rule.items.map (·.completed) }

/-- The document with every key that has a default. -/
def SchemaDocument.completed (doc : SchemaDocument) : SchemaDocument :=
  { doc with
    runtime := some (doc.runtime.getD SchemaDocument.defaultRuntime)
    rules := doc.rules.map (·.completed) }

theorem Schema.completed_toDocument (schema : Schema) :
    schema.toDocument.completed = schema.toDocument := by
  have rules : ∀ rule : Rule, rule.toDocument.completed = rule.toDocument := by
    intro ⟨name, form⟩
    cases form with
    | alternatives names => rfl
    | leaf body => simp [Rule.toDocument, RuleDocument.completed, ItemDocument.completed,
        Item.toDocument]
  simp [Schema.toDocument, SchemaDocument.completed, rules]

/-! ### Lists of entries -/

section

variable {ε α β γ : Type} {f : α → Except ε β}

/-- Entries that are each read faithfully are so together. -/
private theorem mapM_eq_ok_iff_map_eq {good : β → Prop} {spell : β → γ} {complete : α → γ}
    (each : ∀ x y, f x = .ok y ↔ good y ∧ spell y = complete x) {xs : List α} {ys : List β} :
    xs.mapM f = .ok ys ↔ (∀ y ∈ ys, good y) ∧ ys.map spell = xs.map complete := by
  rw [mapM_eq_ok_iff]
  constructor
  · intro h
    induction h with
    | nil => exact ⟨List.forall_mem_nil _, rfl⟩
    | cons first _ ih =>
        obtain ⟨here, same⟩ := (each _ _).mp first
        exact ⟨List.forall_mem_cons.mpr ⟨here, ih.1⟩, congrArg₂ List.cons same ih.2⟩
  · intro ⟨all, same⟩
    induction ys generalizing xs with
    | nil =>
        cases List.map_eq_nil_iff.mp same.symm
        exact .nil
    | cons y ys ih =>
        obtain ⟨x, rest, rfl, head, tail⟩ := List.map_eq_cons_iff.mp same.symm
        obtain ⟨here, later⟩ := List.forall_mem_cons.mp all
        exact .cons ((each x y).mpr ⟨here, head.symm⟩) (ih later tail.symm)

private theorem exists_mapM_iff {good : α → Prop} (each : ∀ x, (∃ y, f x = .ok y) ↔ good x)
    {xs : List α} : (∃ ys, xs.mapM f = .ok ys) ↔ ∀ x ∈ xs, good x := by
  simp only [mapM_eq_ok_iff, exists_forall₂_iff, each]

end

/-! ### Items -/

namespace ItemDocument

variable {doc : ItemDocument}

theorem toItem_completed (doc : ItemDocument) : doc.completed.toItem = doc.toItem := rfl

/-- A target is known again by the case of its name. -/
theorem toItem_toDocument {item : Item} (cased : item.target.Cased) :
    item.toDocument.toItem = .ok item := by
  obtain ⟨field, optional, repeated, target, quantifier⟩ := item
  cases target with
  | text => rfl
  | rule name =>
      have same : Target.named name = .rule name := if_neg (ne_true_of_eq_false cased)
      change Except.ok (⟨field, optional, repeated, Target.named name, quantifier⟩ : Item) = _
      rw [same]
  | token kind =>
      have same : Target.named kind = .token kind := if_pos cased
      change Except.ok (⟨field, optional, repeated, Target.named kind, quantifier⟩ : Item) = _
      rw [same]

theorem toItem_eq_ok_iff {item : Item} :
    doc.toItem = .ok item ↔ item.target.Cased ∧ item.toDocument = doc.completed := by
  constructor
  · intro h
    obtain ⟨field, optional, repeated, target, text, quantifier⟩ := doc
    cases text with
    | true =>
        cases target with
        | some name => cases h
        | none =>
            cases h
            exact ⟨trivial, rfl⟩
    | false =>
        cases target with
        | none => cases h
        | some name =>
            cases h
            by_cases capital : Text.startsUppercase name = true
            · have kind : Target.named name = .token name := if_pos capital
              exact ⟨kind ▸ capital, by simp [Item.toDocument, completed, kind]⟩
            · have rule : Target.named name = .rule name := if_neg capital
              exact ⟨rule ▸ eq_false_of_ne_true capital,
                by simp [Item.toDocument, completed, rule]⟩
  · intro ⟨cased, same⟩
    rw [← toItem_completed, ← same]
    exact toItem_toDocument cased

theorem exists_toItem_iff : (∃ item, doc.toItem = .ok item) ↔ doc.WellShaped := by
  obtain ⟨field, optional, repeated, target, text, quantifier⟩ := doc
  cases text <;> cases target <;>
    simp [toItem, WellShaped, bind, Except.bind, pure, Except.pure]

theorem toItem_eq_error_iff {reason : MalformedRule} :
    doc.toItem = .error reason ↔ doc.Flaw reason := by
  constructor
  · intro h
    obtain ⟨field, optional, repeated, target, text, quantifier⟩ := doc
    cases text <;> cases target <;> cases h
    · exact .neitherTextNorMatch rfl rfl
    · exact .textAndMatch rfl rfl
  · intro flaw
    cases flaw with
    | textAndMatch text target =>
        obtain ⟨name, found⟩ := Option.isSome_iff_exists.mp target
        simp [toItem, text, found, bind, Except.bind]
    | neitherTextNorMatch text target => simp [toItem, text, target, bind, Except.bind]

end ItemDocument

/-! ### Rules -/

namespace RuleDocument

variable {doc : RuleDocument}

theorem toForm_eq_ok_iff {form : RuleForm} :
    doc.toForm = .ok form ↔
      (∃ names, doc.alternatives = some names ∧ doc.root = none ∧ doc.items = [] ∧
        form = .alternatives names) ∨
      ∃ root items, doc.root = some root ∧ doc.alternatives = none ∧
        doc.items.mapM (·.toItem) = .ok items ∧ form = .leaf ⟨root, items⟩ := by
  obtain ⟨name, root, items, alternatives⟩ := doc
  cases alternatives with
  | some names =>
      cases root with
      | some root => simp [toForm]
      | none => cases items <;> simp [toForm, eq_comm]
  | none =>
      cases root with
      | none => simp [toForm]
      | some root =>
          simp only [toForm, bind_eq_ok_iff, pure_eq_ok_iff]
          simp [eq_comm]

theorem toRule_eq_ok_iff_toForm {rule : Rule} :
    doc.toRule = .ok rule ↔ rule.name = doc.name ∧ doc.toForm = .ok rule.form := by
  unfold toRule
  cases doc.toForm with
  | error reason => simp
  | ok form =>
      obtain ⟨name, form'⟩ := rule
      simp [eq_comm]

theorem toRule_eq_ok_iff {rule : Rule} :
    doc.toRule = .ok rule ↔ rule.Cased ∧ rule.toDocument = doc.completed := by
  have read {items : List Item} : doc.items.mapM (·.toItem) = .ok items ↔
      (∀ item ∈ items, item.target.Cased) ∧
        items.map (·.toDocument) = doc.items.map (·.completed) :=
    mapM_eq_ok_iff_map_eq fun _ _ => ItemDocument.toItem_eq_ok_iff
  obtain ⟨name, form⟩ := rule
  rw [toRule_eq_ok_iff_toForm, toForm_eq_ok_iff]
  cases form with
  | alternatives names =>
      have spelled : Rule.toDocument ⟨name, .alternatives names⟩ = doc.completed ↔
          name = doc.name ∧ doc.root = none ∧ doc.items = [] ∧
            doc.alternatives = some names := by
        simp [Rule.toDocument, completed, eq_comm]
      rw [spelled]
      constructor
      · intro ⟨same, form⟩
        obtain ⟨_, alternatives, root, items, same'⟩ | ⟨_, _, _, _, _, other⟩ := form
        · cases same'
          exact ⟨trivial, same, root, items, alternatives⟩
        · cases other
      · intro ⟨_, same, root, items, alternatives⟩
        exact ⟨same, .inl ⟨names, alternatives, root, items, rfl⟩⟩
  | leaf body =>
      have spelled : Rule.toDocument ⟨name, .leaf body⟩ = doc.completed ↔
          name = doc.name ∧ some body.root = doc.root ∧
            body.items.map (·.toDocument) = doc.items.map (·.completed) ∧
            none = doc.alternatives := by
        rw [Rule.toDocument, completed, RuleDocument.mk.injEq]
      rw [spelled]
      constructor
      · intro ⟨same, form⟩
        obtain ⟨_, _, _, _, other⟩ | ⟨root, items, hr, alternatives, hi, same'⟩ := form
        · cases other
        · cases same'
          obtain ⟨cased, hi⟩ := read.mp hi
          exact ⟨cased, same, hr.symm, hi, alternatives.symm⟩
      · intro ⟨cased, same, root, items, alternatives⟩
        exact ⟨same, .inr ⟨body.root, body.items, root.symm, alternatives.symm,
          read.mpr ⟨cased, items⟩, rfl⟩⟩

theorem exists_toRule_iff : (∃ rule, doc.toRule = .ok rule) ↔ doc.WellShaped := by
  have read : (∃ items, doc.items.mapM (·.toItem) = .ok items) ↔
      ∀ item ∈ doc.items, item.WellShaped :=
    exists_mapM_iff fun _ => ItemDocument.exists_toItem_iff
  rw [WellShaped, ← read]
  simp only [toRule_eq_ok_iff_toForm, toForm_eq_ok_iff, Option.isSome_iff_exists]
  constructor
  · intro ⟨rule, _, form⟩
    obtain ⟨names, alternatives, root, items, _⟩ | ⟨root, items, hr, alternatives, hi, _⟩ := form
    · exact .inl ⟨⟨names, alternatives⟩, root, items⟩
    · exact .inr ⟨⟨root, hr⟩, alternatives, items, hi⟩
  · intro shaped
    obtain ⟨⟨names, alternatives⟩, root, items⟩ | ⟨⟨root, hr⟩, alternatives, items, hi⟩ := shaped
    · exact ⟨⟨doc.name, .alternatives names⟩, rfl, .inl ⟨names, alternatives, root, items, rfl⟩⟩
    · exact ⟨⟨doc.name, .leaf ⟨root, items⟩⟩, rfl, .inr ⟨root, items, hr, alternatives, hi, rfl⟩⟩

theorem toForm_eq_error_iff {reason : MalformedRule} :
    doc.toForm = .error reason ↔ doc.Flaw reason := by
  have read : doc.items.mapM (·.toItem) = .error reason ↔
      ∃ before item after, doc.items = before ++ item :: after ∧
        (∀ earlier ∈ before, earlier.WellShaped) ∧ item.Flaw reason := by
    simp only [mapM_eq_error_iff, ItemDocument.exists_toItem_iff, ItemDocument.toItem_eq_error_iff]
  constructor
  · intro h
    unfold toForm at h
    split at h
    · next names alternatives root =>
      split at h
      · cases h
      · next items =>
        cases h
        exact .mixedForms (by simp [alternatives]) (.inr (by simpa using items))
    · next names root alternatives hr =>
      cases h
      exact .mixedForms (by simp [alternatives]) (.inl (by simp [hr]))
    · next root alternatives hr =>
      obtain h | ⟨_, _, done⟩ := bind_eq_error_iff.mp h
      · obtain ⟨before, item, after, split, earlier, flaw⟩ := read.mp h
        exact .item alternatives (by simp [hr]) split earlier flaw
      · cases done
    · next alternatives root =>
      cases h
      exact .noForm alternatives root
  · intro flaw
    cases flaw with
    | mixedForms alternatives others =>
        obtain ⟨names, alternatives⟩ := Option.isSome_iff_exists.mp alternatives
        cases root : doc.root with
        | some root => simp [toForm, alternatives, root]
        | none =>
            have items : doc.items ≠ [] := others.resolve_left (by simp [root])
            simp [toForm, alternatives, root, items]
    | noForm alternatives root => simp [toForm, alternatives, root]
    | item alternatives root split earlier flaw =>
        obtain ⟨root, hr⟩ := Option.isSome_iff_exists.mp root
        have fails := read.mpr ⟨_, _, _, split, earlier, flaw⟩
        simp [toForm, alternatives, hr, fails]

theorem toRule_eq_error_iff {malformed : Malformed} :
    doc.toRule = .error malformed ↔ malformed.rule = doc.name ∧ doc.Flaw malformed.reason := by
  rw [← toForm_eq_error_iff, toRule]
  obtain ⟨rule, reason⟩ := malformed
  cases doc.toForm with
  | ok form => simp
  | error other => simp [eq_comm]

theorem Flaw.not_wellShaped {reason : MalformedRule} (flaw : doc.Flaw reason) :
    ¬ doc.WellShaped := by
  have fails : doc.toRule = .error ⟨doc.name, reason⟩ := toRule_eq_error_iff.mpr ⟨rfl, flaw⟩
  rw [← exists_toRule_iff, fails]
  simp

end RuleDocument

/-! ### Schemas -/

namespace SchemaDocument

variable {doc : SchemaDocument}

theorem exists_toSchema_iff :
    (∃ schema, doc.toSchema = .ok schema) ↔ ∀ rule ∈ doc.rules, rule.WellShaped := by
  have read : (∃ rules, doc.rules.mapM (·.toRule) = .ok rules) ↔
      ∀ rule ∈ doc.rules, rule.WellShaped :=
    exists_mapM_iff fun _ => RuleDocument.exists_toRule_iff
  rw [← read]
  simp only [toSchema, bind_eq_ok_iff, pure_eq_ok_iff]
  constructor
  · intro ⟨_, rules, h, _⟩
    exact ⟨rules, h⟩
  · intro ⟨rules, h⟩
    exact ⟨_, rules, h, rfl⟩

theorem toSchema_eq_error_iff {malformed : Malformed} :
    doc.toSchema = .error malformed ↔
      ∃ before rule after, doc.rules = before ++ rule :: after ∧
        (∀ earlier ∈ before, earlier.WellShaped) ∧
        malformed.rule = rule.name ∧ rule.Flaw malformed.reason := by
  have done : ∀ schema : Schema, (pure schema : Except Malformed Schema) ≠ .error malformed := by
    intro schema h
    cases h
  simp only [toSchema, bind_eq_error_iff, mapM_eq_error_iff, RuleDocument.exists_toRule_iff,
    RuleDocument.toRule_eq_error_iff, done, and_false, exists_false, or_false]

theorem toSchema_eq_ok_iff {schema : Schema} :
    doc.toSchema = .ok schema ↔ schema.Cased ∧ schema.toDocument = doc.completed := by
  have read {rules : List Rule} : doc.rules.mapM (·.toRule) = .ok rules ↔
      (∀ rule ∈ rules, rule.Cased) ∧
        rules.map (·.toDocument) = doc.rules.map (·.completed) :=
    mapM_eq_ok_iff_map_eq fun _ _ => RuleDocument.toRule_eq_ok_iff
  have spelled : schema.toDocument = doc.completed ↔
      schema.package = doc.package ∧ schema.tokenVocab = doc.tokenVocab ∧
        schema.runtime = doc.runtime.getD defaultRuntime ∧
        schema.rules.map (·.toDocument) = doc.rules.map (·.completed) := by
    simp [Schema.toDocument, completed]
  rw [spelled]
  simp only [toSchema, bind_eq_ok_iff, pure_eq_ok_iff]
  constructor
  · intro ⟨rules, h, same⟩
    cases same
    obtain ⟨cased, same⟩ := read.mp h
    exact ⟨cased, rfl, rfl, rfl, same⟩
  · intro ⟨cased, package, tokenVocab, runtime, rules⟩
    refine ⟨schema.rules, read.mpr ⟨cased, rules⟩, ?_⟩
    rw [← package, ← tokenVocab, ← runtime]

/-- A document gives a schema exactly if all of its entries have the form of a rule, and otherwise
the first one that has not is told. What a document gives spells that document out, and a schema
comes back from what spells it out exactly if the names of its kinds, and no others, have
capitals. -/
theorem toSchema_faithful (doc : SchemaDocument) (schema : Schema) :
    ((∃ given, doc.toSchema = .ok given) ↔ ∀ rule ∈ doc.rules, rule.WellShaped) ∧
    (∀ malformed, doc.toSchema = .error malformed ↔
      ∃ before rule after, doc.rules = before ++ rule :: after ∧
        (∀ earlier ∈ before, earlier.WellShaped) ∧ ¬ rule.WellShaped ∧
        malformed.rule = rule.name ∧ rule.Flaw malformed.reason) ∧
    (doc.toSchema = .ok schema ↔ schema.Cased ∧ schema.toDocument = doc.completed) ∧
    (schema.toDocument.toSchema = .ok schema ↔ schema.Cased) := by
  refine ⟨exists_toSchema_iff, fun malformed => ?_, toSchema_eq_ok_iff, ?_⟩
  · rw [toSchema_eq_error_iff]
    constructor
    · intro ⟨before, rule, after, split, earlier, named, flaw⟩
      exact ⟨before, rule, after, split, earlier, flaw.not_wellShaped, named, flaw⟩
    · intro ⟨before, rule, after, split, earlier, _, named, flaw⟩
      exact ⟨before, rule, after, split, earlier, named, flaw⟩
  · rw [toSchema_eq_ok_iff, schema.completed_toDocument]
    exact and_iff_left rfl

example : toSchema ⟨["demo"], [], none,
      [⟨"a", some "A", [], none⟩, ⟨"b", some "B", [], some ["a"]⟩, ⟨"c", none, [], none⟩]⟩ =
    .error ⟨"b", .mixedForms⟩ := by
  rfl

end SchemaDocument

end TreeShape
