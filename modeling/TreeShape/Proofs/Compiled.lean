import TreeShape.Proofs.Acyclic
import TreeShape.Proofs.Ancestors
import TreeShape.Proofs.Check
import TreeShape.Proofs.Layout
import TreeShape.Shapes.Basic

/-!
What is known of shapes that were compiled: names tell rules apart, every plan is the resolved form
of its rule, ancestry goes from an alternative to the choices that list it, and handing on goes down
in rank.
-/

namespace TreeShape

namespace Schema

variable {name : String} {rules : List Rule}

theorem name_of_positionIn {position : Fin rules.length}
    (h : positionIn name rules = some position) : (rules.get position).name = name := by
  induction rules with
  | nil => cases h
  | cons rule rest ih =>
      simp only [positionIn] at h
      split at h
      · next he => cases h; exact he
      · obtain ⟨before, hb, rfl⟩ := Option.map_eq_some_iff.mp h
        exact ih hb

theorem positionIn_get (distinct : (rules.map (·.name)).Nodup) (position : Fin rules.length) :
    positionIn (rules.get position).name rules = some position := by
  induction rules with
  | nil => exact position.elim0
  | cons rule rest ih =>
      obtain ⟨single, distinct⟩ := List.nodup_cons.mp distinct
      cases position using Fin.cases with
      | zero => exact if_pos rfl
      | succ position =>
          have hne : rule.name ≠ (rest.get position).name := by
            intro he
            exact single (List.mem_map.mpr ⟨_, List.get_mem rest position, he.symm⟩)
          change (if rule.name = (rest.get position).name then _ else
            (positionIn (rest.get position).name rest).map Fin.succ) = _
          rw [if_neg hne, ih distinct position]
          rfl

/-- Both ways to look a rule up by its name agree. -/
theorem find?_eq_map_positionIn (name : String) (rules : List Rule) :
    rules.find? (·.name == name) = (positionIn name rules).map rules.get := by
  induction rules with
  | nil => rfl
  | cons rule rest ih =>
      simp only [positionIn, List.find?_cons]
      by_cases h : rule.name = name
      · simp [h]
      · simp only [beq_false_of_ne h, ih, if_neg h, Option.map_map]
        rfl

end Schema

/-- The rule that reads what a step takes. -/
def Step.rule? {n : Nat} : Step n → Option (Fin n)
  | .child _ (.rule id) _ => some id
  | .child _ (.token _) _ | .text _ _ => none

namespace Plan

variable {n : Nat}

/-- The rules that a node is handed on to as it is. -/
def successors : Plan n → List (Fin n)
  | shape _ _ => []
  | delegate target => [target]
  | choice alternatives => alternatives

/-- Every position that a plan holds. -/
def references : Plan n → List (Fin n)
  | shape _ steps => steps.filterMap Step.rule?
  | delegate target => [target]
  | choice alternatives => alternatives

end Plan

namespace Shapes

variable (s : Shapes)

/-- A step is what an item resolves to. -/
inductive Resolves : Item → Step s.size → Prop
  | text {item : Item} : item.target = .text →
      Resolves item (.text item.field (item.quantifier == .optional))
  | token {item : Item} {kind : String} : item.target = .token kind →
      Resolves item (.child item.field (.token kind) item.quantifier)
  | rule {item : Item} {id : s.Id} : item.target = .rule (s.name id) →
      Resolves item (.child item.field (.rule id) item.quantifier)

/-- A plan is what the form of a rule resolves to. -/
inductive Planned : RuleForm → Plan s.size → Prop
  | choice {alternatives : List s.Id} :
      Planned (.alternatives (alternatives.map s.name)) (.choice alternatives)
  | delegate {body : Body} {target : s.Id} :
      body.delegates = true → body.root = s.name target → Planned (.leaf body) (.delegate target)
  | shape {body : Body} {steps : List (Step s.size)} :
      body.delegates = false → List.Forall₂ s.Resolves body.items steps →
      Planned (.leaf body) (.shape body.root steps)

/-- The rule has this body, and does not hand on. -/
def HasBody (id : s.Id) (body : Body) : Prop :=
  (s.rule id).form = .leaf body ∧ body.delegates = false

def Delegates (id : s.Id) : Prop :=
  ∃ body, (s.rule id).form = .leaf body ∧ body.delegates = true

/-- Shapes as compiling leaves them. -/
structure Lawful : Prop where
  checked : s.schema.check = .ok ()
  resolved : Ancestry.resolve s.schema.rules = .ok s.ancestry
  lowered : ∀ id, (s.rule id).lower s.schema.position? = .ok (s.plan id)

variable {s}

private theorem lower_get {n : Nat} {position? : String → Option (Fin n)} {rules : List Rule}
    {lowered : { plans : List (Plan n) // plans.length = rules.length }}
    (h : lowerRules position? rules = .ok lowered) (position : Fin rules.length) :
    (rules.get position).lower position? =
      .ok (lowered.1.get (position.cast lowered.2.symm)) := by
  induction rules with
  | nil => exact position.elim0
  | cons rule rest ih =>
      simp only [lowerRules, bind_eq_ok_iff] at h
      obtain ⟨plan, hp, tail, ht, h⟩ := h
      cases pure_eq_ok_iff.mp h
      cases position using Fin.cases with
      | zero => exact hp
      | succ position => exact ih ht position

theorem lawful_of_compile {schema : Schema} (h : compile schema = .ok s) :
    s.schema = schema ∧ s.Lawful := by
  simp only [compile, bind_eq_ok_iff] at h
  obtain ⟨_, checked, ancestry, resolved, lowered, hl, h⟩ := h
  cases pure_eq_ok_iff.mp h
  exact ⟨rfl, checked, resolved, fun id => lower_get hl id⟩

private theorem name_of_resolveName {position? : String → Option s.Id} {name : String}
    {fault : Fault} {id : s.Id} (hp : ∀ {name id}, position? name = some id → s.name id = name)
    (h : resolveName position? name fault = .ok id) : name = s.name id := by
  unfold resolveName at h
  split at h
  · next found => cases h; exact (hp found).symm
  · cases h

theorem mem_names_iff {name : String} :
    name ∈ s.schema.names ↔ ∃ id : s.Id, s.name id = name := by
  rw [Schema.names, List.mem_map]
  constructor
  · rintro ⟨rule, hr, rfl⟩
    obtain ⟨id, rfl⟩ := List.mem_iff_get.mp hr
    exact ⟨id, rfl⟩
  · rintro ⟨id, rfl⟩
    exact ⟨_, List.get_mem _ id, rfl⟩

theorem Resolves.capturesText_eq {item : Item} {step : Step s.size} (h : s.Resolves item step) :
    item.capturesText = step.capturesText := by
  cases h with
  | text target | token target | rule target => simp [Item.capturesText, target, Step.capturesText]

theorem Resolves.field_eq {item : Item} {step : Step s.size} (h : s.Resolves item step) :
    item.field = step.field := by
  cases h <;> rfl

theorem Resolves.quantifier_eq {item : Item} {field : String} {accept : Accept s.size}
    {quantifier : Quantifier} (h : s.Resolves item (.child field accept quantifier)) :
    quantifier = item.quantifier := by
  cases h <;> rfl

theorem Resolves.optional_eq {item : Item} {field : String} {optional : Bool}
    (h : s.Resolves item (.text field optional)) :
    optional = (item.quantifier == .optional) := by
  cases h
  rfl

theorem Resolves.target_eq_text {item : Item} {field : String} {optional : Bool}
    (h : s.Resolves item (.text field optional)) : item.target = .text := by
  cases h with
  | text target => exact target

theorem Resolves.target_ne_text {item : Item} {field : String} {accept : Accept s.size}
    {quantifier : Quantifier} (h : s.Resolves item (.child field accept quantifier)) :
    item.target ≠ .text := by
  cases h with
  | token target | rule target => simp [target]

theorem Resolves.exists_accept {item : Item} {step : Step s.size} (h : s.Resolves item step)
    (target : item.target ≠ .text) :
    ∃ accept, step = .child item.field accept item.quantifier := by
  cases h with
  | text ht => exact absurd ht target
  | token _ | rule _ => exact ⟨_, rfl⟩

theorem map_capturesText_eq {items : List Item} {steps : List (Step s.size)}
    (h : List.Forall₂ s.Resolves items steps) :
    items.map (·.capturesText) = steps.map (·.capturesText) := by
  rw [← List.forall₂_eq_eq_eq, List.forall₂_map_left_iff, List.forall₂_map_right_iff]
  exact h.imp fun _ _ => Resolves.capturesText_eq

theorem map_field_eq {items : List Item} {steps : List (Step s.size)}
    (h : List.Forall₂ s.Resolves items steps) :
    items.map (·.field) = steps.map (·.field) := by
  rw [← List.forall₂_eq_eq_eq, List.forall₂_map_left_iff, List.forall₂_map_right_iff]
  exact h.imp fun _ _ => Resolves.field_eq

theorem any_capturesText_eq {items : List Item} {steps : List (Step s.size)}
    (h : List.Forall₂ s.Resolves items steps) :
    steps.any (·.capturesText) = items.any (·.capturesText) := by
  simpa [List.any_map, Function.comp_def] using
    congrArg (List.any · (· == true)) (map_capturesText_eq h).symm

namespace Lawful

variable (lawful : s.Lawful)
include lawful

theorem names_nodup : s.schema.names.Nodup := by
  have h := (Schema.check_eq_ok_iff.mp lawful.checked).1
  exact (checkNames_eq_ok_iff.mp h).2

theorem checkRule (id : s.Id) : checkRule s.schema.names (s.rule id) = .ok () :=
  (Schema.check_eq_ok_iff.mp lawful.checked).2.1 _ (List.get_mem _ _)

theorem find?_eq_some_iff {name : String} {id : s.Id} :
    s.find? name = some id ↔ s.name id = name := by
  constructor
  · exact Schema.name_of_positionIn
  · rintro rfl
    exact Schema.positionIn_get lawful.names_nodup id

theorem name_injective : Function.Injective s.name := by
  intro a b h
  have ha := lawful.find?_eq_some_iff.mpr (rfl : s.name a = s.name a)
  have hb := lawful.find?_eq_some_iff.mpr h.symm
  exact Option.some.inj (ha.symm.trans hb)

theorem eq_rule_of_mem {rule : Rule} {id : s.Id} (hr : rule ∈ s.schema.rules)
    (hn : s.name id = rule.name) : rule = s.rule id := by
  obtain ⟨other, rfl⟩ := List.mem_iff_get.mp hr
  rw [lawful.name_injective hn]
  rfl

theorem planned (id : s.Id) : s.Planned (s.rule id).form (s.plan id) := by
  have h := lawful.lowered id
  have named : ∀ {name id}, s.schema.position? name = some id → s.name id = name :=
    lawful.find?_eq_some_iff.mp
  unfold Rule.lower at h
  split at h
  · next names form =>
    simp only [bind_eq_ok_iff, mapM_eq_ok_iff] at h
    obtain ⟨alternatives, ha, h⟩ := h
    rw [form, ← pure_eq_ok_iff.mp h]
    have : names = alternatives.map s.name := by
      rw [← List.forall₂_eq_eq_eq, List.forall₂_map_right_iff]
      exact ha.imp fun _ _ => name_of_resolveName named
    exact this ▸ .choice
  · next body form =>
    rw [form]
    split at h
    · next delegates =>
      simp only [bind_eq_ok_iff] at h
      obtain ⟨target, ht, h⟩ := h
      rw [← pure_eq_ok_iff.mp h]
      exact .delegate delegates (name_of_resolveName named ht)
    · next direct =>
      simp only [bind_eq_ok_iff, mapM_eq_ok_iff] at h
      obtain ⟨steps, hs, h⟩ := h
      rw [← pure_eq_ok_iff.mp h]
      refine .shape (by simpa using direct) (hs.imp fun item step hi => ?_)
      unfold Item.lower at hi
      split at hi
      · next target => cases hi; exact .text target
      · next kind target => cases hi; exact .token target
      · next name target =>
        simp only [bind_eq_ok_iff] at hi
        obtain ⟨id, hid, hi⟩ := hi
        rw [← pure_eq_ok_iff.mp hi]
        exact .rule (name_of_resolveName named hid ▸ target)

/-- The body behind a plan that does not hand on. -/
theorem body_of_shape {id : s.Id} {root : String} {steps : List (Step s.size)}
    (hp : s.plan id = .shape root steps) :
    ∃ body, s.HasBody id body ∧ body.root = root ∧
      List.Forall₂ s.Resolves body.items steps := by
  have h := lawful.planned id
  rw [hp] at h
  generalize hf : (s.rule id).form = form at h
  cases h with
  | @shape body _ direct resolves => exact ⟨body, ⟨hf, direct⟩, rfl, resolves⟩

theorem body_of_delegate {id target : s.Id} (hp : s.plan id = .delegate target) :
    ∃ body, (s.rule id).form = .leaf body ∧ body.delegates = true ∧
      body.root = s.name target := by
  have h := lawful.planned id
  rw [hp] at h
  generalize (s.rule id).form = form at h
  cases h with
  | @delegate body _ delegates root => exact ⟨body, rfl, delegates, root⟩

theorem shape_of_body {id : s.Id} {body : Body} (has : s.HasBody id body) :
    ∃ steps, s.plan id = .shape body.root steps ∧ List.Forall₂ s.Resolves body.items steps := by
  have h := lawful.planned id
  rw [has.1] at h
  generalize s.plan id = plan at h
  cases h with
  | shape _ resolves => exact ⟨_, rfl, resolves⟩
  | delegate delegates _ => simp [has.2] at delegates

theorem delegate_of_body {id : s.Id} {body : Body} (form : (s.rule id).form = .leaf body)
    (delegates : body.delegates = true) :
    ∃ target, s.plan id = .delegate target ∧ body.root = s.name target := by
  have h := lawful.planned id
  rw [form] at h
  generalize s.plan id = plan at h
  cases h with
  | delegate _ root => exact ⟨_, rfl, root⟩
  | shape direct _ => simp [delegates] at direct

theorem form_of_choice {id : s.Id} {alternatives : List s.Id}
    (hp : s.plan id = .choice alternatives) :
    (s.rule id).form = .alternatives (alternatives.map s.name) := by
  have h := lawful.planned id
  rw [hp] at h
  generalize (s.rule id).form = form at h
  cases h
  rfl

theorem isChoice_of_leaf {id : s.Id} {body : Body} (form : (s.rule id).form = .leaf body) :
    (s.plan id).isChoice = false := by
  have h := lawful.planned id
  rw [form] at h
  generalize s.plan id = plan at h
  cases h <;> rfl

theorem choice_of_alternatives {id : s.Id} {names : List String}
    (form : (s.rule id).form = .alternatives names) :
    ∃ alternatives, s.plan id = .choice alternatives := by
  have h := lawful.planned id
  rw [form] at h
  generalize s.plan id = plan at h
  cases h
  exact ⟨_, rfl⟩

theorem items_nodup {id : s.Id} {body : Body} (has : s.HasBody id body) :
    (body.items.map (·.field)).Nodup := by
  have checked := Rule.checkItems_of_checkRule (lawful.checkRule id) has.1 has.2
  exact (checkItems_eq_ok_iff.mp checked).2.1

/-- At most one step of a plan captures text. -/
theorem countP_capturesText_le {id : s.Id} {root : String} {steps : List (Step s.size)}
    (hp : s.plan id = .shape root steps) : steps.countP (·.capturesText) ≤ 1 := by
  obtain ⟨body, ⟨form, direct⟩, _, resolves⟩ := lawful.body_of_shape hp
  have checked := Rule.checkItems_of_checkRule (lawful.checkRule id) form direct
  have single := (checkItems_eq_ok_iff.mp checked).2.2
  have same : body.items.map (·.capturesText) = steps.map (·.capturesText) :=
    map_capturesText_eq resolves
  have count : body.items.countP (·.capturesText) = steps.countP (·.capturesText) := by
    simpa [List.countP_map, Function.comp_def] using congrArg (List.countP (· == true)) same
  simpa [count] using single

theorem successors_eq (id : s.Id) :
    (s.rule id).successors = (s.plan id).successors.map s.name := by
  have h := lawful.planned id
  generalize s.plan id = plan at h
  unfold Rule.successors
  generalize (s.rule id).form = form at h
  cases h with
  | choice => rfl
  | delegate delegates root => simp [delegates, root, Plan.successors]
  | shape direct _ => simp [direct, Plan.successors]

theorem rule?_name (id : s.Id) : s.schema.rule? (s.name id) = some (s.rule id) := by
  have h : Schema.positionIn (s.name id) s.schema.rules = some id :=
    Schema.positionIn_get lawful.names_nodup id
  rw [Schema.rule?, Schema.find?_eq_map_positionIn, h]
  rfl

theorem schema_successors_name (id : s.Id) :
    s.schema.successors (s.name id) = (s.plan id).successors.map s.name := by
  rw [Schema.successors, lawful.rule?_name, ← lawful.successors_eq id]
  rfl

/-- Handing on goes down in rank, so no rule hands on to itself, however many are in between. -/
theorem exists_rank : ∃ rank : s.Id → Nat, (∀ id, rank id < s.size) ∧
    ∀ id, ∀ next ∈ (s.plan id).successors, rank next < rank id := by
  have closed : ∀ name ∈ s.schema.names, s.schema.successors name ⊆ s.schema.names := by
    intro name h
    obtain ⟨id, rfl⟩ := mem_names_iff.mp h
    rw [lawful.schema_successors_name, ← lawful.successors_eq]
    exact Rule.successors_subset (lawful.checkRule id)
  obtain ⟨rank, hrank⟩ :=
    s.schema.exists_rank closed (Schema.check_eq_ok_iff.mp lawful.checked).2.2
  refine ⟨fun id => rank (s.name id), fun id => ?_, fun id next hn => ?_⟩
  · exact (hrank _ (mem_names_iff.mpr ⟨id, rfl⟩)).1
  · apply (hrank _ (mem_names_iff.mpr ⟨id, rfl⟩)).2
    rw [lawful.schema_successors_name]
    exact List.mem_map_of_mem hn

theorem mem_alternatives_iff {id : s.Id} {name : String} :
    name ∈ (s.rule id).alternatives ↔ ∃ alternatives alternative,
      s.plan id = .choice alternatives ∧ alternative ∈ alternatives ∧
        s.name alternative = name := by
  have h := lawful.planned id
  unfold Rule.alternatives
  generalize (s.rule id).form = form at h
  generalize s.plan id = plan at h
  cases h with
  | choice => simp
  | delegate _ _ | shape _ _ => simp

theorem listed_iff_mem {name lister : String} :
    s.ancestry.Listed name lister ↔
      ∃ rule ∈ s.schema.rules, rule.name = lister ∧ name ∈ rule.alternatives :=
  Ancestry.listed_iff_of_resolve lawful.resolved

/-- A name is listed by the choices between rules of which one has that name. -/
theorem listed_iff {name lister : String} :
    s.ancestry.Listed name lister ↔ ∃ id alternatives alternative, s.name id = lister ∧
      s.plan id = .choice alternatives ∧ alternative ∈ alternatives ∧
      s.name alternative = name := by
  rw [lawful.listed_iff_mem]
  constructor
  · intro ⟨rule, hr, hn, ha⟩
    obtain ⟨id, rfl⟩ := List.mem_iff_get.mp hr
    obtain ⟨alternatives, alternative, h⟩ := lawful.mem_alternatives_iff.mp ha
    exact ⟨id, alternatives, alternative, hn, h⟩
  · intro ⟨id, alternatives, alternative, hn, h⟩
    have ha := lawful.mem_alternatives_iff.mpr ⟨alternatives, alternative, h⟩
    exact ⟨s.rule id, List.get_mem _ _, hn, ha⟩

end Lawful
end Shapes

/-- Statements and expressions of a small language, with a rule for every form of plan. -/
def statements : Schema where
  package := ["demo", "ast"]
  tokenVocab := ["tokens"]
  runtime := "runtime"
  rules :=
    [⟨"stmt", .alternatives ["ifStmt", "block"]⟩,
     ⟨"expr", .alternatives ["ident", "paren"]⟩,
     ⟨"ifStmt", .leaf ⟨"IF", [.of "cond" (.rule "expr") .one, .of "body" (.rule "stmt") .oneOrMore,
       .of "mark" (.token "ELSE") .optional]⟩⟩,
     ⟨"block", .leaf ⟨"BLOCK", [.of "items" (.rule "stmt") .zeroOrMore]⟩⟩,
     ⟨"ident", .leaf ⟨"IDENT", [.of "name" .text .one]⟩⟩,
     ⟨"paren", .leaf ⟨"group", []⟩⟩,
     ⟨"group", .leaf ⟨"PAREN", [.of "note" .text .optional, .of "expr" (.rule "expr") .one]⟩⟩]

def statementPlans : List (Plan 7) :=
  [.choice [2, 3],
   .choice [4, 5],
   .shape "IF" [.child "cond" (.rule 1) .one, .child "body" (.rule 0) .oneOrMore,
     .child "mark" (.token "ELSE") .optional],
   .shape "BLOCK" [.child "items" (.rule 0) .zeroOrMore],
   .shape "IDENT" [.text "name" false],
   .delegate 6,
   .shape "PAREN" [.text "note" true, .child "expr" (.rule 1) .one]]

def statementShapes : Shapes where
  schema := statements
  ancestry := ⟨[("ifStmt", "stmt"), ("block", "stmt"), ("ident", "expr"), ("paren", "expr")]⟩
  plans := statementPlans
  length_plans := rfl

theorem compile_statements : Shapes.compile statements = .ok statementShapes := by
  rfl

end TreeShape
