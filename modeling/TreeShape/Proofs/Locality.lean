import TreeShape.Proofs.Emission
import TreeShape.Proofs.Tables

/-!
The file of a rule among other rules. It is settled by the rule itself, by which of the rules that
its values are of are choices, and by the rules that it may stand in for. So it is the same file in
all packages that agree on these, whatever else the rules are and wherever they are declared.
-/

namespace TreeShape

/-- Some rule of this name has alternatives. -/
def Schema.IsChoice (schema : Schema) (name : String) : Prop :=
  ∃ names, ⟨name, .alternatives names⟩ ∈ schema.rules

/-- The rules that values inside a node of a rule are of: those that its items or its delegation
name. -/
def Rule.holds (rule : Rule) : List String :=
  match rule.form with
  | .leaf _ => rule.references
  | .alternatives _ => []

section

variable {n m : Nat} {related stronger : Fin n → Fin m → Prop}

theorem Step.Related.imp {step : Step n} {step' : Step m} (h : Step.Related related step step')
    (imp : ∀ id, step.rule? = some id → ∀ id', related id id' → stronger id id') :
    Step.Related stronger step step' := by
  cases h with
  | text field optional => exact .text field optional
  | child field quantifier h =>
      cases h with
      | token kind => exact .child field quantifier (.token kind)
      | rule h => exact .child field quantifier (.rule (imp _ rfl _ h))

private theorem related_steps_imp {steps : List (Step n)} {steps' : List (Step m)}
    (h : List.Forall₂ (Step.Related related) steps steps')
    (imp : ∀ id ∈ steps.filterMap Step.rule?, ∀ id', related id id' → stronger id id') :
    List.Forall₂ (Step.Related stronger) steps steps' := by
  induction h with
  | nil => exact .nil
  | @cons step _ steps _ first _ ih =>
      have here : ∀ id, step.rule? = some id → id ∈ (step :: steps).filterMap Step.rule? :=
        fun id h => List.mem_filterMap.mpr ⟨step, List.mem_cons_self, h⟩
      have later : steps.filterMap Step.rule? ⊆ (step :: steps).filterMap Step.rule? :=
        List.filterMap_subset _ (List.subset_cons_self step steps)
      exact .cons (first.imp fun id h => imp id (here id h)) (ih fun id hi => imp id (later hi))

end

namespace Code

variable {s s' : Shapes}

theorem isChoice_iff (lawful : s.Lawful) (id : s.Id) :
    (s.plan id).isChoice = true ↔ s.schema.IsChoice (s.name id) := by
  constructor
  · intro h
    cases hp : s.plan id with
    | shape root steps | delegate target => simp [hp, Plan.isChoice] at h
    | choice alternatives =>
        refine ⟨alternatives.map s.name, ?_⟩
        rw [← lawful.form_of_choice hp]
        exact List.get_mem _ id
  · intro h
    obtain ⟨names, mem⟩ := h
    have form : (s.rule id).form = .alternatives names := by
      rw [← lawful.eq_rule_of_mem mem rfl]
    obtain ⟨alternatives, hp⟩ := lawful.choice_of_alternatives form
    rw [hp]
    rfl

theorem holds_eq_map (lawful : s.Lawful) {id : s.Id} (leaf : (s.plan id).isChoice = false) :
    (s.rule id).holds = (s.plan id).references.map s.name := by
  unfold Rule.holds
  cases form : (s.rule id).form with
  | leaf body => exact lawful.references_eq_map id
  | alternatives names =>
      obtain ⟨alternatives, hp⟩ := lawful.choice_of_alternatives form
      rw [hp] at leaf
      cases leaf

section

variable (lawful : s.Lawful) (lawful' : s'.Lawful) {id : s.Id} {id' : s'.Id}
include lawful lawful'

theorem spokenAlike_of_sameName (name : s'.name id' = s.name id)
    (same : s.schema.IsChoice (s.name id) ↔ s'.schema.IsChoice (s.name id)) :
    SpokenAlike s s' id id' := by
  refine ⟨name, Bool.eq_iff_iff.mpr ?_⟩
  rw [isChoice_iff lawful, isChoice_iff lawful', name]
  exact same.symm

/-- Names tell rules apart on both sides, so a rule speaks of itself on both or on none. -/
theorem eq_iff_of_spokenAlike (name : s'.name id' = s.name id) {target : s.Id} {target' : s'.Id}
    (h : SpokenAlike s s' target target') : target' = id' ↔ target = id := by
  constructor
  · intro same
    apply lawful.name_injective
    rw [← h.name, same, name]
  · intro same
    apply lawful'.name_injective
    rw [h.name, same, name]

theorem ruleLines_eq (same : s'.rule id' = s.rule id)
    (around : SameSurroundings s s' (s.name id))
    (held : ∀ name ∈ (s.rule id).holds, s.schema.IsChoice name ↔ s'.schema.IsChoice name) :
    ruleLines s' id' = ruleLines s id := by
  have name : s'.name id' = s.name id := congrArg Rule.name same
  have related : Plan.Related Shapes.SameName (s.plan id) (s'.plan id') :=
    (lawful.planned id).related (same ▸ lawful'.planned id')
  have spoken : (s.plan id).isChoice = false → ∀ target ∈ (s.plan id).references,
      ∀ target', Shapes.SameName target target' → SpokenAlike s s' target target' := by
    intro leaf target ht target' hn
    apply spokenAlike_of_sameName lawful lawful' hn
    apply held
    rw [holds_eq_map lawful leaf]
    exact List.mem_map_of_mem ht
  unfold ruleLines
  generalize s.plan id = plan at related spoken
  generalize s'.plan id' = plan' at related
  cases related with
  | shape root steps =>
      have steps := related_steps_imp steps (spoken rfl)
      exact shapeLines_eq (·) name around (eq_iff_of_spokenAlike lawful lawful' name) steps root
  | delegate target =>
      have alike := spoken rfl _ List.mem_cons_self _ target
      exact delegateLines_eq name around (eq_iff_of_spokenAlike lawful lawful' name alike) alike
  -- alternatives are spoken of by their names alone
  | choice alternatives =>
      exact capabilityUnitLines_eq name around (map_eq_of_forall₂ alternatives (·))

end

/-- The file of a rule in a package, which is at the place of the rule and alone has its name. -/
structure EmittedFor (s : Shapes) (files : List SourceUnit) (rule : String) (unit : SourceUnit) :
    Prop where
  placed : ∃ id, s.find? rule = some id ∧ files[id.val]? = some unit
  named : unit.name = unitName rule
  only : ∀ file ∈ files, file.name = unitName rule → file = unit

theorem emittedFor_ruleUnit (lawful : s.Lawful) {files : List SourceUnit}
    (emits : emit s = .ok files) (id : s.Id) : EmittedFor s files (s.name id) (ruleUnit s id) := by
  obtain ⟨checked, rfl⟩ := emit_eq_ok_iff.mp emits
  have distinct := nodup_map_name_units lawful ((checkClashes_eq_ok_iff lawful).mp checked)
  have place : (units s)[id.val]? = some (ruleUnit s id) := by
    rw [units, List.getElem?_append_left (by simp [Shapes.ids])]
    simp [Shapes.ids]
  refine ⟨⟨id, lawful.find?_eq_some_iff.mpr rfl, place⟩, rfl, fun file hf named => ?_⟩
  exact List.inj_on_of_nodup_map distinct hf (List.mem_of_getElem? place) named

/-- The file of a rule is the same in two packages with the same runtime and token vocabulary, if
the rule is the same, it may stand in for the same rules, and it speaks of choices as such in both
or in none. -/
theorem ruleUnit_frame {schema schema' : Schema} {s s' : Shapes} {files files' : List SourceUnit}
    (h : Shapes.compile schema = .ok s) (h' : Shapes.compile schema' = .ok s')
    (emits : emit s = .ok files) (emits' : emit s' = .ok files') {rule : Rule}
    (mem : rule ∈ schema.rules) (mem' : rule ∈ schema'.rules)
    (around : SameSurroundings s s' rule.name)
    (held : ∀ name ∈ rule.holds, schema.IsChoice name ↔ schema'.IsChoice name) :
    ∃ unit, EmittedFor s files rule.name unit ∧ EmittedFor s' files' rule.name unit := by
  obtain ⟨rfl, lawful⟩ := Shapes.lawful_of_compile h
  obtain ⟨rfl, lawful'⟩ := Shapes.lawful_of_compile h'
  obtain ⟨id, rfl⟩ := List.mem_iff_get.mp mem
  obtain ⟨id', same⟩ := List.mem_iff_get.mp mem'
  have same : s'.rule id' = s.rule id := same
  have name : s'.name id' = s.name id := congrArg Rule.name same
  have unit : ruleUnit s' id' = ruleUnit s id := by
    rw [ruleUnit, ruleUnit, name, ruleLines_eq lawful lawful' same around held]
  refine ⟨ruleUnit s id, emittedFor_ruleUnit lawful emits id, ?_⟩
  rw [← unit]
  have emitted := emittedFor_ruleUnit lawful' emits' id'
  rwa [name] at emitted

end Code

def ifRule : Rule :=
  ⟨"ifStmt", .leaf ⟨"IF", [.of "cond" (.rule "expr") .one, .of "body" (.rule "stmt") .oneOrMore,
    .of "mark" (.token "ELSE") .optional]⟩⟩

/-- The rule for conditionals among loops in place of blocks, and with other expressions. -/
def loopStatements : Schema :=
  { statements with
    package := ["loops"]
    rules :=
      [ifRule,
       ⟨"word", .leaf ⟨"WORD", [.of "text" .text .one]⟩⟩,
       ⟨"expr", .alternatives ["word"]⟩,
       ⟨"loop", .leaf ⟨"LOOP", [.of "times" (.rule "expr") .zeroOrMore]⟩⟩,
       ⟨"stmt", .alternatives ["loop", "ifStmt", "stop"]⟩,
       ⟨"stop", .leaf ⟨"STOP", []⟩⟩] }

def loopPlans : List (Plan 6) :=
  [.shape "IF" [.child "cond" (.rule 2) .one, .child "body" (.rule 4) .oneOrMore,
     .child "mark" (.token "ELSE") .optional],
   .shape "WORD" [.text "text" false],
   .choice [1],
   .shape "LOOP" [.child "times" (.rule 2) .zeroOrMore],
   .choice [3, 0, 5],
   .shape "STOP" []]

def loopShapes : Shapes where
  schema := loopStatements
  ancestry := ⟨[("word", "expr"), ("loop", "stmt"), ("ifStmt", "stmt"), ("stop", "stmt")]⟩
  plans := loopPlans
  length_plans := rfl

theorem compile_loopStatements : Shapes.compile loopStatements = .ok loopShapes := by
  rfl

theorem ruleUnit_frame_ifStmt :
    ∃ unit, Code.EmittedFor statementShapes (Code.units statementShapes) "ifStmt" unit ∧
      Code.EmittedFor loopShapes (Code.units loopShapes) "ifStmt" unit := by
  have held : ∀ name ∈ ifRule.holds, statements.IsChoice name ↔ loopStatements.IsChoice name := by
    intro name hn
    have hn : name ∈ ["expr", "stmt"] := hn
    obtain rfl | rfl : name = "expr" ∨ name = "stmt" := by simpa using hn
    · exact iff_of_true ⟨["ident", "paren"], by decide⟩ ⟨["word"], by decide⟩
    · exact iff_of_true ⟨["ifStmt", "block"], by decide⟩ ⟨["loop", "ifStmt", "stop"], by decide⟩
  exact Code.ruleUnit_frame compile_statements compile_loopStatements rfl rfl (by decide)
    (by decide) ⟨rfl, rfl, rfl, rfl⟩ held

end TreeShape
