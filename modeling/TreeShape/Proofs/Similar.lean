import TreeShape.Proofs.Compiled
import TreeShape.Proofs.Intake
import TreeShape.Shapes.Construct
import TreeShape.Shapes.Parse

/-!
The same rules at other positions, be it in other shapes. Rules at related positions accept the same
kinds, read the same nodes and make the same ones, since nothing but the plans and the names is ever
looked up by position.
-/

namespace TreeShape

section

variable {n m : Nat} (related : Fin n → Fin m → Prop)

inductive Accept.Related : Accept n → Accept m → Prop
  | token (kind : String) : Related (.token kind) (.token kind)
  | rule {id : Fin n} {id' : Fin m} : related id id' → Related (.rule id) (.rule id')

inductive Step.Related : Step n → Step m → Prop
  | text (field : String) (optional : Bool) : Related (.text field optional) (.text field optional)
  | child (field : String) (quantifier : Quantifier) {accept : Accept n} {accept' : Accept m} :
      Accept.Related related accept accept' →
      Related (.child field accept quantifier) (.child field accept' quantifier)

inductive Plan.Related : Plan n → Plan m → Prop
  | shape (root : String) {steps : List (Step n)} {steps' : List (Step m)} :
      List.Forall₂ (Step.Related related) steps steps' →
      Related (.shape root steps) (.shape root steps')
  | delegate {target : Fin n} {target' : Fin m} : related target target' →
      Related (.delegate target) (.delegate target')
  | choice {alternatives : List (Fin n)} {alternatives' : List (Fin m)} :
      List.Forall₂ related alternatives alternatives' →
      Related (.choice alternatives) (.choice alternatives')

variable {related}

theorem Step.Related.field_eq {step : Step n} {step' : Step m}
    (h : Step.Related related step step') : step'.field = step.field := by
  cases h <;> rfl

theorem Step.Related.repeats_eq {step : Step n} {step' : Step m}
    (h : Step.Related related step step') : step'.repeats = step.repeats := by
  cases h <;> rfl

theorem Plan.Related.isChoice_eq {plan : Plan n} {plan' : Plan m}
    (h : Plan.Related related plan plan') : plan'.isChoice = plan.isChoice := by
  cases h <;> rfl

theorem Step.Related.refl {related : Fin n → Fin n → Prop} (step : Step n)
    (same : ∀ id, step.rule? = some id → related id id) : Step.Related related step step := by
  cases step with
  | text field optional => exact .text field optional
  | child field accept quantifier =>
      cases accept with
      | token kind => exact .child field quantifier (.token kind)
      | rule id => exact .child field quantifier (.rule (same id rfl))

theorem Plan.Related.refl {related : Fin n → Fin n → Prop} (same : ∀ id, related id id)
    (plan : Plan n) : Plan.Related related plan plan := by
  cases plan with
  | shape root steps =>
      exact .shape root (List.forall₂_same.mpr fun step _ => .refl step fun id _ => same id)
  | delegate target => exact .delegate (same target)
  | choice alternatives => exact .choice (List.forall₂_same.mpr fun id _ => same id)

private theorem any_eq_of_forall₂ {ids : List (Fin n)} {ids' : List (Fin m)} {p : Fin n → Bool}
    {p' : Fin m → Bool} (h : List.Forall₂ related ids ids')
    (same : ∀ id ∈ ids, ∀ id', related id id' → p' id' = p id) : ids'.any p' = ids.any p := by
  induction h with
  | nil => rfl
  | cons first _ ih =>
      rw [List.any_cons, List.any_cons, same _ List.mem_cons_self _ first,
        ih fun id hi => same id (List.mem_cons_of_mem _ hi)]

private theorem find?_of_forall₂ {ids : List (Fin n)} {ids' : List (Fin m)} {p : Fin n → Bool}
    {p' : Fin m → Bool} (h : List.Forall₂ related ids ids')
    (same : ∀ id ∈ ids, ∀ id', related id id' → p' id' = p id) :
    ids.find? p = none ∧ ids'.find? p' = none ∨
      ∃ id ∈ ids, ∃ id', ids.find? p = some id ∧ ids'.find? p' = some id' ∧ related id id' := by
  induction h with
  | nil => exact .inl ⟨rfl, rfl⟩
  | @cons id id' ids ids' first _ ih =>
      have head := same id List.mem_cons_self id' first
      by_cases hp : p id = true
      · refine .inr ⟨id, List.mem_cons_self, id', ?_, ?_, first⟩
        · exact List.find?_cons_of_pos hp
        · exact List.find?_cons_of_pos (head.trans hp)
      · have hp' : ¬ p' id' = true := by rwa [head]
        rw [List.find?_cons_of_neg hp, List.find?_cons_of_neg hp']
        obtain none | ⟨found, hf, some⟩ := ih fun id hi => same id (List.mem_cons_of_mem _ hi)
        · exact .inl none
        · exact .inr ⟨found, List.mem_cons_of_mem _ hf, some⟩

end

namespace Shapes

variable {s s' : Shapes}

/-- Rules of `s` are found again in `s'`, with all that they refer to. -/
structure Similar (s s' : Shapes) (related : s.Id → s'.Id → Prop) : Prop where
  size_le : s.size ≤ s'.size
  name : ∀ {id id'}, related id id' → s'.name id' = s.name id
  plan : ∀ {id id'}, related id id' → Plan.Related related (s.plan id) (s'.plan id')

theorem Similar.refl (s : Shapes) : Similar s s Eq where
  size_le := Nat.le_refl _
  name h := h ▸ rfl
  plan h := h ▸ .refl (fun _ => rfl) _

/-- Rules that test, read and make nodes in the same way. -/
structure ActsAlike (s s' : Shapes) (id : s.Id) (id' : s'.Id) : Prop where
  canParse : ∀ tree, s'.canParse id' tree = s.canParse id tree
  parse : ∀ tree, s'.parse tree id' = s.parse tree id
  construct : ∀ values, s'.construct id' values = s.construct id values

/-- The same child, which related rules read as the same node. -/
def SameChild (related : s.Id → s'.Id → Prop) (child : s.Child) (child' : s'.Child) : Prop :=
  child'.tree = child.tree ∧ ∀ {id id'}, related id id' → child'.read id' = child.read id

theorem zipWith_fieldOf_eq {related : s.Id → s'.Id → Prop} {steps : List (Step s.size)}
    {steps' : List (Step s'.size)} (h : List.Forall₂ (Step.Related related) steps steps')
    (values : List FieldValue) :
    List.zipWith s'.fieldOf steps' values = List.zipWith s.fieldOf steps values := by
  induction h generalizing values with
  | nil => rfl
  | cons first _ ih =>
      cases values with
      | nil => rfl
      | cons value values =>
          rw [List.zipWith_cons_cons, List.zipWith_cons_cons, ih values]
          cases value <;> simp only [fieldOf, first.field_eq, first.repeats_eq]

theorem readings_same {related : s.Id → s'.Id → Prop} {trees : List Tree}
    (h : ∀ tree ∈ trees, ∀ {id id'}, related id id' → s'.parse tree id' = s.parse tree id) :
    List.Forall₂ (SameChild related) (s.readings trees) (s'.readings trees) := by
  induction trees with
  | nil =>
      rw [readings, readings]
      exact .nil
  | cons tree rest ih =>
      rw [readings, readings]
      refine .cons ⟨rfl, h tree List.mem_cons_self⟩ (ih ?_)
      exact fun tree ht => h tree (List.mem_cons_of_mem _ ht)

section

variable {related : s.Id → s'.Id → Prop}
  (same : ∀ {id id'}, related id id' → ∀ kind, s'.accepts id' kind = s.accepts id kind)
include same

private theorem intake_alike {accept : Accept s.size} {accept' : Accept s'.size}
    (h : Accept.Related related accept accept') :
    Intake.Alike (SameChild related) (s.intake accept) (s'.intake accept') := by
  cases h with
  | token kind =>
      refine ⟨?_, ?_, ?_⟩
      all_goals intro child child' hc; simp [intake, hc.1]
  | rule h =>
      refine ⟨?_, ?_, ?_⟩
      all_goals intro child child' hc
      · simp [intake, hc.1]
      · simp [intake, canParse, hc.1, same h]
      · simp [intake, hc.2 h]

private theorem takeStep_agree (rule : String) (text : Option String) {rest : List s.Child}
    {rest' : List s'.Child} {step : Step s.size} {step' : Step s'.size}
    (h : Step.Related related step step') (hr : List.Forall₂ (SameChild related) rest rest') :
    Intake.Agree (SameChild related) (s.takeStep rule text rest step)
      (s'.takeStep rule text rest' step') := by
  cases h with
  | text field optional =>
      cases optional with
      | true => exact .ok _ hr
      | false =>
          cases text with
          | none => exact .error _
          | some text => exact .ok _ hr
  | child field quantifier h =>
      have alike := intake_alike same h
      cases quantifier with
      | one => exact (alike.takeOne hr).bind fun _ _ _ hr => .ok _ hr
      | optional => exact (alike.takeOptional hr).bind fun _ _ _ hr => .ok _ hr
      | zeroOrMore => exact (alike.takeMany hr).bind fun _ _ _ hr => .ok _ hr
      | oneOrMore => exact (alike.takeAtLeastOne hr).bind fun _ _ _ hr => .ok _ hr

theorem takeSteps_agree (rule : String) (text : Option String) {rest : List s.Child}
    {rest' : List s'.Child} {steps : List (Step s.size)} {steps' : List (Step s'.size)}
    (h : List.Forall₂ (Step.Related related) steps steps')
    (hr : List.Forall₂ (SameChild related) rest rest') :
    Intake.Agree (SameChild related) (s.takeSteps rule text steps rest)
      (s'.takeSteps rule text steps' rest') := by
  induction h generalizing rest rest' with
  | nil => exact .ok [] hr
  | cons first _ ih =>
      simp only [takeSteps, first.field_eq]
      refine (takeStep_agree same rule text first hr).bind fun value _ _ hr => ?_
      exact (ih hr).bind fun fields _ _ hr => .ok _ hr

end

namespace Similar

variable {related : s.Id → s'.Id → Prop} (similar : Similar s s' related)
include similar

theorem acceptsWithin_eq {rank : s.Id → Nat}
    (down : ∀ id, ∀ next ∈ (s.plan id).successors, rank next < rank id) {kind : String}
    {bound bound' : Nat} {id : s.Id} {id' : s'.Id} (h : related id id') (hb : rank id < bound)
    (hb' : rank id < bound') :
    s'.acceptsWithin kind bound' id' = s.acceptsWithin kind bound id := by
  induction bound generalizing bound' id id' with
  | zero => omega
  | succ bound ih =>
      obtain _ | bound' := bound'
      · omega
      have below := down id
      have plan := similar.plan h
      simp only [acceptsWithin]
      generalize s.plan id = p at plan below
      generalize s'.plan id' = p' at plan
      cases plan with
      | shape root steps => rfl
      | delegate target =>
          have := below _ List.mem_cons_self
          exact ih target (by omega) (by omega)
      | choice alternatives =>
          refine any_eq_of_forall₂ alternatives fun next hn next' hr => ?_
          have := below next hn
          exact ih hr (by omega) (by omega)

theorem construct_eq {id : s.Id} {id' : s'.Id} (h : related id id') (values : List FieldValue) :
    s'.construct id' values = s.construct id values := by
  have plan := similar.plan h
  simp only [construct, similar.name h]
  generalize s.plan id = p at plan
  generalize s'.plan id' = p' at plan
  cases plan with
  | choice alternatives | delegate target => rfl
  | shape root steps => simp only [steps.length_eq, zipWith_fieldOf_eq steps values]

variable (lawful : s.Lawful)
include lawful

theorem accepts_eq {id : s.Id} {id' : s'.Id} (h : related id id') (kind : String) :
    s'.accepts id' kind = s.accepts id kind := by
  obtain ⟨rank, bounded, down⟩ := lawful.exists_rank
  have := bounded id
  have := similar.size_le
  exact similar.acceptsWithin_eq down h (by omega) (by omega)

theorem parseWithin_eq {rank : s.Id → Nat}
    (down : ∀ id, ∀ next ∈ (s.plan id).successors, rank next < rank id) {kind : String}
    {text : Option String} {children : List s.Child} {children' : List s'.Child}
    (hc : List.Forall₂ (SameChild related) children children') {bound bound' : Nat} {id : s.Id}
    {id' : s'.Id} (h : related id id') (hb : rank id < bound) (hb' : rank id < bound') :
    s'.parseWithin kind text children' bound' id' = s.parseWithin kind text children bound id := by
  induction bound generalizing bound' id id' with
  | zero => omega
  | succ bound ih =>
      obtain _ | bound' := bound'
      · omega
      have below := down id
      have plan := similar.plan h
      simp only [parseWithin, similar.name h]
      generalize s.plan id = p at plan below
      generalize s'.plan id' = p' at plan
      cases plan with
      | shape root steps =>
          have taken := takeSteps_agree (similar.accepts_eq lawful) (s.name id) text steps hc
          by_cases hk : kind = root
          · simp only [if_pos hk]
            refine taken.bind_eq fun fields rest rest' hr => ?_
            dsimp only
            rw [Intake.finish_eq (fun h => congrArg Tree.kind h.1) hr]
          · simp only [if_neg hk]
      | delegate target =>
          have := below _ List.mem_cons_self
          simp only [ih target (show rank _ < bound by omega) (show rank _ < bound' by omega)]
      | choice alternatives =>
          dsimp only
          obtain ⟨none, none'⟩ | ⟨next, hn, next', found, found', hr⟩ :=
            find?_of_forall₂ alternatives fun next _ next' hr => similar.accepts_eq lawful hr kind
          · rw [none, none']
          · have := below next hn
            rw [found, found']
            exact ih hr (by omega) (by omega)

theorem parse_eq {id : s.Id} {id' : s'.Id} (h : related id id') (tree : Tree) :
    s'.parse tree id' = s.parse tree id := by
  induction tree using Tree.nested_induction generalizing id id' with
  | step kind text children ih =>
      obtain ⟨rank, bounded, down⟩ := lawful.exists_rank
      have := bounded id
      have := similar.size_le
      have same := readings_same fun tree ht _ _ hr => ih tree ht hr
      rw [parse, parse]
      exact similar.parseWithin_eq lawful down same h (by omega) (by omega)

theorem actsAlike {id : s.Id} {id' : s'.Id} (h : related id id') : ActsAlike s s' id id' where
  canParse tree := similar.accepts_eq lawful h tree.kind
  parse tree := similar.parse_eq lawful h tree
  construct values := similar.construct_eq h values

end Similar
end Shapes
end TreeShape
