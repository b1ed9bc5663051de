import TreeShape.Code.Package
import TreeShape.Proofs.Similar

/-!
Generated code and the positions of rules. The code of a rule speaks of other rules by their names,
and asks of them only whether they are choices, so it is the same text for the same rule at any
other position.
-/

namespace TreeShape.Code

variable {s s' : Shapes}

/-- Rules that code speaks of in the same way. -/
structure SpokenAlike (s s' : Shapes) (id : s.Id) (id' : s'.Id) : Prop where
  name : s'.name id' = s.name id
  isChoice : (s'.plan id').isChoice = (s.plan id).isChoice

/-- What goes into the file of a rule besides its plan. -/
structure SameSurroundings (s s' : Shapes) (rule : String) : Prop where
  runtime : s'.schema.runtime = s.schema.runtime
  tokenVocab : s'.schema.tokenVocab = s.schema.tokenVocab
  direct : s'.ancestry.direct rule = s.ancestry.direct rule
  transitive : s'.ancestry.transitive rule = s.ancestry.transitive rule

theorem useRuntime_eq {rule : String} (h : SameSurroundings s s' rule) :
    useRuntime s'.schema = useRuntime s.schema := by
  rw [useRuntime, useRuntime, h.runtime]

theorem useTokens_eq {rule : String} (h : SameSurroundings s s' rule) :
    useTokens s'.schema = useTokens s.schema := by
  have path : tokensPath s'.schema = tokensPath s.schema := by
    rw [tokensPath, tokensPath, h.tokenVocab]
  rw [useTokens, useTokens, path]

section

variable {id : s.Id} {id' : s'.Id} (name : s'.name id' = s.name id)
include name

theorem typeName_eq : typeName s' id' = typeName s id := by
  rw [typeName, typeName, name]

theorem testName_eq : testName s' id' = testName s id := by
  rw [testName, testName, name]

theorem parseName_eq : parseName s' id' = parseName s id := by
  rw [parseName, parseName, name]

theorem makeName_eq : makeName s' id' = makeName s id := by
  rw [makeName, makeName, name]

end

theorem ruleType_eq {id : s.Id} {id' : s'.Id} (h : SpokenAlike s s' id id') :
    ruleType s' id' = ruleType s id := by
  rw [ruleType, ruleType, typeName_eq h.name, h.isChoice]

section

variable {α β γ : Type} {relation : α → β → Prop} {xs : List α} {ys : List β}

theorem map_eq_of_forall₂ {f : α → γ} {g : β → γ} (h : List.Forall₂ relation xs ys)
    (same : ∀ {x y}, relation x y → g y = f x) : ys.map g = xs.map f := by
  induction h with
  | nil => rfl
  | cons first _ ih => rw [List.map_cons, List.map_cons, same first, ih]

private theorem flatMap_eq_of_forall₂ {f : α → List γ} {g : β → List γ}
    (h : List.Forall₂ relation xs ys) (same : ∀ {x y}, relation x y → g y = f x) :
    ys.flatMap g = xs.flatMap f := by
  rw [List.flatMap_def, List.flatMap_def, map_eq_of_forall₂ h same]

end

section

variable {related : s.Id → s'.Id → Prop} {step : Step s.size} {step' : Step s'.size}
  {accept : Accept s.size} {accept' : Accept s'.size} {steps : List (Step s.size)}
  {steps' : List (Step s'.size)}

theorem isAbsentable_eq (h : Step.Related related step step') :
    isAbsentable step' = isAbsentable step := by
  cases h <;> rfl

private theorem map_absentable_eq (h : List.Forall₂ (Step.Related related) steps steps') :
    (steps'.filter isAbsentable).map (·.field) = (steps.filter isAbsentable).map (·.field) := by
  induction h with
  | nil => rfl
  | @cons step _ _ _ first _ ih =>
      cases ha : isAbsentable step with
      | true => simp [isAbsentable_eq first, ha, first.field_eq, ih]
      | false => simp [isAbsentable_eq first, ha, ih]

theorem elementCode_eq (h : Accept.Related related accept accept')
    (rule field token node : String) :
    elementCode rule field token node accept' = elementCode rule field token node accept := by
  cases h <;> rfl

theorem unparseStep_eq (h : Step.Related related step step') (rule : String) :
    unparseStep rule step' = unparseStep rule step := by
  cases h with
  | text field optional => cases optional <;> rfl
  | child field quantifier h =>
      cases quantifier <;> simp only [unparseStep, pushBlock, elementCode_eq h]

theorem unparseBody_eq (h : List.Forall₂ (Step.Related related) steps steps')
    (rule root : String) : unparseBody rule root steps' = unparseBody rule root steps := by
  have lines := flatMap_eq_of_forall₂ h fun h => unparseStep_eq h rule
  cases h with
  | nil => rfl
  | cons first rest => simp only [unparseBody, lines]

variable (alike : ∀ {id id'}, related id id' → SpokenAlike s s' id id')
include alike

theorem valueType_eq (h : Accept.Related related accept accept') :
    valueType s' accept' = valueType s accept := by
  cases h with
  | token kind => rfl
  | rule h => exact ruleType_eq (alike h)

theorem fieldType_eq (h : Step.Related related step step') :
    fieldType s' step' = fieldType s step := by
  cases h with
  | text field optional => cases optional <;> rfl
  | child field quantifier h => cases quantifier <;> simp only [fieldType, valueType_eq alike h]

theorem describeTarget_eq (h : Accept.Related related accept accept') :
    describeTarget s' accept' = describeTarget s accept := by
  cases h with
  | token kind => rfl
  | rule h => rw [describeTarget, describeTarget, (alike h).name]

theorem describe_eq (h : Step.Related related step step') :
    describe s' step' = describe s step := by
  cases h with
  | text field optional => cases optional <;> rfl
  | child field quantifier h => cases quantifier <;> simp only [describe, describeTarget_eq alike h]

theorem fieldLines_eq (h : Step.Related related step step') :
    fieldLines s' step' = fieldLines s step := by
  rw [fieldLines, fieldLines, h.field_eq, describe_eq alike h, fieldType_eq alike h]

/-- A rule does not bring its own type into scope, and which rule that is stays the same. -/
theorem heldTypes_eq {id : s.Id} {id' : s'.Id}
    (self : ∀ {target target'}, related target target' → (target' = id' ↔ target = id))
    (h : List.Forall₂ (Step.Related related) steps steps') :
    heldTypes s' id' steps' = heldTypes s id steps := by
  unfold heldTypes
  induction h with
  | nil => rfl
  | cons first _ ih =>
      cases first with
      | text field optional => simpa using ih
      | child field quantifier h =>
          cases h with
          | token kind => simpa using ih
          | rule h => simp only [List.filterMap_cons, self h, typeName_eq (alike h).name, ih]

theorem testArgument_eq (h : Accept.Related related accept accept') :
    testArgument s' accept' = testArgument s accept := by
  cases h with
  | token kind => rfl
  | rule h => exact testName_eq (alike h).name

theorem readArgument_eq (h : Accept.Related related accept accept') :
    readArgument s' accept' = readArgument s accept := by
  cases h with
  | token kind => rfl
  | rule h => rw [readArgument, readArgument, (alike h).isChoice, parseName_eq (alike h).name]

theorem takeLine_eq (h : Step.Related related step step') :
    takeLine s' step' = takeLine s step := by
  cases h with
  | text field optional => cases optional <;> rfl
  | child field quantifier h =>
      cases quantifier <;>
        simp only [takeLine, Step.field, testArgument_eq alike h, readArgument_eq alike h]

theorem takeLines_eq (h : List.Forall₂ (Step.Related related) steps steps') :
    takeLines s' steps' = takeLines s steps := by
  have lines := map_eq_of_forall₂ h fun h => takeLine_eq alike h
  cases h with
  | nil => rfl
  | cons first rest => simp only [takeLines, lines]

theorem shapeLines_eq {id : s.Id} {id' : s'.Id} (name : s'.name id' = s.name id)
    (around : SameSurroundings s s' (s.name id))
    (self : ∀ {target target'}, related target target' → (target' = id' ↔ target = id))
    (h : List.Forall₂ (Step.Related related) steps steps') (root : String) :
    shapeLines s' id' root steps' = shapeLines s id root steps := by
  have fields : steps'.flatMap (fieldLines s') = steps.flatMap (fieldLines s) :=
    flatMap_eq_of_forall₂ h fun h => fieldLines_eq alike h
  simp only [shapeLines, name, typeName_eq name, useRuntime_eq around, useTokens_eq around,
    capabilities, around.transitive, heldTypes_eq alike self h, fields, map_absentable_eq h,
    unparseBody_eq h]

theorem shapeFunctions_eq {id : s.Id} {id' : s'.Id} (name : s'.name id' = s.name id)
    (h : List.Forall₂ (Step.Related related) steps steps') (root : String) :
    shapeFunctions s' id' root steps' = shapeFunctions s id root steps := by
  have fields : steps'.map (·.field) = steps.map (·.field) :=
    map_eq_of_forall₂ h Step.Related.field_eq
  have types : steps'.map (fun step => (step.field, fieldType s' step)) =
      steps.map fun step => (step.field, fieldType s step) :=
    map_eq_of_forall₂ h fun h => by rw [h.field_eq, fieldType_eq alike h]
  have inits := congrArg (List.map fieldInit) fields
  have idents := congrArg (List.map fieldIdent) fields
  have parameters := congrArg
    (List.map fun (field, type) => s!"{fieldIdent field}: {type}") types
  simp only [List.map_map, Function.comp_def] at inits idents parameters
  simp only [shapeFunctions, name, typeName_eq name, testName_eq name, parseName_eq name,
    makeName_eq name, parameters, inits, idents, takeLines_eq alike h]

end

section

variable {id target : s.Id} {id' target' : s'.Id} (name : s'.name id' = s.name id)
include name

theorem delegateLines_eq (around : SameSurroundings s s' (s.name id))
    (self : target' = id' ↔ target = id) (h : SpokenAlike s s' target target') :
    delegateLines s' id' target' = delegateLines s id target := by
  simp only [delegateLines, name, typeName_eq name, useRuntime_eq around, capabilities,
    around.transitive, self, h.name, typeName_eq h.name, ruleType_eq h]

theorem delegateFunctions_eq (h : SpokenAlike s s' target target') :
    delegateFunctions s' id' target' = delegateFunctions s id target := by
  simp only [delegateFunctions, name, typeName_eq name, testName_eq name, parseName_eq name,
    makeName_eq name, h.name, h.isChoice, testName_eq h.name, parseName_eq h.name, ruleType_eq h]

theorem capabilityUnitLines_eq {alternatives : List s.Id} {alternatives' : List s'.Id}
    (around : SameSurroundings s s' (s.name id))
    (h : alternatives'.map s'.name = alternatives.map s.name) :
    capabilityUnitLines s' id' alternatives' = capabilityUnitLines s id alternatives := by
  simp only [capabilityUnitLines, name, typeName_eq name, useRuntime_eq around, supertraits,
    around.direct, h]

theorem choiceFunctions_eq {alternatives : List s.Id} {alternatives' : List s'.Id}
    (h : List.Forall₂ (SpokenAlike s s') alternatives alternatives') :
    choiceFunctions s' id' alternatives' = choiceFunctions s id alternatives := by
  have dispatch : ∀ type, alternatives'.flatMap (dispatchLines s' type) =
      alternatives.flatMap (dispatchLines s type) := by
    intro type
    refine flatMap_eq_of_forall₂ h fun h => ?_
    rw [dispatchLines, dispatchLines, h.isChoice, testName_eq h.name, parseName_eq h.name]
  have names : alternatives'.map (testName s') = alternatives.map (testName s) :=
    map_eq_of_forall₂ h fun h => testName_eq h.name
  have tests := congrArg (List.map fun name => s!"{name}(tree)") names
  simp only [List.map_map, Function.comp_def] at tests
  have empty : alternatives'.isEmpty = alternatives.isEmpty := by
    cases h <;> rfl
  simp only [choiceFunctions, name, typeName_eq name, testName_eq name, parseName_eq name, dispatch,
    tests, empty]

end

/-- Rules that the same code is generated for, and the same names looked at. -/
structure RenderedAlike (s s' : Shapes) (id : s.Id) (id' : s'.Id) : Prop where
  unit : ruleUnit s' id' = ruleUnit s id
  functions : ruleFunctions s' id' = ruleFunctions s id
  clashes : checkPlanNames (s'.name id') (s'.plan id') = checkPlanNames (s.name id) (s.plan id)

theorem renderedAlike_of_similar {related : s.Id → s'.Id → Prop}
    (similar : Shapes.Similar s s' related)
    (unique : ∀ {a a' b b'}, related a a' → related b b' → (a' = b' ↔ a = b)) {id : s.Id}
    {id' : s'.Id} (around : SameSurroundings s s' (s.name id)) (h : related id id') :
    RenderedAlike s s' id id' := by
  have alike : ∀ {id id'}, related id id' → SpokenAlike s s' id id' := by
    intro id id' h
    exact ⟨similar.name h, (similar.plan h).isChoice_eq⟩
  have name := similar.name h
  have plan := similar.plan h
  have lines : ruleLines s' id' = ruleLines s id := by
    unfold ruleLines
    generalize s.plan id = p at plan
    generalize s'.plan id' = p' at plan
    cases plan with
    | shape root steps => exact shapeLines_eq alike name around (fun ht => unique ht h) steps root
    | delegate target => exact delegateLines_eq name around (unique target h) (alike target)
    | choice alternatives =>
        exact capabilityUnitLines_eq name around (map_eq_of_forall₂ alternatives similar.name)
  refine ⟨by rw [ruleUnit, ruleUnit, name, lines], ?_, ?_⟩
  · unfold ruleFunctions
    generalize s.plan id = p at plan
    generalize s'.plan id' = p' at plan
    cases plan with
    | shape root steps => exact shapeFunctions_eq alike name steps root
    | delegate target => exact delegateFunctions_eq name (alike target)
    | choice alternatives => exact choiceFunctions_eq name (alternatives.imp fun _ _ => alike)
  · rw [name]
    generalize s.plan id = p at plan
    generalize s'.plan id' = p' at plan
    cases plan with
    | shape root steps =>
        simp only [checkPlanNames, map_eq_of_forall₂ steps Step.Related.field_eq]
    | delegate target | choice alternatives => rfl

end TreeShape.Code
