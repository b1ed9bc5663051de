import Mathlib.Data.List.FinRange
import Mathlib.Data.List.Nodup
import TreeShape.Code.Package
import TreeShape.Proofs.Compiled

/-!
The check of generated names finds a clash exactly if there is one. It goes through the rules, and
through the fields of each, with the owners of the identifiers so far; what it then reports are two
names of the schema that really meet, the earlier one first.
-/

namespace TreeShape.Code

/-- Different names of a list have different identifiers. -/
def KeepsApart (ident : String → String) (names : List String) : Prop :=
  ∀ a ∈ names, ∀ b ∈ names, ident a = ident b → a = b

/-- Two different names of a list, in their order, with one identifier. -/
structure Meet (ident : String → String) (names : List String) (first second name : String) :
    Prop where
  order : [first, second].Sublist names
  differ : first ≠ second
  first_eq : ident first = name
  second_eq : ident second = name

/-- No two names of the schema meet in generated code. -/
structure Apart (s : Shapes) : Prop where
  units : KeepsApart unitName s.schema.names
  types : KeepsApart typeIdent s.schema.names
  package : ∀ name ∈ s.schema.names, unitName name ≠ parserUnit ∧ unitName name ≠ modUnit
  fields : ∀ id body, s.HasBody id body → KeepsApart fieldIdent (body.items.map (·.field))
  locals : ∀ id body, s.HasBody id body → KeepsApart localIdent (body.items.map (·.field))

/-- A clash that is there: between the file of a rule and one of the package, between two rules, or
between two fields of a rule. -/
inductive Genuine (s : Shapes) : Clash → Prop
  | package {rule unit : String} : rule ∈ s.schema.names → unitName rule = unit →
      unit = parserUnit ∨ unit = modUnit → Genuine s (.rules unit rule (unit ++ ".rs"))
  | units {first second name : String} : Meet unitName s.schema.names first second name →
      Genuine s (.rules first second name)
  | types {first second name : String} : Meet typeIdent s.schema.names first second name →
      Genuine s (.rules first second name)
  | fields {id : s.Id} {body : Body} {first second name : String} : s.HasBody id body →
      Meet fieldIdent (body.items.map (·.field)) first second name →
      Genuine s (.fields (s.name id) first second name)
  | locals {id : s.Id} {body : Body} {first second name : String} : s.HasBody id body →
      Meet localIdent (body.items.map (·.field)) first second name →
      Genuine s (.fields (s.name id) first second name)

section

variable {ident : String → String} {names before rest : List String} {first second name : String}

theorem keepsApart_of_nodup (h : (names.map ident).Nodup) : KeepsApart ident names := by
  intro a ha b hb he
  exact List.inj_on_of_nodup_map h ha hb he

theorem KeepsApart.nodup (h : KeepsApart ident names) (distinct : names.Nodup) :
    (names.map ident).Nodup :=
  distinct.map_on h

theorem Meet.not_keepsApart (h : Meet ident names first second name) :
    ¬ KeepsApart ident names := by
  intro apart
  have hf : first ∈ names := h.order.subset List.mem_cons_self
  have hs : second ∈ names := h.order.subset (List.mem_cons_of_mem _ List.mem_cons_self)
  exact h.differ (apart first hf second hs (h.first_eq.trans h.second_eq.symm))

/-- An owner meets what comes later. -/
theorem Meet.of_mem (distinct : (before.reverse ++ second :: rest).Nodup) (hf : first ∈ before)
    (he : ident first = ident second) :
    Meet ident (before.reverse ++ second :: rest) first second (ident second) := by
  have earlier : [first].Sublist before.reverse :=
    List.singleton_sublist.mpr (List.mem_reverse.mpr hf)
  have later : [second].Sublist (second :: rest) :=
    List.singleton_sublist.mpr List.mem_cons_self
  have order := earlier.append later
  have differ := distinct.sublist order
  exact ⟨order, by simpa using differ, he, rfl⟩

/-- Owners with their identifiers, as the check keeps them. -/
def owned (ident : String → String) (owners : List String) : List (String × String) :=
  owners.map fun owner => (ident owner, owner)

theorem lookup_owned : (owned ident before).lookup name = before.find? (ident · == name) := by
  induction before with
  | nil => rfl
  | cons owner before ih =>
      by_cases h : ident owner = name
      · simp [owned, h]
      · have h' : (name == ident owner) = false := by simpa using fun he => h he.symm
        simpa [owned, List.lookup_cons, h, h'] using ih

theorem claim_eq_ok_iff {claimed : List (String × String)} :
    claim (owned ident before) (ident second) second = .ok claimed ↔
      ident second ∉ before.map ident ∧ claimed = owned ident (second :: before) := by
  unfold claim
  rw [lookup_owned]
  cases h : before.find? (ident · == ident second) with
  | none =>
      have free : ident second ∉ before.map ident := by
        simpa [List.find?_eq_none] using h
      simp only [Except.ok.injEq, free, not_false_eq_true, true_and]
      exact eq_comm
  | some first =>
      have taken : ident second ∈ before.map ident := by
        have he : ident first = ident second := by simpa using List.find?_some h
        exact List.mem_map.mpr ⟨first, List.mem_of_find?_eq_some h, he⟩
      simp [taken]

theorem of_claim_eq_error (h : claim (owned ident before) (ident second) second = .error first) :
    first ∈ before ∧ ident first = ident second := by
  unfold claim at h
  rw [lookup_owned] at h
  split at h
  · next found =>
    cases h
    exact ⟨List.mem_of_find?_eq_some found, by simpa using List.find?_some found⟩
  · cases h

end

section

variable {rule : String} (before : List String) {fields : List String}

theorem nodup_of_checkFieldNames
    (h : checkFieldNames rule (owned fieldIdent before) (owned localIdent before) fields = .ok ())
    (idents : (before.map fieldIdent).Nodup) (locals : (before.map localIdent).Nodup) :
    ((fields.reverse ++ before).map fieldIdent).Nodup ∧
      ((fields.reverse ++ before).map localIdent).Nodup := by
  induction fields generalizing before with
  | nil => exact ⟨idents, locals⟩
  | cons field rest ih =>
      simp only [checkFieldNames, bind_eq_ok_iff, mapError_eq_ok_iff, claim_eq_ok_iff] at h
      obtain ⟨_, ⟨freshIdent, rfl⟩, _, ⟨freshLocal, rfl⟩, h⟩ := h
      have := ih (field :: before) h (List.nodup_cons.mpr ⟨freshIdent, idents⟩)
        (List.nodup_cons.mpr ⟨freshLocal, locals⟩)
      simpa using this

theorem meet_of_checkFieldNames {clash : Clash}
    (h : checkFieldNames rule (owned fieldIdent before) (owned localIdent before) fields =
      .error clash)
    (distinct : (before.reverse ++ fields).Nodup) :
    ∃ first second name, clash = .fields rule first second name ∧
      (Meet fieldIdent (before.reverse ++ fields) first second name ∨
        Meet localIdent (before.reverse ++ fields) first second name) := by
  induction fields generalizing before with
  | nil => cases h
  | cons field rest ih =>
      simp only [checkFieldNames, bind_eq_error_iff, mapError_eq_error_iff, mapError_eq_ok_iff,
        claim_eq_ok_iff] at h
      obtain ⟨first, hc, rfl⟩ | ⟨_, ⟨-, rfl⟩, ⟨first, hc, rfl⟩ | ⟨_, ⟨-, rfl⟩, h⟩⟩ := h
      · obtain ⟨hf, he⟩ := of_claim_eq_error hc
        exact ⟨first, field, _, rfl, .inl (.of_mem distinct hf he)⟩
      · obtain ⟨hf, he⟩ := of_claim_eq_error hc
        exact ⟨first, field, _, rfl, .inr (.of_mem distinct hf he)⟩
      · simpa using ih (field :: before) h (by simpa using distinct)

end

variable {s : Shapes}

theorem map_name_ids (s : Shapes) : s.ids.map s.name = s.schema.names := by
  have h : s.ids.map s.schema.rules.get = s.schema.rules := List.map_get_finRange _
  calc s.ids.map s.name = (s.ids.map s.schema.rules.get).map (·.name) := by
        rw [List.map_map]; rfl
    _ = s.schema.names := by rw [h]; rfl

theorem checkUnitName_eq_ok_iff {rule : String} :
    checkUnitName rule = .ok () ↔ unitName rule ≠ parserUnit ∧ unitName rule ≠ modUnit := by
  rw [checkUnitName, ne_eq, ne_eq, ← not_or]
  split
  · next taken => simp [taken]
  · next free => simp [free]

theorem genuine_of_checkUnitName {id : s.Id} {clash : Clash}
    (h : checkUnitName (s.name id) = .error clash) : Genuine s clash := by
  unfold checkUnitName at h
  split at h
  · next taken =>
    cases h
    exact .package (Shapes.mem_names_iff.mpr ⟨id, rfl⟩) rfl taken
  · cases h

theorem keepsApart_of_checkPlanNames (lawful : s.Lawful) {id : s.Id} {body : Body}
    (has : s.HasBody id body) (h : checkPlanNames (s.name id) (s.plan id) = .ok ()) :
    KeepsApart fieldIdent (body.items.map (·.field)) ∧
      KeepsApart localIdent (body.items.map (·.field)) := by
  obtain ⟨steps, hp, resolves⟩ := lawful.shape_of_body has
  simp only [hp, checkPlanNames, ← Shapes.map_field_eq resolves] at h
  have distinct := nodup_of_checkFieldNames [] h .nil .nil
  simp only [List.append_nil, List.map_reverse, List.nodup_reverse] at distinct
  exact ⟨keepsApart_of_nodup distinct.1, keepsApart_of_nodup distinct.2⟩

theorem genuine_of_checkPlanNames (lawful : s.Lawful) {id : s.Id} {clash : Clash}
    (h : checkPlanNames (s.name id) (s.plan id) = .error clash) : Genuine s clash := by
  cases hp : s.plan id with
  | delegate target | choice alternatives => simp [hp, checkPlanNames] at h
  | shape root steps =>
      obtain ⟨body, has, _, resolves⟩ := lawful.body_of_shape hp
      simp only [hp, checkPlanNames, ← Shapes.map_field_eq resolves] at h
      obtain ⟨first, second, name, rfl, meet | meet⟩ :=
        meet_of_checkFieldNames [] h (lawful.items_nodup has)
      · exact .fields has meet
      · exact .locals has meet

/-- Every rule passes its own checks. -/
theorem each_of_checkRuleNames {units types : List (String × String)} {ids : List s.Id}
    (h : checkRuleNames s units types ids = .ok ()) :
    ∀ id ∈ ids, checkUnitName (s.name id) = .ok () ∧
      checkPlanNames (s.name id) (s.plan id) = .ok () := by
  induction ids generalizing units types with
  | nil => simp
  | cons id rest ih =>
      simp only [checkRuleNames, bind_eq_ok_iff] at h
      obtain ⟨_, unit, _, _, _, _, _, plan, h⟩ := h
      intro other ho
      obtain rfl | ho := List.mem_cons.mp ho
      · exact ⟨unit, plan⟩
      · exact ih h other ho

theorem nodup_of_checkRuleNames (before : List s.Id) {ids : List s.Id}
    (h : checkRuleNames s (owned unitName (before.map s.name))
      (owned typeIdent (before.map s.name)) ids = .ok ())
    (units : ((before.map s.name).map unitName).Nodup)
    (types : ((before.map s.name).map typeIdent).Nodup) :
    (((ids.reverse ++ before).map s.name).map unitName).Nodup ∧
      (((ids.reverse ++ before).map s.name).map typeIdent).Nodup := by
  induction ids generalizing before with
  | nil => exact ⟨units, types⟩
  | cons id rest ih =>
      simp only [checkRuleNames, bind_eq_ok_iff, mapError_eq_ok_iff, claim_eq_ok_iff] at h
      obtain ⟨_, _, _, ⟨freshUnit, rfl⟩, _, ⟨freshType, rfl⟩, _, _, h⟩ := h
      have := ih (id :: before) h (List.nodup_cons.mpr ⟨freshUnit, units⟩)
        (List.nodup_cons.mpr ⟨freshType, types⟩)
      simpa using this

theorem genuine_of_checkRuleNames (lawful : s.Lawful) (before : List s.Id) {ids : List s.Id}
    {clash : Clash}
    (h : checkRuleNames s (owned unitName (before.map s.name))
      (owned typeIdent (before.map s.name)) ids = .error clash)
    (all : (before.map s.name).reverse ++ ids.map s.name = s.schema.names) : Genuine s clash := by
  induction ids generalizing before with
  | nil => cases h
  | cons id rest ih =>
      have distinct := lawful.names_nodup
      rw [← all] at distinct
      simp only [checkRuleNames, check_bind_eq_error_iff] at h
      obtain h | ⟨-, h⟩ := h
      · exact genuine_of_checkUnitName h
      simp only [bind_eq_error_iff, mapError_eq_error_iff, mapError_eq_ok_iff,
        claim_eq_ok_iff] at h
      obtain ⟨first, hc, rfl⟩ | ⟨_, ⟨-, rfl⟩, ⟨first, hc, rfl⟩ | ⟨_, ⟨-, rfl⟩, h⟩⟩ := h
      · obtain ⟨hf, he⟩ := of_claim_eq_error hc
        exact .units (all ▸ .of_mem distinct hf he)
      · obtain ⟨hf, he⟩ := of_claim_eq_error hc
        exact .types (all ▸ .of_mem distinct hf he)
      · obtain h | ⟨_, -, h⟩ := h
        · exact genuine_of_checkPlanNames lawful h
        · exact ih (id :: before) h (by simpa using all)

theorem apart_of_checkClashes (lawful : s.Lawful) (h : checkClashes s = .ok ()) : Apart s := by
  have distinct := nodup_of_checkRuleNames [] h .nil .nil
  simp only [List.append_nil, List.map_reverse, List.nodup_reverse, map_name_ids] at distinct
  have each (id : s.Id) := each_of_checkRuleNames h id (List.mem_finRange id)
  refine ⟨keepsApart_of_nodup distinct.1, keepsApart_of_nodup distinct.2, ?_, ?_, ?_⟩
  · intro name hn
    obtain ⟨id, rfl⟩ := Shapes.mem_names_iff.mp hn
    exact checkUnitName_eq_ok_iff.mp (each id).1
  · intro id body has
    exact (keepsApart_of_checkPlanNames lawful has (each id).2).1
  · intro id body has
    exact (keepsApart_of_checkPlanNames lawful has (each id).2).2

theorem genuine_of_checkClashes (lawful : s.Lawful) {clash : Clash}
    (h : checkClashes s = .error clash) : Genuine s clash :=
  genuine_of_checkRuleNames lawful [] h (map_name_ids s)

theorem Genuine.not_apart {clash : Clash} (h : Genuine s clash) : ¬ Apart s := by
  intro apart
  cases h with
  | package hr unit taken =>
      have free := apart.package _ hr
      rw [unit] at free
      exact taken.elim free.1 free.2
  | units meet => exact meet.not_keepsApart apart.units
  | types meet => exact meet.not_keepsApart apart.types
  | fields has meet => exact meet.not_keepsApart (apart.fields _ _ has)
  | locals has meet => exact meet.not_keepsApart (apart.locals _ _ has)

theorem checkClashes_eq_ok_iff (lawful : s.Lawful) : checkClashes s = .ok () ↔ Apart s := by
  constructor
  · exact apart_of_checkClashes lawful
  · intro apart
    cases h : checkClashes s with
    | ok => rfl
    | error clash => exact absurd apart (genuine_of_checkClashes lawful h).not_apart

end TreeShape.Code
