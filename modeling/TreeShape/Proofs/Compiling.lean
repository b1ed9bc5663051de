import TreeShape.Proofs.Compiled
import TreeShape.Proofs.WellFormed

/-!
Compiling a checked schema. All that could still fail is the resolving of names, and a checked
schema names nothing that is not there; so compiling fails where the check does, and with its fault.
-/

namespace TreeShape

theorem Schema.positionIn_isSome_iff {name : String} {rules : List Rule} :
    (positionIn name rules).isSome = true ↔ name ∈ rules.map (·.name) := by
  induction rules with
  | nil => simp [positionIn]
  | cons rule rest ih =>
      by_cases h : rule.name = name
      · simp [positionIn, h]
      · have h' : ¬ name = rule.name := fun he => h he.symm
        simpa [positionIn, h, h'] using ih

theorem Rule.WellFormed.alternatives_subset {known : List String} {rule : Rule}
    (h : rule.WellFormed known) : rule.alternatives ⊆ known := by
  unfold Rule.WellFormed at h
  unfold Rule.alternatives
  cases form : rule.form with
  | leaf body => exact List.nil_subset _
  | alternatives names =>
      simp only [form] at h
      exact h

theorem checkAllAlternatives_eq_ok_iff {known : List String} {rules : List Rule} :
    checkAllAlternatives known rules = .ok () ↔ ∀ rule ∈ rules, rule.alternatives ⊆ known := by
  induction rules with
  | nil => simp [checkAllAlternatives]
  | cons rule rest ih =>
      rw [checkAllAlternatives, check_bind_eq_ok_iff, checkAlternatives_eq_ok_iff, ih,
        List.forall_mem_cons]

theorem exists_resolve {rules : List Rule}
    (h : ∀ rule ∈ rules, rule.WellFormed (rules.map (·.name))) :
    ∃ ancestry, Ancestry.resolve rules = .ok ancestry := by
  have listed := checkAllAlternatives_eq_ok_iff.mpr fun rule hr => (h rule hr).alternatives_subset
  exact ⟨_, by rw [Ancestry.resolve, listed]; rfl⟩

section

variable {n : Nat} {position? : String → Option (Fin n)} {known : List String}

theorem exists_resolveName (found : ∀ name ∈ known, (position? name).isSome = true) {name : String}
    (h : name ∈ known) (fault : Fault) :
    ∃ position, resolveName position? name fault = .ok position := by
  obtain ⟨position, hp⟩ := Option.isSome_iff_exists.mp (found name h)
  exact ⟨position, by rw [resolveName, hp]⟩

theorem Item.exists_lower (found : ∀ name ∈ known, (position? name).isSome = true) {item : Item}
    (h : item.WellFormed known) (rule : String) : ∃ step, item.lower position? rule = .ok step := by
  unfold Item.lower
  cases target : item.target with
  | text | token kind => exact ⟨_, rfl⟩
  | rule name =>
      obtain ⟨position, hp⟩ := exists_resolveName found (h.rule name target)
        (.unknownReference rule item.field name)
      exact ⟨_, by simp only [hp]; rfl⟩

theorem Rule.exists_lower (found : ∀ name ∈ known, (position? name).isSome = true) {rule : Rule}
    (h : rule.WellFormed known) : ∃ plan, rule.lower position? = .ok plan := by
  unfold Rule.lower
  unfold Rule.WellFormed at h
  cases form : rule.form with
  | alternatives names =>
      simp only [form] at h
      obtain ⟨alternatives, ha⟩ := exists_mapM_eq_ok fun name hn =>
        exists_resolveName found (h name hn) (.unknownAlternative rule.name name)
      exact ⟨_, by simp only [ha]; rfl⟩
  | leaf body =>
      simp only [form] at h
      cases delegates : body.delegates with
      | true =>
          obtain ⟨target, ht⟩ := exists_resolveName found (h.delegate delegates).1
            (.unknownReference rule.name innerField body.root)
          exact ⟨_, by simp only [delegates, if_true, ht]; rfl⟩
      | false =>
          obtain ⟨steps, hs⟩ := exists_mapM_eq_ok fun item hi =>
            Item.exists_lower found (h.items item hi) rule.name
          exact ⟨_, by simp only [delegates, Bool.false_eq_true, if_false, hs]; rfl⟩

theorem exists_lowerRules (found : ∀ name ∈ known, (position? name).isSome = true)
    {rules : List Rule} (h : ∀ rule ∈ rules, rule.WellFormed known) :
    ∃ lowered, lowerRules position? rules = .ok lowered := by
  induction rules with
  | nil => exact ⟨_, rfl⟩
  | cons rule rest ih =>
      obtain ⟨plan, hp⟩ := Rule.exists_lower found (h rule List.mem_cons_self)
      obtain ⟨plans, hl⟩ := ih fun rule hr => h rule (List.mem_cons_of_mem _ hr)
      exact ⟨_, by rw [lowerRules, hp, hl]; rfl⟩

end

namespace Shapes

variable {schema : Schema}

/-- What comes after the check does not fail. -/
theorem exists_tables (h : schema.check = .ok ()) :
    ∃ ancestry lowered, Ancestry.resolve schema.rules = .ok ancestry ∧
      lowerRules schema.position? schema.rules = .ok lowered := by
  have rules : ∀ rule ∈ schema.rules, rule.WellFormed schema.names := by
    intro rule hr
    exact checkRule_eq_ok_iff.mp ((Schema.check_eq_ok_iff.mp h).2.1 rule hr)
  have found : ∀ name ∈ schema.names, (schema.position? name).isSome = true := by
    intro name hn
    exact Schema.positionIn_isSome_iff.mpr hn
  obtain ⟨ancestry, resolved⟩ := exists_resolve rules
  obtain ⟨lowered, hl⟩ := exists_lowerRules found rules
  exact ⟨ancestry, lowered, resolved, hl⟩

theorem exists_compile_iff : (∃ s, compile schema = .ok s) ↔ schema.check = .ok () := by
  constructor
  · intro ⟨s, h⟩
    obtain ⟨rfl, lawful⟩ := lawful_of_compile h
    exact lawful.checked
  · intro h
    obtain ⟨ancestry, lowered, resolved, hl⟩ := exists_tables h
    exact ⟨_, by rw [compile, h, resolved, hl]; rfl⟩

theorem compile_eq_error_iff {fault : Fault} :
    compile schema = .error fault ↔ schema.check = .error fault := by
  cases h : schema.check with
  | error other => rw [compile, check_bind_eq_error_iff, h]; simp
  | ok _ =>
      obtain ⟨s, hs⟩ := exists_compile_iff.mpr h
      simp [hs]

namespace Lawful

variable {s : Shapes} (lawful : s.Lawful)
include lawful

theorem identifier_name (id : s.Id) : Text.Identifier (s.name id) := by
  have names := (checkNames_eq_ok_iff.mp (Schema.check_eq_ok_iff.mp lawful.checked).1).1
  exact (isRuleName_iff.mp (names (s.rule id) (List.get_mem _ _)).1).1

theorem identifier_of_mem {name : String} (hn : name ∈ s.schema.names) : Text.Identifier name := by
  obtain ⟨id, rfl⟩ := mem_names_iff.mp hn
  exact lawful.identifier_name id

theorem body_wellFormed {id : s.Id} {body : Body} (has : s.HasBody id body) :
    body.WellFormed s.schema.names := by
  have h := checkRule_eq_ok_iff.mp (lawful.checkRule id)
  simpa only [Rule.WellFormed, has.1] using h

end Lawful
end Shapes
end TreeShape
