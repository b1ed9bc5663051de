import TreeShape.Proofs.Result
import TreeShape.Schema.Check

/-!
The check of a schema, pass by pass: what each of them has found when it succeeds.
-/

namespace TreeShape

theorem checkNames_eq_ok_iff {seen : List String} {rules : List Rule} :
    checkNames seen rules = .ok () ↔
      (∀ rule ∈ rules, isRuleName rule.name = true ∧ rule.name ∉ seen) ∧
        (rules.map (·.name)).Nodup := by
  induction rules generalizing seen with
  | nil => simp [checkNames]
  | cons rule rest ih =>
      simp only [checkNames, Bool.not_eq_true', List.contains_iff_mem]
      split
      · next bad => simp [bad]
      · next good =>
        split
        · next old => simp [old]
        · next new =>
          rw [ih, List.forall_mem_cons, List.map_cons, List.nodup_cons]
          have good : isRuleName rule.name = true := by simpa using good
          constructor
          · rintro ⟨later, distinct⟩
            refine ⟨⟨⟨good, new⟩, fun other ho => ?_⟩, ?_, distinct⟩
            · have h := later other ho
              exact ⟨h.1, fun hs => h.2 (List.mem_cons_of_mem _ hs)⟩
            · intro hm
              obtain ⟨other, ho, he⟩ := List.mem_map.mp hm
              exact (later other ho).2 (he ▸ List.mem_cons_self)
          · rintro ⟨⟨_, later⟩, single, distinct⟩
            refine ⟨fun other ho => ⟨(later other ho).1, fun hs => ?_⟩, distinct⟩
            obtain he | hs := List.mem_cons.mp hs
            · exact single (List.mem_map.mpr ⟨other, ho, he⟩)
            · exact (later other ho).2 hs

theorem checkAlternatives_eq_ok_iff {known : List String} {rule : String} {names : List String} :
    checkAlternatives known rule names = .ok () ↔ names ⊆ known := by
  induction names with
  | nil => simp [checkAlternatives]
  | cons name rest ih =>
      simp only [checkAlternatives, List.contains_iff_mem, List.cons_subset]
      split
      · next h => simp [h, ih]
      · next h => simp [h]

def Item.capturesText (item : Item) : Bool :=
  item.target == .text

/-- What an item names can be used where it stands. -/
def Item.TargetOk (known : List String) (item : Item) : Prop :=
  match item.target with
  | .rule name => name ∈ known
  | .token kind => isTokenKind kind = true
  | .text => item.quantifier.repeats = false

theorem checkTarget_eq_ok_iff {known : List String} {rule : String} {captured : Bool}
    {item : Item} :
    checkTarget known rule captured item = .ok () ↔
      item.TargetOk known ∧ (item.capturesText = true → captured = false) := by
  cases h : item.target with
  | rule name => simp [checkTarget, Item.TargetOk, Item.capturesText, h]
  | token kind => simp [checkTarget, Item.TargetOk, Item.capturesText, h]
  | text =>
      simp only [checkTarget, Item.TargetOk, Item.capturesText, h]
      cases captured <;> cases item.quantifier.repeats <;> simp

theorem checkFlags_eq_ok_iff {rule : String} {item : Item} :
    checkFlags rule item = .ok () ↔ item.conflict? = none := by
  simp only [checkFlags]
  cases item.conflict? <;> simp

theorem checkItems_eq_ok_iff {known : List String} {rule : String} {fields : List String}
    {captured : Bool} {items : List Item} :
    checkItems known rule fields captured items = .ok () ↔
      (∀ item ∈ items, Text.isIdentifier item.field = true ∧ item.field ∉ fields ∧
        item.TargetOk known ∧ item.conflict? = none) ∧
      (items.map (·.field)).Nodup ∧ items.countP (·.capturesText) + captured.toNat ≤ 1 := by
  induction items generalizing fields captured with
  | nil => cases captured <;> simp [checkItems]
  | cons item rest ih =>
      simp only [checkItems, Bool.not_eq_true', List.contains_iff_mem]
      split
      · next bad => simp [bad]
      · next good =>
        split
        · next old => simp [old]
        · next new =>
          have good : Text.isIdentifier item.field = true := by simpa using good
          have count : List.countP (·.capturesText) (item :: rest) + captured.toNat ≤ 1 ↔
              (item.capturesText = true → captured = false) ∧
                rest.countP (·.capturesText) + (captured || item.capturesText).toNat ≤ 1 := by
            cases captured <;> cases h : item.capturesText <;> simp [h]
          have split : (∀ other ∈ rest, Text.isIdentifier other.field = true ∧
                other.field ∉ item.field :: fields ∧ other.TargetOk known ∧
                other.conflict? = none) ↔
              (∀ other ∈ rest, Text.isIdentifier other.field = true ∧ other.field ∉ fields ∧
                other.TargetOk known ∧ other.conflict? = none) ∧
              item.field ∉ rest.map (·.field) := by
            simp only [List.mem_cons, not_or, List.mem_map, not_exists, not_and]
            grind
          simp only [check_bind_eq_ok_iff, checkTarget_eq_ok_iff, checkFlags_eq_ok_iff]
          rw [ih, count, List.forall_mem_cons, List.map_cons, List.nodup_cons, split]
          change _ ∧ _ ∧ _ ∧ _ ∧ rest.countP _ + (captured || item.capturesText).toNat ≤ 1 ↔ _
          tauto

theorem checkRules_eq_ok_iff {known : List String} {rules : List Rule} :
    checkRules known rules = .ok () ↔ ∀ rule ∈ rules, checkRule known rule = .ok () := by
  induction rules with
  | nil => simp [checkRules]
  | cons rule rest ih =>
      simp only [checkRules, check_bind_eq_ok_iff, ih, List.forall_mem_cons]

theorem Schema.check_eq_ok_iff {schema : Schema} :
    schema.check = .ok () ↔ checkNames [] schema.rules = .ok () ∧
      (∀ rule ∈ schema.rules, checkRule schema.names rule = .ok ()) ∧
      schema.checkCycles = .ok () := by
  simp only [check, check_bind_eq_ok_iff, checkRules_eq_ok_iff]

/-- What a checked rule hands on to is known. -/
theorem Rule.successors_subset {known : List String} {rule : Rule}
    (h : checkRule known rule = .ok ()) : rule.successors ⊆ known := by
  unfold checkRule at h
  unfold successors
  split at h
  · next body form =>
    simp only [form]
    split
    · next delegates =>
      simp only [checkBody, delegates, if_true, Bool.not_eq_true'] at h
      split at h
      · cases h
      · next hk => simpa using hk
    · exact List.nil_subset _
  · next names form =>
    simp only [form]
    exact checkAlternatives_eq_ok_iff.mp h

/-- The items of a checked body that does not hand on. -/
theorem Rule.checkItems_of_checkRule {known : List String} {rule : Rule} {body : Body}
    (h : checkRule known rule = .ok ()) (form : rule.form = .leaf body)
    (direct : body.delegates = false) :
    checkItems known rule.name [] false body.items = .ok () := by
  simp only [checkRule, form, checkBody, direct] at h
  split at h
  · contradiction
  · split at h
    · cases h
    · exact h

end TreeShape
