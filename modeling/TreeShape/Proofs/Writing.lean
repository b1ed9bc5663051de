import TreeShape.Proofs.Compiled
import TreeShape.Proofs.Layout
import TreeShape.Shapes.Serialize

/-!
Writing a node: it succeeds exactly when the fields of the node lie along some children, which are
then the children of its tree.
-/

namespace TreeShape

/-- Adds some children after the others. -/
def Tree.extend (tree : Tree) (segment : List Tree) : Tree :=
  { tree with children := tree.children ++ segment }

@[simp] theorem Tree.extend_nil (tree : Tree) : tree.extend [] = tree := by
  cases tree
  simp [extend]

theorem Tree.extend_push (tree child : Tree) (segment : List Tree) :
    (tree.push child).extend segment = tree.extend (child :: segment) := by
  simp [extend, push]

namespace Shapes

variable (s : Shapes)

/-- A node that may stand for a rule, and its tree. -/
def Writes (id : s.Id) (node : Node) (tree : Tree) : Prop :=
  s.implements node.rule (s.name id) = true ∧ s.serialize node = .ok tree

/-- Writing leaves it open where a segment ends. -/
def Anywhere : SegmentEnd s.size :=
  fun _ _ _ _ => True

variable {s} {rule field : String} {tree tree' : Tree}

theorem serializeElement_eq_ok_iff {accept : Accept s.size} {element : Element} :
    s.serializeElement rule field accept element = .ok tree ↔
      Slot s.Writes accept element tree := by
  cases accept with
  | token kind =>
      cases element with
      | token token =>
          simp only [serializeElement, expectToken, Tree.is, beq_iff_eq]
          constructor
          · intro h
            split at h
            · next hk => cases h; exact .token hk
            · cases h
          · intro h
            cases h with
            | token hk => exact if_pos hk
      | node node | text text =>
          simp only [serializeElement, reduceCtorEq, false_iff]
          exact nofun
  | rule id =>
      cases element with
      | node node =>
          simp only [serializeElement]
          constructor
          · intro h
            split at h
            · next hi => exact .node ⟨hi, h⟩
            · cases h
          · intro h
            cases h with
            | node h => rw [if_pos h.1, h.2]
      | token token | text text =>
          simp only [serializeElement, reduceCtorEq, false_iff]
          exact nofun

theorem serializeElements_eq_ok_iff {accept : Accept s.size} {elements : List Element} :
    s.serializeElements rule field accept tree elements = .ok tree' ↔
      ∃ segment, List.Forall₂ (Slot s.Writes accept) elements segment ∧
        tree' = tree.extend segment := by
  induction elements generalizing tree with
  | nil => simp [serializeElements, eq_comm]
  | cons element elements ih =>
      simp only [serializeElements, bind_eq_ok_iff, serializeElement_eq_ok_iff, ih]
      constructor
      · rintro ⟨child, slot, segment, slots, rfl⟩
        exact ⟨child :: segment, .cons slot slots, tree.extend_push child segment⟩
      · rintro ⟨_, h, rfl⟩
        obtain ⟨child, segment, slot, slots, rfl⟩ := List.forall₂_cons_left_iff.mp h
        exact ⟨child, slot, segment, slots, (tree.extend_push child segment).symm⟩

theorem serializeValue_text_eq_ok_iff {optional : Bool} {value : FieldValue} :
    s.serializeValue rule tree (.text field optional) value = .ok tree' ↔
      (∃ found, value = .one (.text found) ∧ tree' = tree.setText (some found)) ∨
        (value = .empty ∧ optional = true ∧ tree' = tree) := by
  cases value with
  | empty => cases optional <;> simp [serializeValue, eq_comm]
  | one element => cases element <;> simp [serializeValue, eq_comm]
  | many elements => simp [serializeValue]

/-- However a value holds its elements, they are written one after the other. -/
theorem serializeValue_of_holds {accept : Accept s.size} {quantifier : Quantifier}
    {value : FieldValue} {elements : List Element} (h : Holds quantifier value elements) :
    s.serializeValue rule tree (.child field accept quantifier) value =
      s.serializeElements rule field accept tree elements := by
  cases h with
  | one element | present element => simp only [serializeValue, serializeElements]; rfl
  | absent | unset | many elements => simp only [serializeValue, serializeElements]
  | some some =>
      simp only [serializeValue, requireNonEmpty, List.isEmpty_iff, some, if_false]
      rfl

theorem holds_of_serializeValue {accept : Accept s.size} {quantifier : Quantifier}
    {value : FieldValue}
    (h : s.serializeValue rule tree (.child field accept quantifier) value = .ok tree') :
    ∃ elements, Holds quantifier value elements := by
  cases value with
  | empty =>
      cases quantifier with
      | one | oneOrMore => simp [serializeValue] at h
      | optional => exact ⟨[], .absent⟩
      | zeroOrMore => exact ⟨[], .unset⟩
  | one element =>
      cases quantifier with
      | one => exact ⟨[element], .one element⟩
      | optional => exact ⟨[element], .present element⟩
      | zeroOrMore | oneOrMore => simp [serializeValue] at h
  | many elements =>
      cases quantifier with
      | one | optional => simp [serializeValue] at h
      | zeroOrMore => exact ⟨elements, .many elements⟩
      | oneOrMore =>
          refine ⟨elements, .some ?_⟩
          rintro rfl
          simp only [serializeValue, bind_eq_ok_iff] at h
          obtain ⟨_, h, _⟩ := h
          cases h

theorem serializeValue_child_eq_ok_iff {accept : Accept s.size} {quantifier : Quantifier}
    {value : FieldValue} :
    s.serializeValue rule tree (.child field accept quantifier) value = .ok tree' ↔
      ∃ elements segment, Holds quantifier value elements ∧
        List.Forall₂ (Slot s.Writes accept) elements segment ∧ tree' = tree.extend segment := by
  constructor
  · intro h
    obtain ⟨elements, holds⟩ := holds_of_serializeValue h
    rw [serializeValue_of_holds holds] at h
    obtain ⟨segment, slots, rfl⟩ := serializeElements_eq_ok_iff.mp h
    exact ⟨elements, segment, holds, slots, rfl⟩
  · rintro ⟨elements, segment, holds, slots, rfl⟩
    rw [serializeValue_of_holds holds]
    exact serializeElements_eq_ok_iff.mpr ⟨segment, slots, rfl⟩

private theorem checkField_self : checkField rule field field = .ok () :=
  if_pos rfl

private theorem checkField_eq_ok_iff {found : String} :
    checkField rule field found = .ok () ↔ found = field := by
  simp [checkField]

/-- A layout is written as it stands. Text is only written where a step captures it. -/
theorem serializeFields_of_layout {ends : SegmentEnd s.size} {text : Option String}
    {steps : List (Step s.size)} {fields : List Field} {children : List Tree}
    (h : Layout s.Writes ends text steps fields children)
    (ht : tree.text = none ∨ tree.text = text) :
    s.serializeFields rule tree steps fields =
      .ok ⟨tree.kind, if steps.any (·.capturesText) then text else tree.text,
        tree.children ++ children⟩ := by
  induction h generalizing tree with
  | nil =>
      cases tree
      simp [serializeFields]
  | @text field found optional steps fields children hf _ ih =>
      have value : s.serializeValue rule tree (.text field optional) (.one (.text found)) =
          .ok (tree.setText text) :=
        serializeValue_text_eq_ok_iff.mpr (.inl ⟨found, rfl, by rw [hf]⟩)
      simp only [serializeFields, Step.field, checkField_self, value]
      change s.serializeFields rule (tree.setText text) steps fields = _
      rw [ih (.inr rfl)]
      simp [Tree.setText, Step.capturesText]
  | @noText field steps fields children hn _ ih =>
      have value : s.serializeValue rule tree (.text field true) .empty = .ok tree :=
        serializeValue_text_eq_ok_iff.mpr (.inr ⟨rfl, rfl, rfl⟩)
      have bare : tree.text = text := ht.elim (fun h => h.trans hn.symm) fun h => h
      simp only [serializeFields, Step.field, checkField_self, value]
      change s.serializeFields rule tree steps fields = _
      rw [ih ht]
      simp [Step.capturesText, bare]
  | @child field accept quantifier value elements segment rest steps fields holds slots _ _ ih =>
      have value : s.serializeValue rule tree (.child field accept quantifier) value =
          .ok (tree.extend segment) :=
        serializeValue_child_eq_ok_iff.mpr ⟨elements, segment, holds, slots, rfl⟩
      simp only [serializeFields, Step.field, checkField_self, value]
      have ht' : (tree.extend segment).text = none ∨ (tree.extend segment).text = text := ht
      change s.serializeFields rule (tree.extend segment) steps fields = _
      rw [ih ht']
      simp [Tree.extend, Step.capturesText]

/-- What can be written is a layout, if no more than one step captures text. -/
theorem layout_of_serializeFields {steps : List (Step s.size)} {fields : List Field}
    (h : s.serializeFields rule tree steps fields = .ok tree')
    (hl : fields.length = steps.length) (single : steps.countP (·.capturesText) ≤ 1)
    (ht : steps.any (·.capturesText) = true → tree.text = none) :
    ∃ children, tree'.kind = tree.kind ∧ tree'.children = tree.children ++ children ∧
      (steps.any (·.capturesText) = false → tree'.text = tree.text) ∧
      Layout s.Writes s.Anywhere tree'.text steps fields children := by
  induction steps generalizing tree fields with
  | nil =>
      cases List.length_eq_zero_iff.mp hl
      simp only [serializeFields, Except.ok.injEq] at h
      subst h
      exact ⟨[], rfl, by simp, fun _ => rfl, .nil⟩
  | cons step steps ih =>
      obtain _ | ⟨⟨name, value⟩, fields⟩ := fields
      · cases hl
      simp only [serializeFields, bind_eq_ok_iff] at h
      obtain ⟨_, named, middle, written, h⟩ := h
      cases checkField_eq_ok_iff.mp named
      cases step with
      | text field optional =>
          obtain ⟨single, others⟩ := Step.others_of_text single
          obtain ⟨children, kind, all, text, layout⟩ :=
            ih h (Nat.succ.inj hl) single (by simp [others])
          have text := text others
          have captures : (Step.text field optional :: steps).any (·.capturesText) ≠ false := by
            simp [Step.capturesText]
          obtain ⟨found, rfl, rfl⟩ | ⟨rfl, rfl, rfl⟩ := serializeValue_text_eq_ok_iff.mp written
          · exact ⟨children, kind, all, fun none => absurd none captures, .text text layout⟩
          · exact ⟨children, kind, all, fun none => absurd none captures,
              .noText (text.trans (ht rfl)) layout⟩
      | child field accept quantifier =>
          obtain ⟨elements, segment, holds, slots, rfl⟩ :=
            serializeValue_child_eq_ok_iff.mp written
          obtain ⟨children, kind, all, text, layout⟩ := ih h (Nat.succ.inj hl)
            (by simpa [List.countP_cons, Step.capturesText] using single) ht
          refine ⟨segment ++ children, kind, ?_, text, .child holds slots trivial layout⟩
          simp [all, Tree.extend]

theorem checkArity_eq_ok_iff {expected : Nat} {fields : List Field} :
    checkArity rule expected fields = .ok () ↔ fields.length = expected := by
  simp [checkArity]

theorem serializeInner_eq_ok_iff {target : s.Id} {name : String} {value : FieldValue} :
    s.serializeInner rule target [⟨name, value⟩] = .ok tree ↔
      name = innerField ∧ ∃ inner, value = .one (.node inner) ∧ s.Writes target inner tree := by
  cases value with
  | one element =>
      rw [serializeInner, check_bind_eq_ok_iff, checkField_eq_ok_iff, serializeElement_eq_ok_iff]
      refine and_congr_right fun _ => ⟨fun h => ?_, ?_⟩
      · cases h with
        | node writes => exact ⟨_, rfl, writes⟩
      · rintro ⟨inner, ⟨⟩, writes⟩
        exact .node writes
  | empty | many elements =>
      rw [serializeInner, check_bind_eq_ok_iff]
      simp

namespace Lawful

variable (lawful : s.Lawful) {id : s.Id}
include lawful

theorem find?_map_plan : (s.find? (s.name id)).map s.plan = some (s.plan id) := by
  rw [lawful.find?_eq_some_iff.mpr rfl]
  rfl

/-- A node of a body, and the tree that its fields are laid out along. -/
theorem serialize_shape_iff {root : String} {steps : List (Step s.size)} {fields : List Field}
    (hp : s.plan id = .shape root steps) :
    s.serialize ⟨s.name id, fields⟩ = .ok tree ↔ tree.kind = root ∧
      (steps.any (·.capturesText) = false → tree.text = none) ∧
      Layout s.Writes s.Anywhere tree.text steps fields tree.children := by
  simp only [serialize, lawful.find?_map_plan, hp, check_bind_eq_ok_iff, checkArity_eq_ok_iff]
  constructor
  · rintro ⟨hl, h⟩
    obtain ⟨children, kind, all, text, layout⟩ :=
      layout_of_serializeFields h hl (lawful.countP_capturesText_le hp) fun _ => rfl
    have all : tree.children = children := by simpa [Tree.leaf] using all
    exact ⟨kind, text, all ▸ layout⟩
  · rintro ⟨kind, text, layout⟩
    refine ⟨layout.length_eq, ?_⟩
    rw [serializeFields_of_layout layout (.inl rfl)]
    obtain ⟨_, _, _⟩ := tree
    cases h : steps.any (·.capturesText) <;> simp_all [Tree.leaf]

/-- A node that wraps another one is written as that one is. -/
theorem serialize_delegate_iff {target : s.Id} {fields : List Field}
    (hp : s.plan id = .delegate target) :
    s.serialize ⟨s.name id, fields⟩ = .ok tree ↔
      ∃ inner, fields = [⟨innerField, .one (.node inner)⟩] ∧ s.Writes target inner tree := by
  simp only [serialize, lawful.find?_map_plan, hp, check_bind_eq_ok_iff, checkArity_eq_ok_iff]
  constructor
  · rintro ⟨hl, h⟩
    obtain ⟨⟨name, value⟩, rfl⟩ := List.length_eq_one_iff.mp hl
    obtain ⟨rfl, inner, rfl, writes⟩ := serializeInner_eq_ok_iff.mp h
    exact ⟨inner, rfl, writes⟩
  · rintro ⟨inner, rfl, writes⟩
    exact ⟨rfl, serializeInner_eq_ok_iff.mpr ⟨rfl, inner, rfl, writes⟩⟩

/-- Only nodes of rules that are no choices can be written. -/
theorem exists_rule_of_serialize {node : Node} (h : s.serialize node = .ok tree) :
    ∃ id, s.name id = node.rule ∧ (s.plan id).isChoice = false := by
  obtain ⟨rule, fields⟩ := node
  rw [serialize] at h
  cases hf : s.find? rule with
  | none => simp [hf] at h
  | some id =>
      refine ⟨id, lawful.find?_eq_some_iff.mp hf, ?_⟩
      cases hp : s.plan id with
      | choice alternatives => simp [hf, hp] at h
      | shape root steps | delegate target => rfl

end Lawful
end Shapes
end TreeShape
