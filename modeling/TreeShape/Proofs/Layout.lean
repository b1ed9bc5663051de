import Mathlib.Data.List.Forall2
import TreeShape.Proofs.Nesting
import TreeShape.Shapes.Plan

/-!
How the fields of a node lie along the children of a tree: each step has one field, and each field
of children stands for a segment of them, in order. Reading a tree and writing a node both give
such layouts. They differ in how an element goes with a child, and in that reading also asks where
a segment has to end.
-/

namespace TreeShape

/-- The elements that a value holds in a field of children. Only a collection that may be empty can
do so in two ways. -/
inductive Holds : Quantifier → FieldValue → List Element → Prop
  | one (element : Element) : Holds .one (.one element) [element]
  | absent : Holds .optional .empty []
  | present (element : Element) : Holds .optional (.one element) [element]
  | unset : Holds .zeroOrMore .empty []
  | many (elements : List Element) : Holds .zeroOrMore (.many elements) elements
  | some {elements : List Element} : elements ≠ [] → Holds .oneOrMore (.many elements) elements

theorem Holds.elements_eq {quantifier : Quantifier} {value : FieldValue}
    {elements : List Element} (h : Holds quantifier value elements) :
    value.elements = elements := by
  cases h <;> rfl

section

variable {n : Nat}

def Step.capturesText : Step n → Bool
  | .text _ _ => true
  | .child _ _ _ => false

/-- After the one step that captures text no other one does. -/
theorem Step.others_of_text {field : String} {optional : Bool} {steps : List (Step n)}
    (single : (Step.text field optional :: steps).countP (·.capturesText) ≤ 1) :
    steps.countP (·.capturesText) ≤ 1 ∧ steps.any (·.capturesText) = false := by
  have zero : steps.countP (·.capturesText) = 0 := by
    simpa [List.countP_cons, capturesText] using single
  exact ⟨by omega, by simpa [List.countP_eq_zero] using zero⟩

/-- An element of a step goes with a child: as the child itself, or as a node related to it. -/
inductive Slot (related : Fin n → Node → Tree → Prop) : Accept n → Element → Tree → Prop
  | token {kind : String} {tree : Tree} : tree.kind = kind →
      Slot related (.token kind) (.token tree) tree
  | node {id : Fin n} {node : Node} {tree : Tree} : related id node tree →
      Slot related (.rule id) (.node node) tree

/-- Whether a segment may end before the children that remain. -/
abbrev SegmentEnd (n : Nat) : Type :=
  Accept n → Quantifier → FieldValue → (rest : List Tree) → Prop

/-- The fields for some steps, along the text and the children of a tree. -/
inductive Layout (related : Fin n → Node → Tree → Prop) (ends : SegmentEnd n)
    (text : Option String) : List (Step n) → List Field → List Tree → Prop
  | nil : Layout related ends text [] [] []
  | text {field found : String} {optional : Bool} {steps : List (Step n)} {fields : List Field}
      {children : List Tree} : text = some found → Layout related ends text steps fields children →
      Layout related ends text (.text field optional :: steps)
        (⟨field, .one (.text found)⟩ :: fields) children
  | noText {field : String} {steps : List (Step n)} {fields : List Field}
      {children : List Tree} : text = none → Layout related ends text steps fields children →
      Layout related ends text (.text field true :: steps) (⟨field, .empty⟩ :: fields) children
  | child {field : String} {accept : Accept n} {quantifier : Quantifier} {value : FieldValue}
      {elements : List Element} {segment rest : List Tree} {steps : List (Step n)}
      {fields : List Field} : Holds quantifier value elements →
      List.Forall₂ (Slot related accept) elements segment → ends accept quantifier value rest →
      Layout related ends text steps fields rest →
      Layout related ends text (.child field accept quantifier :: steps)
        (⟨field, value⟩ :: fields) (segment ++ rest)

namespace Layout

variable {related : Fin n → Node → Tree → Prop} {ends : SegmentEnd n} {text : Option String}
  {steps : List (Step n)} {fields : List Field} {children : List Tree}

theorem length_eq (h : Layout related ends text steps fields children) :
    fields.length = steps.length := by
  induction h with
  | nil => rfl
  | text _ _ ih | noText _ _ ih | child _ _ _ _ ih => simp [ih]

/-- A layout stays one if those nodes that it holds go with their children in another way. -/
theorem mono_of_mem {related' : Fin n → Node → Tree → Prop}
    {ends' : SegmentEnd n} (later : ∀ {accept quantifier value rest},
      ends accept quantifier value rest → ends' accept quantifier value rest)
    (h : Layout related ends text steps fields children)
    (weaker : ∀ field ∈ fields, ∀ node, .node node ∈ field.value.elements →
      ∀ {id tree}, related id node tree → related' id node tree) :
    Layout related' ends' text steps fields children := by
  induction h with
  | nil => exact .nil
  | text ht _ ih => exact .text ht (ih fun field hf => weaker field (List.mem_cons_of_mem _ hf))
  | noText ht _ ih => exact .noText ht (ih fun field hf => weaker field (List.mem_cons_of_mem _ hf))
  | child holds slots hends _ ih =>
      have others := ih fun field hf => weaker field (List.mem_cons_of_mem _ hf)
      refine .child holds (List.forall₂_iff_zip.mpr ⟨slots.length_eq, fun hm => ?_⟩) (later hends)
        others
      have held := (List.of_mem_zip hm).1
      rw [← holds.elements_eq] at held
      cases (List.forall₂_iff_zip.mp slots).2 hm with
      | token hk => exact .token hk
      | node hr => exact .node (weaker _ List.mem_cons_self _ held hr)

/-- A layout stays one if more nodes go with the children. -/
theorem mono {related' : Fin n → Node → Tree → Prop}
    (weaker : ∀ {id node tree}, related id node tree → related' id node tree)
    {ends' : SegmentEnd n} (later : ∀ {accept quantifier value rest},
      ends accept quantifier value rest → ends' accept quantifier value rest)
    (h : Layout related ends text steps fields children) :
    Layout related' ends' text steps fields children :=
  h.mono_of_mem later fun _ _ _ _ => weaker

/-- Text does not matter where no step captures it. -/
theorem of_no_capture {text' : Option String} (h : Layout related ends text steps fields children)
    (none : steps.any (·.capturesText) = false) :
    Layout related ends text' steps fields children := by
  induction h with
  | nil => exact .nil
  | text _ _ _ | noText _ _ _ => simp [Step.capturesText] at none
  | child holds slots hends _ ih =>
      exact .child holds slots hends (ih (by simpa [Step.capturesText] using none))

end Layout
end
end TreeShape
