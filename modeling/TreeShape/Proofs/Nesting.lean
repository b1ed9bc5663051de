import TreeShape.Node

/-!
Trees within trees and nodes within nodes, with the inductions that follow the nesting.
-/

namespace TreeShape

theorem Tree.nested_induction {motive : Tree → Prop}
    (step : ∀ kind text children, (∀ child ∈ children, motive child) →
      motive ⟨kind, text, children⟩) (tree : Tree) : motive tree :=
  match tree with
  | ⟨kind, text, children⟩ => step kind text children fun child _ => nested_induction step child
termination_by sizeOf tree
decreasing_by
  have := List.sizeOf_lt_of_mem ‹child ∈ children›
  simp only [Tree.mk.sizeOf_spec]
  omega

/-- What a field holds, one element after the other. -/
def FieldValue.elements : FieldValue → List Element
  | .empty => []
  | .one element => [element]
  | .many elements => elements

theorem FieldValue.sizeOf_lt_of_mem_elements {value : FieldValue} {element : Element}
    (h : element ∈ value.elements) : sizeOf element < sizeOf value := by
  cases value with
  | empty => cases h
  | one held =>
      cases List.mem_singleton.mp h
      simp
  | many held =>
      have : sizeOf element < sizeOf held := List.sizeOf_lt_of_mem h
      simp only [FieldValue.many.sizeOf_spec]
      omega

theorem Node.nested_induction {motive : Node → Prop}
    (step : ∀ rule fields, (∀ field ∈ fields, ∀ inner, .node inner ∈ field.value.elements →
      motive inner) → motive ⟨rule, fields⟩) (node : Node) : motive node :=
  match node with
  | ⟨rule, fields⟩ => step rule fields fun field _ inner _ => nested_induction step inner
termination_by sizeOf node
decreasing_by
  have hf := List.sizeOf_lt_of_mem ‹field ∈ fields›
  have he := FieldValue.sizeOf_lt_of_mem_elements ‹Element.node inner ∈ field.value.elements›
  obtain ⟨name, value⟩ := field
  simp only [Field.mk.sizeOf_spec, Element.node.sizeOf_spec, Node.mk.sizeOf_spec] at *
  omega

/-- A node that a value holds, or that is nested in a node it holds, at any depth. -/
inductive FieldValue.Nested : FieldValue → Node → Prop
  | held {value : FieldValue} {node : Node} : .node node ∈ value.elements → Nested value node
  | deeper {value : FieldValue} {node inner : Node} {field : Field} :
      .node node ∈ value.elements → field ∈ node.fields → Nested field.value inner →
      Nested value inner

end TreeShape
