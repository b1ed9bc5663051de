import TreeShape.Tree

/-!
Typed nodes: what a tree means under the rule it was read by. A node has one field for each item of
its rule, in order; a node of a rule that hands on to another one has the single field `inner`.
-/

namespace TreeShape

mutual

structure Node where
  rule : String
  fields : List Field

structure Field where
  name : String
  value : FieldValue

/-- What a field holds: nothing, a single element, or a collection. -/
inductive FieldValue where
  | empty
  | one (element : Element)
  | many (elements : List Element)

/-- A node read by a rule, a child kept as it is, or the text of the node itself. -/
inductive Element where
  | node (node : Node)
  | token (tree : Tree)
  | text (text : String)

end

namespace Node

/-- The value of the first field with this name. -/
def get? (node : Node) (name : String) : Option FieldValue :=
  (node.fields.find? (·.name == name)).map (·.value)

end Node

namespace FieldValue

def ofOption : Option Element → FieldValue
  | none => .empty
  | some element => .one element

def isEmpty : FieldValue → Bool
  | .empty => true
  | .one _ => false
  | .many elements => elements.isEmpty

def single? : FieldValue → Option Element
  | .one element => some element
  | .empty | .many _ => none

def collection : FieldValue → List Element
  | .many elements => elements
  | .empty | .one _ => []

end FieldValue

namespace Element

def node? : Element → Option Node
  | .node n => some n
  | .token _ | .text _ => none

def token? : Element → Option Tree
  | .token t => some t
  | .node _ | .text _ => none

def text? : Element → Option String
  | .text s => some s
  | .node _ | .token _ => none

end Element

mutual

def Node.decEq : (a b : Node) → Decidable (a = b)
  | ⟨rule, fields⟩, ⟨rule', fields'⟩ =>
    if hr : rule = rule' then
      match Field.decEqAll fields fields' with
      | isTrue hf => isTrue (by rw [hr, hf])
      | isFalse hf => isFalse fun h => hf (Node.mk.inj h).2
    else isFalse fun h => hr (Node.mk.inj h).1

def Field.decEqAll : (as bs : List Field) → Decidable (as = bs)
  | [], [] => isTrue rfl
  | a :: as, b :: bs =>
    match Field.decEq a b with
    | isTrue ha =>
      match Field.decEqAll as bs with
      | isTrue hs => isTrue (by rw [ha, hs])
      | isFalse hs => isFalse fun h => hs (List.cons.inj h).2
    | isFalse ha => isFalse fun h => ha (List.cons.inj h).1
  | [], _ :: _ | _ :: _, [] => isFalse nofun

def Field.decEq : (a b : Field) → Decidable (a = b)
  | ⟨name, value⟩, ⟨name', value'⟩ =>
    if hn : name = name' then
      match FieldValue.decEq value value' with
      | isTrue hv => isTrue (by rw [hn, hv])
      | isFalse hv => isFalse fun h => hv (Field.mk.inj h).2
    else isFalse fun h => hn (Field.mk.inj h).1

def FieldValue.decEq : (a b : FieldValue) → Decidable (a = b)
  | .empty, .empty => isTrue rfl
  | .one a, .one b =>
    match Element.decEq a b with
    | isTrue h => isTrue (by rw [h])
    | isFalse h => isFalse fun e => h (FieldValue.one.inj e)
  | .many as, .many bs =>
    match Element.decEqAll as bs with
    | isTrue h => isTrue (by rw [h])
    | isFalse h => isFalse fun e => h (FieldValue.many.inj e)
  | .empty, .one _ | .empty, .many _ | .one _, .empty | .one _, .many _ | .many _, .empty
  | .many _, .one _ => isFalse nofun

def Element.decEqAll : (as bs : List Element) → Decidable (as = bs)
  | [], [] => isTrue rfl
  | a :: as, b :: bs =>
    match Element.decEq a b with
    | isTrue ha =>
      match Element.decEqAll as bs with
      | isTrue hs => isTrue (by rw [ha, hs])
      | isFalse hs => isFalse fun h => hs (List.cons.inj h).2
    | isFalse ha => isFalse fun h => ha (List.cons.inj h).1
  | [], _ :: _ | _ :: _, [] => isFalse nofun

def Element.decEq : (a b : Element) → Decidable (a = b)
  | .node a, .node b =>
    match Node.decEq a b with
    | isTrue h => isTrue (by rw [h])
    | isFalse h => isFalse fun e => h (Element.node.inj e)
  | .token a, .token b =>
    if h : a = b then isTrue (by rw [h]) else isFalse fun e => h (Element.token.inj e)
  | .text a, .text b =>
    if h : a = b then isTrue (by rw [h]) else isFalse fun e => h (Element.text.inj e)
  | .node _, .token _ | .node _, .text _ | .token _, .node _ | .token _, .text _ | .text _, .node _
  | .text _, .token _ => isFalse nofun

end

instance : DecidableEq Node := Node.decEq
instance : DecidableEq Field := Field.decEq
instance : DecidableEq FieldValue := FieldValue.decEq
instance : DecidableEq Element := Element.decEq

end TreeShape
