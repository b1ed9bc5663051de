import TreeShape.Proofs.RoundTrip

/-!
Well-typed nodes: those with the fields of their rule, each with a value of the sort that its item
asks for. They are the nodes that can be written, and their fields say what tree they are written
as.
-/

namespace TreeShape

/-- The text that a field captures. -/
def Field.text? (field : Field) : Option String :=
  field.value.single?.bind Element.text?

/-- The text that some fields capture. -/
def capturedText (fields : List Field) : Option String :=
  fields.findSome? Field.text?

theorem capturedText_cons (field : Field) (fields : List Field) :
    capturedText (field :: fields) = field.text?.or (capturedText fields) := by
  cases h : field.text? <;> simp [capturedText, h]

/-- The tree of an element that stands for a child. -/
inductive StandsFor (spells : Node → Tree → Prop) : Element → Tree → Prop
  | token (tree : Tree) : StandsFor spells (.token tree) tree
  | node {node : Node} {tree : Tree} : spells node tree → StandsFor spells (.node node) tree

theorem Holds.text?_eq_none {quantifier : Quantifier} {value : FieldValue}
    {elements : List Element} {name : String} (h : Holds quantifier value elements)
    (bare : ∀ element ∈ elements, element.text? = none) : Field.text? ⟨name, value⟩ = none := by
  cases h with
  | one element | present element => exact bare element List.mem_cons_self
  | absent | unset | many | some _ => rfl

namespace Shapes

variable (s : Shapes)

/-- An element that an item may hold, where `typed` says which nodes are well typed. -/
inductive ElementTyped (typed : Node → Prop) : Target → Element → Prop
  | token {tree : Tree} : ElementTyped typed (.token tree.kind) (.token tree)
  | node {rule : String} {node : Node} : s.implements node.rule rule = true → typed node →
      ElementTyped typed (.rule rule) (.node node)

/-- One field for each item, with the name of the item and a value that it may have. -/
inductive FieldsTyped (typed : Node → Prop) : List Item → List Field → Prop
  | nil : FieldsTyped typed [] []
  | text {item : Item} {found : String} {items : List Item} {fields : List Field} :
      item.target = .text → FieldsTyped typed items fields →
      FieldsTyped typed (item :: items) (⟨item.field, .one (.text found)⟩ :: fields)
  | noText {item : Item} {items : List Item} {fields : List Field} : item.target = .text →
      item.quantifier = .optional → FieldsTyped typed items fields →
      FieldsTyped typed (item :: items) (⟨item.field, .empty⟩ :: fields)
  | child {item : Item} {value : FieldValue} {elements : List Element} {items : List Item}
      {fields : List Field} : item.target ≠ .text → Holds item.quantifier value elements →
      (∀ element ∈ elements, s.ElementTyped typed item.target element) →
      FieldsTyped typed items fields →
      FieldsTyped typed (item :: items) (⟨item.field, value⟩ :: fields)

/-- A node of a concrete rule, with the fields of that rule. -/
inductive WellTyped : Node → Prop
  | body {id : s.Id} {body : Body} {fields : List Field} : s.HasBody id body →
      FieldsTyped s WellTyped body.items fields → WellTyped ⟨s.name id, fields⟩
  | wrapped {id : s.Id} {body : Body} {inner : Node} : (s.rule id).form = .leaf body →
      body.delegates = true → s.implements inner.rule body.root = true → WellTyped inner →
      WellTyped (wrap (s.name id) inner)

/-- A node and its tree: the root of its body, the text that its fields capture, and a child for
each other element of its fields, in order. A node that wraps another one has the tree of that. -/
inductive Spells : Node → Tree → Prop
  | body {id : s.Id} {body : Body} {fields : List Field} {children : List Tree} :
      s.HasBody id body → List.Forall₂ (StandsFor Spells) (childElements fields) children →
      Spells ⟨s.name id, fields⟩ ⟨body.root, capturedText fields, children⟩
  | wrapped {id : s.Id} {inner : Node} {tree : Tree} : s.Delegates id → Spells inner tree →
      Spells (wrap (s.name id) inner) tree

/-- A node that may stand for a rule, and its tree. -/
def Stands (typed : Node → Prop) (spells : Node → Tree → Prop) (id : s.Id) (node : Node)
    (tree : Tree) : Prop :=
  s.implements node.rule (s.name id) = true ∧ typed node ∧ spells node tree

variable {s} {typed : Node → Prop} {spells : Node → Tree → Prop}

theorem ElementTyped.text?_eq_none {target : Target} {element : Element}
    (h : s.ElementTyped typed target element) : element.text? = none := by
  cases h <;> rfl

theorem FieldsTyped.typed_of_mem {items : List Item} {fields : List Field}
    (h : s.FieldsTyped typed items fields) {field : Field} (hf : field ∈ fields) {node : Node}
    (he : .node node ∈ field.value.elements) : typed node := by
  induction h with
  | nil => cases hf
  | text _ _ ih =>
      cases hf with
      | head => simp [FieldValue.elements] at he
      | tail _ hf => exact ih hf
  | noText _ _ _ ih =>
      cases hf with
      | head => cases he
      | tail _ hf => exact ih hf
  | @child item _ _ _ _ _ holds suits _ ih =>
      cases hf with
      | head =>
          rw [holds.elements_eq] at he
          have suits := suits _ he
          generalize item.target = target at suits
          cases suits with
          | node _ typed => exact typed
      | tail _ hf => exact ih hf

section Slots

variable {item : Item} {field : String} {accept : Accept s.size} {quantifier : Quantifier}

/-- An element and the child that it goes with, by the target of an item. -/
theorem Resolves.slot_iff (h : s.Resolves item (.child field accept quantifier))
    {element : Element} {tree : Tree} :
    Slot (s.Stands typed spells) accept element tree ↔
      s.ElementTyped typed item.target element ∧ StandsFor spells element tree := by
  cases h with
  | token target =>
      rw [target]
      constructor
      · intro slot
        cases slot with
        | token hk => exact ⟨hk ▸ .token, .token tree⟩
      · intro ⟨fits, stands⟩
        cases fits with
        | token =>
            cases stands
            exact .token rfl
  | rule target =>
      rw [target]
      constructor
      · intro slot
        cases slot with
        | node h => exact ⟨.node h.1 h.2.1, .node h.2.2⟩
      · intro ⟨fits, stands⟩
        cases fits with
        | node implements typed =>
            cases stands with
            | node spelled => exact .node ⟨implements, typed, spelled⟩

theorem Resolves.slots_iff (h : s.Resolves item (.child field accept quantifier))
    {elements : List Element} {segment : List Tree} :
    List.Forall₂ (Slot (s.Stands typed spells) accept) elements segment ↔
      (∀ element ∈ elements, s.ElementTyped typed item.target element) ∧
        List.Forall₂ (StandsFor spells) elements segment := by
  rw [← List.forall₂_and_left]
  exact ⟨fun slots => slots.imp fun _ _ => h.slot_iff.mp,
    fun slots => slots.imp fun _ _ => h.slot_iff.mpr⟩

end Slots

private theorem exists_append_of_forall₂ {α β : Type} {relation : α → β → Prop}
    {xs xs' : List α} {ys : List β} (h : List.Forall₂ relation (xs ++ xs') ys) :
    ∃ zs zs', ys = zs ++ zs' ∧ List.Forall₂ relation xs zs ∧ List.Forall₂ relation xs' zs' := by
  induction xs generalizing ys with
  | nil => exact ⟨[], ys, rfl, .nil, h⟩
  | cons x xs ih =>
      obtain ⟨y, ys, first, others, rfl⟩ := List.forall₂_cons_left_iff.mp h
      obtain ⟨zs, zs', rfl, here, later⟩ := ih others
      exact ⟨y :: zs, zs', rfl, .cons first here, later⟩

section Layouts

variable {items : List Item} {steps : List (Step s.size)} {fields : List Field}
  {text : Option String} {children : List Tree}

/-- Fields along a tree capture its text, if any step does. -/
theorem capturedText_of_layout {related : s.Id → Node → Tree → Prop} {ends : SegmentEnd s.size}
    (h : Layout related ends text steps fields children) :
    capturedText fields = if steps.any (·.capturesText) then text else none := by
  induction h with
  | nil => rfl
  | text ht _ _ =>
      simp [capturedText_cons, Field.text?, FieldValue.single?, Element.text?, ht,
        Step.capturesText]
  | noText ht _ ih => simp [capturedText_cons, Field.text?, FieldValue.single?, ih, ht]
  | child holds slots _ _ ih =>
      rw [capturedText_cons, holds.text?_eq_none (bare_of_slots slots), Option.none_or, ih]
      rfl

/-- Fields along a tree are well typed, and stand for its children. -/
theorem fieldsTyped_of_layout {ends : SegmentEnd s.size}
    (resolves : List.Forall₂ s.Resolves items steps)
    (h : Layout (s.Stands typed spells) ends text steps fields children) :
    s.FieldsTyped typed items fields ∧
      List.Forall₂ (StandsFor spells) (childElements fields) children := by
  induction h generalizing items with
  | nil =>
      cases resolves
      exact ⟨.nil, .nil⟩
  | text _ _ ih =>
      cases resolves with
      | cons resolved resolves =>
          obtain ⟨fields, children⟩ := ih resolves
          cases resolved with
          | text target => exact ⟨.text target fields, children⟩
  | @noText field _ _ _ _ _ ih =>
      cases resolves with
      | @cons item _ _ _ resolved resolves =>
          obtain ⟨fields, children⟩ := ih resolves
          have optional : item.quantifier = .optional := by simpa using resolved.optional_eq.symm
          generalize true = flag at resolved
          cases resolved with
          | text target => exact ⟨.noText target optional fields, children⟩
  | child holds slots _ _ ih =>
      cases resolves with
      | cons resolved resolves =>
          obtain ⟨fields, children⟩ := ih resolves
          obtain ⟨suits, stand⟩ := resolved.slots_iff.mp slots
          rw [holds.childElements_cons (bare_of_slots slots)]
          have target := resolved.target_ne_text
          cases resolved with
          | token _ | rule _ =>
              exact ⟨.child target holds suits fields, List.rel_append stand children⟩

/-- Well-typed fields lie along the children that they stand for. -/
theorem layout_of_fieldsTyped (resolves : List.Forall₂ s.Resolves items steps)
    (single : steps.countP (·.capturesText) ≤ 1) (h : s.FieldsTyped typed items fields)
    (stand : List.Forall₂ (StandsFor spells) (childElements fields) children) :
    Layout (s.Stands typed spells) s.Anywhere (capturedText fields) steps fields children := by
  induction h generalizing steps children with
  | nil =>
      cases resolves
      cases stand
      exact .nil
  | text target _ ih =>
      cases resolves with
      | cons resolved resolves =>
          cases resolved with
          | text _ =>
              obtain ⟨single, others⟩ := Step.others_of_text single
              exact .text rfl ((ih resolves single stand).of_no_capture others)
          | token other | rule other => simp [target] at other
  | noText target optional _ ih =>
      cases resolves with
      | cons resolved resolves =>
          cases resolved with
          | text _ =>
              obtain ⟨single, others⟩ := Step.others_of_text single
              have rest := ih resolves single stand
              have bare := capturedText_of_layout rest
              rw [others] at bare
              rw [optional]
              exact .noText bare rest
          | token other | rule other => simp [target] at other
  | child target holds suits _ ih =>
      have bare := fun element he => (suits element he).text?_eq_none
      rw [holds.childElements_cons bare] at stand
      obtain ⟨segment, rest, rfl, stand, others⟩ := exists_append_of_forall₂ stand
      rw [capturedText_cons, holds.text?_eq_none bare, Option.none_or]
      cases resolves with
      | @cons _ _ _ steps resolved resolves =>
          obtain ⟨accept, rfl⟩ := resolved.exists_accept target
          have slots := resolved.slots_iff.mpr ⟨suits, stand⟩
          have single : steps.countP (·.capturesText) ≤ 1 := by
            simpa [List.countP_cons, Step.capturesText] using single
          exact .child holds slots trivial (ih resolves single others)

end Layouts

theorem HasBody.not_delegates {id : s.Id} {body : Body} (has : s.HasBody id body) :
    ¬ s.Delegates id := by
  intro ⟨other, form, delegates⟩
  cases has.1.symm.trans form
  simp [has.2] at delegates

namespace Lawful

variable (lawful : s.Lawful) {id : s.Id} {fields : List Field} {tree : Tree}
include lawful

theorem spells_body_iff {body : Body} (has : s.HasBody id body) :
    s.Spells ⟨s.name id, fields⟩ tree ↔ tree.kind = body.root ∧
      tree.text = capturedText fields ∧
      List.Forall₂ (StandsFor s.Spells) (childElements fields) tree.children := by
  constructor
  · intro h
    generalize hn : s.name id = rule at h
    cases h with
    | body has' stand =>
        cases lawful.name_injective hn
        cases has.1.symm.trans has'.1
        exact ⟨rfl, rfl, stand⟩
    | wrapped delegates _ =>
        cases lawful.name_injective hn
        exact absurd delegates has.not_delegates
  · obtain ⟨kind, text, children⟩ := tree
    intro ⟨hk, ht, stand⟩
    cases hk
    cases ht
    exact .body has stand

theorem spells_delegate_iff (delegates : s.Delegates id) {inner : Node} :
    s.Spells (wrap (s.name id) inner) tree ↔ s.Spells inner tree := by
  constructor
  · intro h
    generalize hn : wrap (s.name id) inner = node at h
    cases h with
    | body has _ =>
        cases lawful.name_injective (Node.mk.inj hn).1
        exact absurd delegates has.not_delegates
    | wrapped _ spelled =>
        cases (Node.mk.inj hn).2
        exact spelled
  · exact .wrapped delegates

/-- A node is written as a tree exactly if it is well typed and spells that tree. -/
theorem serialize_eq_ok_iff {node : Node} :
    s.serialize node = .ok tree ↔ s.WellTyped node ∧ s.Spells node tree := by
  induction node using Node.nested_induction generalizing tree with
  | step rule fields ih =>
      -- Of the nodes in the fields, writing says the same as typing and spelling.
      have within : ∀ field ∈ fields, ∀ node, .node node ∈ field.value.elements →
          ∀ {id tree}, s.Writes id node tree ↔ s.Stands s.WellTyped s.Spells id node tree :=
        fun field hf node he => and_congr_right fun _ => ih field hf node he
      constructor
      · intro h
        obtain ⟨id, rfl, choice⟩ := lawful.exists_rule_of_serialize h
        cases hp : s.plan id with
        | shape root steps =>
            obtain ⟨body, has, rfl, resolves⟩ := lawful.body_of_shape hp
            obtain ⟨kind, text, layout⟩ := (lawful.serialize_shape_iff hp).mp h
            have layout := layout.mono_of_mem (fun h => h) fun field hf node he =>
              (within field hf node he).mp
            obtain ⟨typed, stand⟩ := fieldsTyped_of_layout resolves layout
            have captured : tree.text = capturedText fields := by
              rw [capturedText_of_layout layout]
              split
              · rfl
              · next none => exact text (by simpa using none)
            exact ⟨.body has typed, (lawful.spells_body_iff has).mpr ⟨kind, captured, stand⟩⟩
        | delegate target =>
            obtain ⟨body, form, delegates, root⟩ := lawful.body_of_delegate hp
            obtain ⟨inner, rfl, writes⟩ := (lawful.serialize_delegate_iff hp).mp h
            obtain ⟨implements, typed, spelled⟩ :=
              (within _ List.mem_cons_self inner List.mem_cons_self).mp writes
            exact ⟨.wrapped form delegates (root ▸ implements) typed,
              .wrapped ⟨body, form, delegates⟩ spelled⟩
        | choice alternatives => simp [hp, Plan.isChoice] at choice
      · rintro ⟨typed, spelled⟩
        cases typed with
        | body has typed =>
            obtain ⟨steps, hp, resolves⟩ := lawful.shape_of_body has
            obtain ⟨kind, text, stand⟩ := (lawful.spells_body_iff has).mp spelled
            have single := lawful.countP_capturesText_le hp
            have layout := layout_of_fieldsTyped resolves single typed stand
            have bare : steps.any (·.capturesText) = false → tree.text = none := by
              intro none
              rw [text, capturedText_of_layout layout, none]
              rfl
            have layout := layout.mono_of_mem (fun h => h) fun field hf node he =>
              (within field hf node he).mpr
            exact (lawful.serialize_shape_iff hp).mpr ⟨kind, bare, text ▸ layout⟩
        | @wrapped id body inner form delegates implements typed =>
            obtain ⟨target, hp, root⟩ := lawful.delegate_of_body form delegates
            have spelled := (lawful.spells_delegate_iff ⟨body, form, delegates⟩).mp spelled
            have writes := (within _ List.mem_cons_self inner List.mem_cons_self).mpr
              ⟨root ▸ implements, typed, spelled⟩
            exact (lawful.serialize_delegate_iff hp).mpr ⟨inner, rfl, writes⟩

end Lawful

/-- Every well-typed node spells some tree. -/
theorem WellTyped.exists_spells {node : Node} (h : s.WellTyped node) :
    ∃ tree, s.Spells node tree := by
  induction node using Node.nested_induction with
  | step rule fields ih =>
      cases h with
      | body has typed =>
          have each : ∀ element ∈ childElements fields,
              ∃ tree, StandsFor s.Spells element tree := by
            intro element he
            cases element with
            | token tree => exact ⟨tree, .token tree⟩
            | node node =>
                obtain ⟨field, hf, he⟩ := mem_childElements_node.mp he
                obtain ⟨tree, spelled⟩ := ih field hf node he (typed.typed_of_mem hf he)
                exact ⟨tree, .node spelled⟩
            | text found => simp [childElements, Element.text?] at he
          obtain ⟨children, stand⟩ := exists_forall₂_iff.mpr each
          exact ⟨_, .body has stand⟩
      | wrapped form delegates _ typed =>
          obtain ⟨tree, spelled⟩ := ih _ List.mem_cons_self _ List.mem_cons_self typed
          exact ⟨tree, .wrapped ⟨_, form, delegates⟩ spelled⟩

/-- The nodes that can be written are the well-typed ones, and each is written as the tree that it
spells. No node of a choice or of an unknown rule is among them. -/
theorem serialize_iff_wellTyped {schema : Schema} (hc : compile schema = .ok s) (node : Node) :
    ((∃ tree, s.serialize node = .ok tree) ↔ s.WellTyped node) ∧
    (∀ tree, s.serialize node = .ok tree ↔ s.WellTyped node ∧ s.Spells node tree) ∧
    (s.WellTyped node → ∃ id body, s.name id = node.rule ∧ (s.rule id).form = .leaf body) := by
  have written : ∀ tree, s.serialize node = .ok tree ↔ s.WellTyped node ∧ s.Spells node tree :=
    fun _ => (lawful_of_compile hc).2.serialize_eq_ok_iff
  refine ⟨⟨?_, ?_⟩, written, ?_⟩
  · intro ⟨tree, h⟩
    exact ((written tree).mp h).1
  · intro typed
    obtain ⟨tree, spelled⟩ := typed.exists_spells
    exact ⟨tree, (written tree).mpr ⟨typed, spelled⟩⟩
  · intro typed
    cases typed with
    | body has _ => exact ⟨_, _, rfl, has.1⟩
    | wrapped form _ _ _ => exact ⟨_, _, rfl, form⟩

/-- The statement of `annotatedIf`, spelled without the text that is lost, and the same statement
with a block for its condition. -/
theorem serialize_iff_wellTyped_statements :
    statementShapes.WellTyped annotatedIfNode ∧
      statementShapes.Spells annotatedIfNode ⟨"IF", none,
        [⟨"PAREN", some "n", [⟨"IDENT", some "a", []⟩]⟩, ⟨"BLOCK", none, []⟩,
          ⟨"ELSE", some "kept", []⟩]⟩ ∧
      ¬ statementShapes.WellTyped ⟨"ifStmt", [
        ⟨"cond", .one (.node ⟨"block", [⟨"items", .empty⟩]⟩)⟩,
        ⟨"body", .many [.node ⟨"block", [⟨"items", .many []⟩]⟩]⟩, ⟨"mark", .empty⟩]⟩ := by
  have good := (serialize_iff_wellTyped compile_statements annotatedIfNode).2.1
  have written := (good _).mp rfl
  refine ⟨written.1, written.2, fun typed => ?_⟩
  obtain ⟨tree, h⟩ := (serialize_iff_wellTyped compile_statements _).1.mpr typed
  cases h

end Shapes
end TreeShape
