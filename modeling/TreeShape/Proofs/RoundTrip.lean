import TreeShape.Proofs.Capability
import TreeShape.Proofs.Reading

/-!
Reading a tree and writing the node gives the tree back, less the text of those nodes whose body
does not capture it. Reading the result gives the same node again.
-/

namespace TreeShape

def Body.capturesText (body : Body) : Bool :=
  body.items.any (·.capturesText)

/-- The elements of some fields that stand for children. -/
def childElements (fields : List Field) : List Element :=
  fields.flatMap fun field => field.value.elements.filter (·.text?.isNone)

/-- Children, one for each element, and what is kept of them: all of a token, and what `kept` says
of a node. -/
inductive Along (kept : Node → Tree → Tree → Prop) :
    List Element → List Tree → List Tree → Prop
  | nil : Along kept [] [] []
  | token {token : Tree} {elements : List Element} {children left : List Tree} :
      Along kept elements children left →
      Along kept (.token token :: elements) (token :: children) (token :: left)
  | node {node : Node} {child rest : Tree} {elements : List Element}
      {children left : List Tree} : kept node child rest → Along kept elements children left →
      Along kept (.node node :: elements) (child :: children) (rest :: left)

namespace Along

variable {kept : Node → Tree → Tree → Prop} {elements : List Element} {children left : List Tree}

theorem append (first : Along kept elements children left) {elements' : List Element}
    {children' left' : List Tree} (second : Along kept elements' children' left') :
    Along kept (elements ++ elements') (children ++ children') (left ++ left') := by
  induction first with
  | nil => exact second
  | token _ ih => exact .token ih
  | node h _ ih => exact .node h ih

theorem map_kind_eq (same : ∀ {node tree rest}, kept node tree rest → rest.kind = tree.kind)
    (h : Along kept elements children left) : left.map (·.kind) = children.map (·.kind) := by
  induction h with
  | nil => rfl
  | token _ ih => simp [ih]
  | node h _ ih => simp [ih, same h]

theorem eq_of_node_eq (h : Along kept elements children left)
    (same : ∀ {node child rest}, (.node node, child) ∈ elements.zip children →
      kept node child rest → rest = child) : left = children := by
  induction h with
  | nil => rfl
  | token _ ih => rw [ih fun hm => same (List.mem_cons_of_mem _ hm)]
  | node h _ ih =>
      rw [ih fun hm => same (List.mem_cons_of_mem _ hm), same List.mem_cons_self h]

end Along

theorem Holds.childElements_cons {quantifier : Quantifier} {value : FieldValue}
    {elements : List Element} (h : Holds quantifier value elements)
    (bare : ∀ element ∈ elements, element.text? = none) (name : String) (fields : List Field) :
    childElements (⟨name, value⟩ :: fields) = elements ++ childElements fields := by
  have all : elements.filter (·.text?.isNone) = elements :=
    List.filter_eq_self.mpr fun element he => by simp [bare element he]
  simp [childElements, h.elements_eq, all]

theorem mem_childElements_node {fields : List Field} {node : Node} :
    .node node ∈ childElements fields ↔ ∃ field ∈ fields, .node node ∈ field.value.elements := by
  simp [childElements, Element.text?]

namespace Shapes

variable (s : Shapes)

/-- A node that was read from a tree, and the tree less the text of each node in it that was matched
by a body which captures no text. -/
inductive Pruned : Node → Tree → Tree → Prop
  | body {id : s.Id} {body : Body} {fields : List Field} {kind : String} {text : Option String}
      {children left : List Tree} : s.HasBody id body →
      Along Pruned (childElements fields) children left →
      Pruned ⟨s.name id, fields⟩ ⟨kind, text, children⟩
        ⟨kind, if body.capturesText then text else none, left⟩
  | wrapped {id : s.Id} {inner : Node} {tree rest : Tree} : s.Delegates id →
      Pruned inner tree rest → Pruned (wrap (s.name id) inner) tree rest

/-- The nodes in a tree that were matched by a body which captures no text. -/
inductive Bare : Node → Tree → Tree → Prop
  | here {id : s.Id} {body : Body} {fields : List Field} {tree : Tree} : s.HasBody id body →
      body.capturesText = false → Bare ⟨s.name id, fields⟩ tree tree
  | child {id : s.Id} {body : Body} {fields : List Field} {tree child found : Tree}
      {inner : Node} : s.HasBody id body →
      (.node inner, child) ∈ (childElements fields).zip tree.children →
      Bare inner child found → Bare ⟨s.name id, fields⟩ tree found
  | wrapped {id : s.Id} {inner : Node} {tree found : Tree} : s.Delegates id →
      Bare inner tree found → Bare (wrap (s.name id) inner) tree found

variable {s}

namespace Pruned

variable {node : Node} {tree rest : Tree}

theorem kind_eq (h : s.Pruned node tree rest) : rest.kind = tree.kind := by
  induction node using Node.nested_induction generalizing tree rest with
  | step rule fields ih =>
      cases h with
      | body _ _ => rfl
      | wrapped _ h => exact ih _ List.mem_cons_self _ List.mem_cons_self h

/-- Nothing is lost where no text could be. -/
theorem eq_of_bare (h : s.Pruned node tree rest)
    (bare : ∀ {found}, s.Bare node tree found → found.text = none) : rest = tree := by
  induction node using Node.nested_induction generalizing tree rest with
  | step rule fields ih =>
      cases h with
      | @body id body fields kind text children left has along =>
          have text_eq : (if body.capturesText then text else none) = text := by
            split
            · rfl
            · next captures => exact (bare (.here has (by simpa using captures))).symm
          have left_eq : left = children := by
            apply along.eq_of_node_eq
            intro node child rest hm h
            obtain ⟨field, hf, he⟩ := mem_childElements_node.mp (List.of_mem_zip hm).1
            exact ih field hf node he h fun hb => bare (.child has hm hb)
          rw [text_eq, left_eq]
      | wrapped delegates h =>
          apply ih _ List.mem_cons_self _ List.mem_cons_self h
          exact fun hb => bare (.wrapped delegates hb)

end Pruned

theorem Greedy.of_map_kind_eq {accept : Accept s.size} {quantifier : Quantifier}
    {value : FieldValue} {rest rest' : List Tree} (h : s.Greedy accept quantifier value rest)
    (same : rest'.map (·.kind) = rest.map (·.kind)) :
    s.Greedy accept quantifier value rest' := by
  refine ⟨h.1, fun ends child hc => ?_⟩
  have head : rest.head?.map (·.kind) = some child.kind := by
    rw [← List.head?_map, ← same, List.head?_map, Option.mem_def.mp hc]
    rfl
  obtain ⟨other, ho, he⟩ := Option.map_eq_some_iff.mp head
  exact he ▸ h.2 ends other ho

variable (s) in
/-- A node that is written as a tree, and read from it. -/
def Exchanges (id : s.Id) (node : Node) (tree : Tree) : Prop :=
  s.Writes id node tree ∧ s.Parses id node tree

/-- What reading and writing one node comes to. -/
structure RoundTrip (id : s.Id) (node : Node) (tree rest : Tree) : Prop where
  pruned : s.Pruned node tree rest
  exchanges : s.Exchanges id node rest

private theorem slots_round_trip {accept : Accept s.size} {elements : List Element}
    {segment : List Tree} (h : List.Forall₂ (Slot s.Parses accept) elements segment)
    (ih : ∀ child ∈ segment, ∀ {id node}, s.Parses id node child →
      ∃ rest, RoundTrip id node child rest) :
    ∃ left, Along s.Pruned elements segment left ∧
      List.Forall₂ (Slot s.Exchanges accept) elements left := by
  induction h with
  | nil => exact ⟨[], .nil, .nil⟩
  | cons slot _ ihs =>
      obtain ⟨left, along, slots⟩ := ihs fun child hc => ih child (List.mem_cons_of_mem _ hc)
      cases slot with
      | token hk => exact ⟨_ :: left, .token along, .cons (.token hk) slots⟩
      | node hp =>
          obtain ⟨rest, trip⟩ := ih _ List.mem_cons_self hp
          exact ⟨rest :: left, .node trip.pruned along, .cons (.node trip.exchanges) slots⟩

theorem bare_of_slots {related : s.Id → Node → Tree → Prop} {accept : Accept s.size}
    {elements : List Element} {segment : List Tree}
    (h : List.Forall₂ (Slot related accept) elements segment) :
    ∀ element ∈ elements, element.text? = none := by
  intro element he
  obtain ⟨child, _, slot⟩ := exists_mem_of_forall₂ h he
  cases slot <;> rfl

/-- Along the children that are kept, the fields can be both read and written. -/
private theorem layout_round_trip {text : Option String} {steps : List (Step s.size)}
    {fields : List Field} {children : List Tree}
    (h : Layout s.Parses s.Greedy text steps fields children)
    (ih : ∀ child ∈ children, ∀ {id node}, s.Parses id node child →
      ∃ rest, RoundTrip id node child rest) :
    ∃ left, Along s.Pruned (childElements fields) children left ∧
      Layout s.Exchanges s.Greedy text steps fields left := by
  induction h with
  | nil => exact ⟨[], .nil, .nil⟩
  | text ht _ ihl =>
      obtain ⟨left, along, layout⟩ := ihl ih
      exact ⟨left, along, .text ht layout⟩
  | noText ht _ ihl =>
      obtain ⟨left, along, layout⟩ := ihl ih
      exact ⟨left, along, .noText ht layout⟩
  | @child field accept quantifier value elements segment rest _ fields holds slots greedy _ ihl =>
      obtain ⟨kept, alongKept, keptSlots⟩ :=
        slots_round_trip slots fun child hc => ih child (List.mem_append_left _ hc)
      obtain ⟨left, along, layout⟩ := ihl fun child hc => ih child (List.mem_append_right _ hc)
      -- Where a segment ends depends on kinds alone, and those are kept.
      have same := along.map_kind_eq Pruned.kind_eq
      rw [holds.childElements_cons (bare_of_slots slots)]
      exact ⟨kept ++ left, alongKept.append along,
        .child holds keptSlots (greedy.of_map_kind_eq same) layout⟩

namespace Lawful

variable (lawful : s.Lawful) {id : s.Id}
include lawful

/-- Reading by a body, once the children are settled. -/
private theorem shape_round_trip {root : String} {steps : List (Step s.size)} {tree : Tree}
    {node : Node} (hp : s.plan id = .shape root steps) (h : s.parse tree id = .ok node)
    (ih : ∀ child ∈ tree.children, ∀ {id node}, s.Parses id node child →
      ∃ rest, RoundTrip id node child rest) :
    ∃ rest, RoundTrip id node tree rest := by
  obtain ⟨kind, text, children⟩ := tree
  obtain ⟨rfl, fields, rfl, layout⟩ := (lawful.parse_shape_iff hp).mp h
  obtain ⟨left, along, both⟩ := layout_round_trip layout ih
  obtain ⟨body, has, _, resolves⟩ := lawful.body_of_shape hp
  have captures : steps.any (·.capturesText) = body.capturesText := any_capturesText_eq resolves
  have both : Layout s.Exchanges s.Greedy (if body.capturesText then text else none) steps fields
      left := by
    split
    · exact both
    · next none => exact both.of_no_capture (by rw [captures]; simpa using none)
  have parses : s.parse ⟨kind, if body.capturesText then text else none, left⟩ id =
      .ok ⟨s.name id, fields⟩ := by
    refine (lawful.parse_shape_iff hp).mpr ⟨rfl, fields, rfl, ?_⟩
    exact both.mono (fun h => h.2) fun h => h
  have written : s.serialize ⟨s.name id, fields⟩ =
      .ok ⟨kind, if body.capturesText then text else none, left⟩ := by
    refine (lawful.serialize_shape_iff hp).mpr ⟨rfl, ?_, both.mono (fun h => h.1) fun _ => trivial⟩
    intro none
    rw [captures] at none
    simp [none]
  exact ⟨_, .body has along, ⟨lawful.implements_of_parse parses, written⟩, parses⟩

theorem exists_round_trip {node : Node} {tree : Tree} (h : s.parse tree id = .ok node) :
    ∃ rest, RoundTrip id node tree rest := by
  induction id, tree using lawful.reading_induction generalizing node with
  | shape id tree root steps hp ih =>
      exact lawful.shape_round_trip hp h fun child hc id _ => ih child hc id
  | delegate id tree target hp ih =>
      obtain ⟨inner, hi, rfl⟩ := (lawful.parse_delegate_eq_ok_iff hp).mp h
      obtain ⟨rest, pruned, writes, parsed⟩ := ih hi
      obtain ⟨body, form, delegates, _⟩ := lawful.body_of_delegate hp
      have parses : s.parse rest id = .ok (wrap (s.name id) inner) :=
        (lawful.parse_delegate_eq_ok_iff hp).mpr ⟨inner, parsed, rfl⟩
      have written : s.serialize (wrap (s.name id) inner) = .ok rest :=
        (lawful.serialize_delegate_iff hp).mpr ⟨inner, rfl, writes⟩
      exact ⟨rest, .wrapped ⟨body, form, delegates⟩ pruned,
        ⟨lawful.implements_of_parse parses, written⟩, parses⟩
  | choice id tree alternatives hp ih =>
      obtain ⟨alternative, found, ha⟩ := (lawful.parse_choice_eq_ok_iff hp).mp h
      obtain ⟨rest, pruned, writes, parsed⟩ := ih alternative (List.mem_of_find?_eq_some found) ha
      have parses : s.parse rest id = .ok node := by
        refine (lawful.parse_choice_eq_ok_iff hp).mpr ⟨alternative, ?_, parsed⟩
        rw [pruned.kind_eq]
        exact found
      exact ⟨rest, pruned, ⟨lawful.implements_of_parse parses, writes.2⟩, parses⟩

end Lawful

/-- A node that was read is written as the tree it was read from, less the text that no body
captured, and is read from that tree again. -/
theorem serialize_of_parse {schema : Schema} (hc : compile schema = .ok s) {id : s.Id}
    {tree : Tree} {node : Node} (h : s.parse tree id = .ok node) :
    ∃ rest, s.serialize node = .ok rest ∧ s.Pruned node tree rest ∧
      ((∀ found, s.Bare node tree found → found.text = none) → rest = tree) ∧
      s.parse rest id = .ok node := by
  obtain ⟨rest, pruned, writes, parses⟩ := (lawful_of_compile hc).2.exists_round_trip h
  exact ⟨rest, writes.2, pruned, fun bare => pruned.eq_of_bare fun hb => bare _ hb, parses⟩

/-- A statement with text at a body that does not capture it, at one that does, and at a token. -/
def annotatedIf : Tree :=
  ⟨"IF", some "lost", [⟨"PAREN", some "n", [⟨"IDENT", some "a", []⟩]⟩, ⟨"BLOCK", some "lost", []⟩,
    ⟨"ELSE", some "kept", []⟩]⟩

def annotatedIfNode : Node :=
  ⟨"ifStmt", [
    ⟨"cond", .one (.node (wrap "paren" ⟨"group", [
      ⟨"note", .one (.text "n")⟩,
      ⟨"expr", .one (.node ⟨"ident", [⟨"name", .one (.text "a")⟩]⟩)⟩]⟩))⟩,
    ⟨"body", .many [.node ⟨"block", [⟨"items", .many []⟩]⟩]⟩,
    ⟨"mark", .one (.token ⟨"ELSE", some "kept", []⟩)⟩]⟩

theorem serialize_annotatedIfNode :
    ∃ rest, statementShapes.serialize annotatedIfNode = .ok rest ∧
      statementShapes.Pruned annotatedIfNode annotatedIf rest ∧
      ((∀ found, statementShapes.Bare annotatedIfNode annotatedIf found → found.text = none) →
        rest = annotatedIf) ∧
      statementShapes.parse rest ⟨0, by decide⟩ = .ok annotatedIfNode :=
  have h : statementShapes.parse annotatedIf ⟨0, by decide⟩ = .ok annotatedIfNode := by rfl
  serialize_of_parse compile_statements h

end Shapes
end TreeShape
