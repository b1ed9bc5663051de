import TreeShape.Proofs.Language

/-!
How a body cuts the children of a node: into one segment for each item, none of which could have
gone on. There is at most one such cut, whatever the items have in common, and a body reads a node
exactly if there is one; the fields of what it reads hold the elements of the segments.
-/

namespace TreeShape

/-- The items that are for children. -/
def childItems (items : List Item) : List Item :=
  items.filter (!·.capturesText)

theorem childItems_cons_of_text {item : Item} {items : List Item} (h : item.capturesText = true) :
    childItems (item :: items) = childItems items :=
  List.filter_cons_of_neg (by simp [h])

theorem childItems_cons_of_child {item : Item} {items : List Item}
    (h : item.capturesText = false) : childItems (item :: items) = item :: childItems items :=
  List.filter_cons_of_pos (by simp [h])

/-- The value of a field that holds some elements. -/
def Quantifier.collect : Quantifier → List Element → FieldValue
  | one, elements | optional, elements => .ofOption elements.head?
  | zeroOrMore, elements | oneOrMore, elements => .many elements

theorem Quantifier.Allows.holds_collect {quantifier : Quantifier} {elements : List Element}
    (h : quantifier.Allows elements.length) :
    Holds quantifier (quantifier.collect elements) elements := by
  cases quantifier with
  | one =>
      obtain ⟨element, rfl⟩ := List.length_eq_one_iff.mp h
      exact .one element
  | optional =>
      match elements, h with
      | [], _ => exact .absent
      | [element], _ => exact .present element
  | zeroOrMore => exact .many elements
  | oneOrMore => exact .some (List.length_pos_iff.mp h)

theorem Holds.eq_collect {quantifier : Quantifier} {value : FieldValue} {elements : List Element}
    (h : Holds quantifier value elements) (set : quantifier.repeats = true → value ≠ .empty) :
    value = quantifier.collect elements := by
  cases h with
  | one | absent | present | many | some => rfl
  | unset => exact absurd rfl (set rfl)

theorem Quantifier.collect_ne_empty {quantifier : Quantifier} {elements : List Element}
    (h : quantifier.repeats = true) : quantifier.collect elements ≠ .empty := by
  cases quantifier with
  | one | optional => cases h
  | zeroOrMore | oneOrMore => exact FieldValue.noConfusion

/-- Nothing is held where a segment is empty. -/
theorem Quantifier.repeats_or_collect_eq_empty_iff {quantifier : Quantifier}
    {elements : List Element} :
    quantifier.repeats = true ∨ quantifier.collect elements = .empty ↔
      quantifier.repeats = true ∨ elements = [] := by
  cases quantifier <;> cases elements <;>
    simp [Quantifier.repeats, Quantifier.collect, FieldValue.ofOption]

/-- The fields for some items, given the text of a node and what is held for each item that is for
children. -/
def fieldsFrom (text : Option String) : List Item → List (List Element) → List Field
  | [], _ => []
  | item :: items, held =>
    if item.capturesText then
      ⟨item.field, .ofOption (text.map .text)⟩ :: fieldsFrom text items held
    else
      match held with
      | [] => []
      | elements :: held =>
        ⟨item.field, item.quantifier.collect elements⟩ :: fieldsFrom text items held

theorem fieldsFrom_cons_of_text {text : Option String} {item : Item} {items : List Item}
    {held : List (List Element)} (h : item.capturesText = true) :
    fieldsFrom text (item :: items) held =
      ⟨item.field, .ofOption (text.map .text)⟩ :: fieldsFrom text items held :=
  if_pos h

theorem fieldsFrom_cons_of_child {text : Option String} {item : Item} {items : List Item}
    {elements : List Element} {held : List (List Element)} (h : item.capturesText = false) :
    fieldsFrom text (item :: items) (elements :: held) =
      ⟨item.field, item.quantifier.collect elements⟩ :: fieldsFrom text items held :=
  if_neg (by simp [h])

namespace Shapes

variable (s : Shapes)

/-- What an item makes of a child: the child itself, or the node that a rule reads it as. -/
inductive ItemReads : Item → Tree → Element → Prop
  | token {item : Item} {kind : String} {tree : Tree} : item.target = .token kind →
      ItemReads item tree (.token tree)
  | rule {item : Item} {id : s.Id} {tree : Tree} {node : Node} :
      item.target = .rule (s.name id) → s.parse tree id = .ok node →
      ItemReads item tree (.node node)

/-- A segment that an item takes before the children that remain. -/
structure TakesSegment (item : Item) (segment rest : List Tree) : Prop where
  count : item.quantifier.Allows segment.length
  accepted : ∀ child ∈ segment, s.ItemTakes item child.kind
  read : ∀ child ∈ segment, ∃ element, s.ItemReads item child element
  /-- Where the segment may be longer, it is not followed by a child that the item takes. -/
  maximal : item.quantifier.repeats = true ∨ segment = [] →
    ∀ child ∈ rest.head?, ¬ s.ItemTakes item child.kind

/-- Consecutive segments, one for each item. -/
inductive Segments : List Item → List (List Tree) → Prop
  | nil : Segments [] []
  | cons {item : Item} {items : List Item} {segment : List Tree} {segments : List (List Tree)} :
      s.TakesSegment item segment segments.flatten → Segments items segments →
      Segments (item :: items) (segment :: segments)

/-- What the items read from their segments, child by child. -/
inductive Obtains : List Item → List (List Tree) → List (List Element) → Prop
  | nil : Obtains [] [] []
  | cons {item : Item} {items : List Item} {segment : List Tree} {segments : List (List Tree)}
      {elements : List Element} {held : List (List Element)} :
      List.Forall₂ (s.ItemReads item) segment elements → Obtains items segments held →
      Obtains (item :: items) (segment :: segments) (elements :: held)

variable {s}

/-- Of two segments before the same children neither is the longer one. -/
private theorem eq_nil_of_longer {item : Item} {segment more rest : List Tree}
    (short : s.TakesSegment item segment (more ++ rest))
    (long : s.TakesSegment item (segment ++ more) rest) : more = [] := by
  cases more with
  | nil => rfl
  | cons child more =>
      have taken : s.ItemTakes item child.kind :=
        long.accepted child (List.mem_append_right _ List.mem_cons_self)
      -- The shorter one ends before a child that its item takes, so it may not be longer.
      have fixed : ¬ (item.quantifier.repeats = true ∨ segment = []) :=
        fun goesOn => short.maximal goesOn child rfl taken
      have single : segment.length + (more.length + 1) ≤ 1 := by
        have count := long.count
        rw [List.length_append, List.length_cons] at count
        cases quantifier : item.quantifier with
        | one | optional =>
            simp only [quantifier, Quantifier.Allows] at count
            omega
        | zeroOrMore | oneOrMore => simp [quantifier, Quantifier.repeats] at fixed
      have some : 0 < segment.length := List.length_pos_iff.mpr fun h => fixed (.inr h)
      omega

theorem TakesSegment.eq_of_append_eq {item : Item} {segment segment' rest rest' : List Tree}
    (h : s.TakesSegment item segment rest) (h' : s.TakesSegment item segment' rest')
    (same : segment ++ rest = segment' ++ rest') : segment = segment' ∧ rest = rest' := by
  obtain ⟨more, rfl, rfl⟩ | ⟨more, rfl, rfl⟩ := List.append_eq_append_iff.mp same
  · cases eq_nil_of_longer h h'
    simp
  · cases eq_nil_of_longer h' h
    simp

theorem Segments.eq_of_flatten_eq {items : List Item} {segments segments' : List (List Tree)}
    (h : s.Segments items segments) (h' : s.Segments items segments')
    (same : segments.flatten = segments'.flatten) : segments = segments' := by
  induction h generalizing segments' with
  | nil =>
      cases h'
      rfl
  | cons first _ ih =>
      cases h' with
      | cons first' others' =>
          rw [List.flatten_cons, List.flatten_cons] at same
          obtain ⟨rfl, rest⟩ := first.eq_of_append_eq first' same
          rw [ih others' rest]

namespace Lawful

variable (lawful : s.Lawful)
include lawful

theorem slot_iff {item : Item} {field : String} {accept : Accept s.size}
    {quantifier : Quantifier} (h : s.Resolves item (.child field accept quantifier)) {tree : Tree}
    {element : Element} :
    Slot s.Parses accept element tree ↔
      s.ItemTakes item tree.kind ∧ s.ItemReads item tree element := by
  rw [lawful.itemTakes_iff h]
  cases h with
  | token target =>
      constructor
      · intro slot
        cases slot with
        | token hk => exact ⟨hk, .token target⟩
      · intro ⟨hk, reads⟩
        cases reads with
        | token _ => exact .token hk
        | rule other _ => simp [target] at other
  | rule target =>
      constructor
      · intro slot
        cases slot with
        | node hp => exact ⟨lawful.accepts_of_parse hp, .rule target hp⟩
      · intro ⟨_, reads⟩
        cases reads with
        | token other => simp [target] at other
        | rule other hp =>
            rw [target, Target.rule.injEq] at other
            cases lawful.name_injective other
            exact .node hp

theorem slots_iff {item : Item} {field : String} {accept : Accept s.size}
    {quantifier : Quantifier} (h : s.Resolves item (.child field accept quantifier))
    {segment : List Tree} {elements : List Element} :
    List.Forall₂ (Slot s.Parses accept) elements segment ↔
      (∀ child ∈ segment, s.ItemTakes item child.kind) ∧
        List.Forall₂ (s.ItemReads item) segment elements := by
  rw [← List.forall₂_and_left]
  simp only [← lawful.slot_iff h]
  exact ⟨List.Forall₂.flip, List.Forall₂.flip⟩

variable {text : Option String} {items : List Item} {steps : List (Step s.size)}

theorem segments_of_layout (resolves : List.Forall₂ s.Resolves items steps) {fields : List Field}
    {children : List Tree} (layout : Layout s.Parses s.Greedy text steps fields children) :
    ∃ segments held, s.Segments (childItems items) segments ∧ segments.flatten = children ∧
      s.Obtains (childItems items) segments held ∧ fields = fieldsFrom text items held := by
  induction layout generalizing items with
  | nil =>
      cases resolves
      exact ⟨[], [], .nil, rfl, .nil, rfl⟩
  | text found _ ih | noText found _ ih =>
      cases resolves with
      | cons resolved resolves =>
          have captures := resolved.capturesText_eq
          obtain ⟨segments, held, cut, covers, obtains, rfl⟩ := ih resolves
          refine ⟨segments, held, ?_, covers, ?_, ?_⟩
          · rwa [childItems_cons_of_text captures]
          · rwa [childItems_cons_of_text captures]
          · rw [fieldsFrom_cons_of_text captures, found, resolved.field_eq]
            rfl
  | @child field accept quantifier value elements segment rest _ _ holds slots greedy _ ih =>
      cases resolves with
      | cons resolved resolves =>
          have child := resolved.capturesText_eq
          obtain ⟨segments, held, cut, rfl, obtains, rfl⟩ := ih resolves
          obtain ⟨accepted, reads⟩ := (lawful.slots_iff resolved).mp slots
          have collected := holds.eq_collect greedy.1
          have first : s.TakesSegment _ segment segments.flatten :=
            { count := by
                rw [← resolved.quantifier_eq, ← slots.length_eq]
                exact holds.allows
              accepted := accepted
              read := exists_forall₂_iff.mp ⟨elements, reads⟩
              maximal := by
                intro ends next hn takes
                rw [← resolved.quantifier_eq] at ends
                refine greedy.2 ?_ next hn ((lawful.itemTakes_iff resolved).mp takes)
                rw [collected, Quantifier.repeats_or_collect_eq_empty_iff]
                refine ends.imp_right fun none => ?_
                subst none
                cases slots
                rfl }
          refine ⟨segment :: segments, elements :: held, ?_, List.flatten_cons, ?_, ?_⟩
          · rw [childItems_cons_of_child child]
            exact .cons first cut
          · rw [childItems_cons_of_child child]
            exact .cons reads obtains
          · rw [fieldsFrom_cons_of_child child, ← resolved.quantifier_eq, ← collected,
              resolved.field_eq]
            rfl

theorem layout_of_segments (resolves : List.Forall₂ s.Resolves items steps)
    (required : requiresText items = true → text.isSome = true) {segments : List (List Tree)}
    (cut : s.Segments (childItems items) segments) :
    ∃ fields, Layout s.Parses s.Greedy text steps fields segments.flatten := by
  induction resolves generalizing segments with
  | nil =>
      cases cut
      exact ⟨[], .nil⟩
  | @cons item step items steps resolved resolves ih =>
      rw [requiresText_cons, Bool.or_eq_true] at required
      replace ih := @ih fun h => required (.inr h)
      cases step with
      | text field optional =>
          have captures : item.capturesText = true := resolved.capturesText_eq
          rw [childItems_cons_of_text captures] at cut
          obtain ⟨fields, layout⟩ := ih cut
          cases text with
          | some found => exact ⟨_, .text rfl layout⟩
          | none =>
              have free : (item.quantifier == .optional) = true := by
                by_contra needed
                have needed : (item.capturesText && item.quantifier != .optional) = true := by
                  simpa [captures] using needed
                cases required (.inl needed)
              rw [resolved.optional_eq, free]
              exact ⟨_, .noText rfl layout⟩
      | child field accept quantifier =>
          have child : item.capturesText = false := resolved.capturesText_eq
          rw [childItems_cons_of_child child] at cut
          cases cut with
          | @cons _ _ segment segments first others =>
              obtain ⟨fields, layout⟩ := ih others
              obtain ⟨elements, reads⟩ := exists_forall₂_iff.mpr first.read
              have slots := (lawful.slots_iff resolved).mpr ⟨first.accepted, reads⟩
              have allows : quantifier.Allows elements.length := by
                rw [resolved.quantifier_eq, ← reads.length_eq]
                exact first.count
              refine ⟨_, .child allows.holds_collect slots
                ⟨Quantifier.collect_ne_empty, ?_⟩ layout⟩
              rw [Quantifier.repeats_or_collect_eq_empty_iff, resolved.quantifier_eq]
              intro ends next hn takes
              refine first.maximal (ends.imp_right fun none => ?_) next hn
                ((lawful.itemTakes_iff resolved).mpr takes)
              subst none
              cases reads
              rfl

end Lawful

/-- A body reads a node of its kind exactly if the text that it requires is there and the children
can be cut into one segment for each item that is for children. No other cut is possible, and the
fields of the node hold what the items read from their segments. -/
theorem parse_iff_segments {schema : Schema} (hc : compile schema = .ok s) {id : s.Id} {body : Body}
    (has : s.HasBody id body) {tree : Tree} (kind : tree.kind = body.root) :
    ((∃ node, s.parse tree id = .ok node) ↔
      (requiresText body.items = true → tree.text.isSome = true) ∧
        ∃ segments, s.Segments (childItems body.items) segments ∧
          segments.flatten = tree.children) ∧
    (∀ segments segments', s.Segments (childItems body.items) segments →
      s.Segments (childItems body.items) segments' → segments.flatten = tree.children →
      segments'.flatten = tree.children → segments = segments') ∧
    ∀ node segments, s.parse tree id = .ok node → s.Segments (childItems body.items) segments →
      segments.flatten = tree.children → ∃ held, s.Obtains (childItems body.items) segments held ∧
        node = ⟨s.name id, fieldsFrom tree.text body.items held⟩ := by
  obtain ⟨rfl, lawful⟩ := lawful_of_compile hc
  obtain ⟨steps, hp, resolves⟩ := lawful.shape_of_body has
  refine ⟨⟨?_, ?_⟩, ?_, ?_⟩
  · intro ⟨node, parsed⟩
    obtain ⟨_, fields, _, layout⟩ := (lawful.parse_shape_iff hp).mp parsed
    obtain ⟨segments, _, cut, covers, _⟩ := lawful.segments_of_layout resolves layout
    exact ⟨isSome_text_of_layout resolves layout, segments, cut, covers⟩
  · intro ⟨required, segments, cut, covers⟩
    obtain ⟨fields, layout⟩ := lawful.layout_of_segments resolves required cut
    rw [covers] at layout
    exact ⟨_, (lawful.parse_shape_iff hp).mpr ⟨kind, fields, rfl, layout⟩⟩
  · intro segments segments' cut cut' covers covers'
    exact cut.eq_of_flatten_eq cut' (covers.trans covers'.symm)
  · intro node segments parsed cut covers
    obtain ⟨_, fields, rfl, layout⟩ := (lawful.parse_shape_iff hp).mp parsed
    obtain ⟨found, held, foundCut, foundCovers, obtains, rfl⟩ :=
      lawful.segments_of_layout resolves layout
    cases foundCut.eq_of_flatten_eq cut (foundCovers.trans covers.symm)
    exact ⟨held, obtains, rfl⟩

def callBody : Body :=
  ⟨"CALL", [.of "name" .text .one, .of "first" (.token "ARG") .optional,
    .of "more" (.token "ARG") .zeroOrMore, .of "then" (.rule "block") .oneOrMore]⟩

/-- A body whose first item leaves nothing to the second, which requires a child. -/
def lastBody : Body :=
  ⟨"LAST", [.of "all" (.token "ARG") .zeroOrMore, .of "last" (.token "ARG") .one]⟩

/-- Rules with adjacent items for the same kind. -/
def calls : Schema where
  package := ["demo"]
  tokenVocab := []
  runtime := "runtime"
  rules := [⟨"call", .leaf callBody⟩, ⟨"last", .leaf lastBody⟩, ⟨"block", .leaf ⟨"BLOCK", []⟩⟩]

def callShapes : Shapes where
  schema := calls
  ancestry := ⟨[]⟩
  plans :=
    [.shape "CALL" [.text "name" false, .child "first" (.token "ARG") .optional,
       .child "more" (.token "ARG") .zeroOrMore, .child "then" (.rule ⟨2, by decide⟩) .oneOrMore],
     .shape "LAST" [.child "all" (.token "ARG") .zeroOrMore, .child "last" (.token "ARG") .one],
     .shape "BLOCK" []]
  length_plans := rfl

theorem compile_calls : compile calls = .ok callShapes := by
  rfl

def callTree : Tree :=
  ⟨"CALL", some "f", [⟨"ARG", some "a", []⟩, ⟨"ARG", some "b", []⟩, ⟨"ARG", some "c", []⟩,
    ⟨"BLOCK", none, []⟩]⟩

def callNode : Node :=
  ⟨"call", [⟨"name", .one (.text "f")⟩, ⟨"first", .one (.token ⟨"ARG", some "a", []⟩)⟩,
    ⟨"more", .many [.token ⟨"ARG", some "b", []⟩, .token ⟨"ARG", some "c", []⟩]⟩,
    ⟨"then", .many [.node ⟨"block", []⟩]⟩]⟩

/-- The arguments of a call can be cut in one way; those of `last` in none, although leaving one of
them to the second item would fit. -/
theorem parse_iff_segments_call :
    callShapes.parse callTree ⟨0, by decide⟩ = .ok callNode ∧
    (∃ segments, callShapes.Segments (childItems callBody.items) segments ∧
      segments.flatten = callTree.children ∧
      (∀ other, callShapes.Segments (childItems callBody.items) other →
        other.flatten = callTree.children → other = segments) ∧
      ∃ held, callShapes.Obtains (childItems callBody.items) segments held ∧
        callNode = ⟨"call", fieldsFrom (some "f") callBody.items held⟩) ∧
    ¬ ∃ segments, callShapes.Segments (childItems lastBody.items) segments ∧
      segments.flatten = [⟨"ARG", none, []⟩] := by
  have parsed : callShapes.parse callTree ⟨0, by decide⟩ = .ok callNode := by rfl
  have call : callShapes.HasBody ⟨0, by decide⟩ callBody := ⟨rfl, by decide⟩
  have last : callShapes.HasBody ⟨1, by decide⟩ lastBody := ⟨rfl, by decide⟩
  have kind : callTree.kind = callBody.root := rfl
  obtain ⟨reads, unique, held⟩ := parse_iff_segments compile_calls call kind
  obtain ⟨_, segments, cut, covers⟩ := reads.mp ⟨_, parsed⟩
  refine ⟨parsed, ⟨segments, cut, covers, fun other cut' covers' => ?_, ?_⟩, ?_⟩
  · exact unique other segments cut' cut covers' covers
  · exact held callNode segments parsed cut covers
  · intro cut
    have kind : (Tree.mk "LAST" none [⟨"ARG", none, []⟩]).kind = lastBody.root := rfl
    have free : requiresText lastBody.items = false := by decide
    obtain ⟨node, read⟩ := (parse_iff_segments compile_calls last kind).1.mpr
      ⟨by simp [free], cut⟩
    cases read

end Shapes
end TreeShape
