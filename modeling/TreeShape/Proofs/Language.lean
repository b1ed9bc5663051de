import TreeShape.Proofs.Overlaps

/-!
The language of a schema: the trees that each rule is for when children may be cut into segments in
any way, and any alternative may be taken. Reading only takes trees of the language, and where the
shapes are deterministic it takes all of them.
-/

namespace TreeShape

/-- How many children an item may stand for. -/
def Quantifier.Allows : Quantifier → (count : Nat) → Prop
  | one, count => count = 1
  | optional, count => count ≤ 1
  | zeroOrMore, _ => True
  | oneOrMore, count => 1 ≤ count

def requiresText (items : List Item) : Bool :=
  items.any fun item => item.capturesText && item.quantifier != .optional

theorem requiresText_cons (item : Item) (items : List Item) :
    requiresText (item :: items) =
      (item.capturesText && item.quantifier != .optional || requiresText items) :=
  rfl

/-- A child that an item is for, where `derives` says which trees the rules are for. -/
inductive Fits (derives : String → Tree → Prop) : Target → Tree → Prop
  | token {tree : Tree} : Fits derives (.token tree.kind) tree
  | rule {name : String} {tree : Tree} : derives name tree → Fits derives (.rule name) tree

/-- Children that can be cut into segments, one for each item that is not for the text. -/
inductive Segmented (derives : String → Tree → Prop) : List Item → List Tree → Prop
  | nil : Segmented derives [] []
  | text {item : Item} {items : List Item} {children : List Tree} : item.target = .text →
      Segmented derives items children → Segmented derives (item :: items) children
  | child {item : Item} {items : List Item} {segment rest : List Tree} : item.target ≠ .text →
      item.quantifier.Allows segment.length → (∀ tree ∈ segment, Fits derives item.target tree) →
      Segmented derives items rest → Segmented derives (item :: items) (segment ++ rest)

/-- The trees that the rule called `name` is for. -/
inductive Schema.Derives (schema : Schema) : (name : String) → Tree → Prop
  | leaf {rule : Rule} {body : Body} {tree : Tree} : rule ∈ schema.rules →
      rule.form = .leaf body → body.delegates = false → tree.kind = body.root →
      (requiresText body.items = true → tree.text.isSome = true) →
      Segmented (Derives schema) body.items tree.children → Derives schema rule.name tree
  | delegate {rule : Rule} {body : Body} {tree : Tree} : rule ∈ schema.rules →
      rule.form = .leaf body → body.delegates = true → Derives schema body.root tree →
      Derives schema rule.name tree
  | choice {rule : Rule} {names : List String} {name : String} {tree : Tree} :
      rule ∈ schema.rules → rule.form = .alternatives names → name ∈ names →
      Derives schema name tree → Derives schema rule.name tree

theorem Holds.allows {quantifier : Quantifier} {value : FieldValue} {elements : List Element}
    (h : Holds quantifier value elements) : quantifier.Allows elements.length := by
  cases h with
  | one | absent | present | unset | many => simp [Quantifier.Allows]
  | some some => exact List.length_pos_iff.mpr some

theorem Quantifier.Allows.exists_holds {quantifier : Quantifier} {elements : List Element}
    (h : quantifier.Allows elements.length) :
    ∃ value, Holds quantifier value elements ∧ (quantifier.repeats = true → value ≠ .empty) := by
  cases quantifier with
  | one =>
      obtain ⟨element, rfl⟩ := List.length_eq_one_iff.mp h
      exact ⟨.one element, .one element, nofun⟩
  | optional =>
      match elements, h with
      | [], _ => exact ⟨.empty, .absent, nofun⟩
      | [element], _ => exact ⟨.one element, .present element, nofun⟩
  | zeroOrMore => exact ⟨.many elements, .many elements, nofun⟩
  | oneOrMore => exact ⟨.many elements, .some (List.length_pos_iff.mp h), nofun⟩

namespace Shapes

variable {s : Shapes}

section Segments

variable {related : s.Id → Node → Tree → Prop} {derives : String → Tree → Prop}
  {ends : SegmentEnd s.size} {text : Option String} {items : List Item}
  {steps : List (Step s.size)} {fields : List Field} {children : List Tree}

theorem Resolves.fits_of_slot {item : Item} {field : String} {accept : Accept s.size}
    {quantifier : Quantifier} {element : Element} {tree : Tree}
    (h : s.Resolves item (.child field accept quantifier)) (slot : Slot related accept element tree)
    (hd : ∀ {id node}, related id node tree → derives (s.name id) tree) :
    Fits derives item.target tree := by
  cases h with
  | token target =>
      cases slot with
      | token hk => rw [target, ← hk]; exact .token
  | rule target =>
      cases slot with
      | node hr => rw [target]; exact .rule (hd hr)

theorem Resolves.exists_slot {item : Item} {field : String} {accept : Accept s.size}
    {quantifier : Quantifier} {tree : Tree} (h : s.Resolves item (.child field accept quantifier))
    (fits : Fits derives item.target tree)
    (hr : ∀ {id}, derives (s.name id) tree → ∃ node, related id node tree) :
    ∃ element, Slot related accept element tree := by
  cases h with
  | token target =>
      rw [target] at fits
      cases fits
      exact ⟨.token tree, .token rfl⟩
  | rule target =>
      rw [target] at fits
      cases fits with
      | rule hd =>
          obtain ⟨node, related⟩ := hr hd
          exact ⟨.node node, .node related⟩

private theorem exists_elements_iff {accept : Accept s.size} {segment : List Tree} :
    (∃ elements, List.Forall₂ (Slot related accept) elements segment) ↔
      ∀ tree ∈ segment, ∃ element, Slot related accept element tree := by
  rw [← exists_forall₂_iff]
  exact exists_congr fun _ => ⟨List.Forall₂.flip, List.Forall₂.flip⟩

/-- A layout cuts the children into segments. -/
theorem segmented_of_layout (resolves : List.Forall₂ s.Resolves items steps)
    (layout : Layout related ends text steps fields children)
    (hd : ∀ child ∈ children, ∀ {id node}, related id node child → derives (s.name id) child) :
    Segmented derives items children := by
  induction layout generalizing items with
  | nil =>
      cases resolves
      exact .nil
  | text _ _ ih | noText _ _ ih =>
      cases resolves with
      | cons resolved resolves => exact .text resolved.target_eq_text (ih resolves hd)
  | child holds slots _ _ ih =>
      cases resolves with
      | cons resolved resolves =>
          refine .child resolved.target_ne_text ?_ ?_
            (ih resolves fun child hc => hd child (List.mem_append_right _ hc))
          · rw [← resolved.quantifier_eq, ← slots.length_eq]
            exact holds.allows
          · intro tree ht
            obtain ⟨element, slot⟩ := exists_elements_iff.mp ⟨_, slots⟩ tree ht
            exact resolved.fits_of_slot slot (hd tree (List.mem_append_left _ ht))

theorem isSome_text_of_layout (resolves : List.Forall₂ s.Resolves items steps)
    (layout : Layout related ends text steps fields children)
    (required : requiresText items = true) : text.isSome = true := by
  induction layout generalizing items with
  | nil =>
      cases resolves
      cases required
  | text ht _ _ => simp [ht]
  | noText _ _ ih =>
      cases resolves with
      | cons resolved resolves =>
          have optional := resolved.optional_eq
          exact ih resolves (by simpa [requiresText_cons, bne, ← optional] using required)
  | child _ _ _ _ ih =>
      cases resolves with
      | cons resolved resolves =>
          have child := resolved.capturesText_eq
          exact ih resolves (by simpa [requiresText_cons, child, Step.capturesText] using required)

/-- Segments of children can be laid out, given a node for each child that a rule is for. -/
theorem exists_layout_of_segmented (resolves : List.Forall₂ s.Resolves items steps)
    (segmented : Segmented derives items children)
    (required : requiresText items = true → text.isSome = true)
    (hr : ∀ child ∈ children, ∀ {id}, derives (s.name id) child → ∃ node, related id node child) :
    ∃ fields, Layout related s.Assigned text steps fields children := by
  induction segmented generalizing steps with
  | nil =>
      cases resolves
      exact ⟨[], .nil⟩
  | @text item items children target _ ih =>
      cases resolves with
      | cons resolved resolves =>
          rw [requiresText_cons, Bool.or_eq_true] at required
          obtain ⟨fields, layout⟩ := ih resolves (fun h => required (.inr h)) hr
          cases resolved with
          | text _ =>
              cases text with
              | some found => exact ⟨_, .text rfl layout⟩
              | none =>
                  have optional : (item.quantifier == .optional) = true := by
                    by_contra h
                    have needed : (item.capturesText && item.quantifier != .optional) = true := by
                      simpa [Item.capturesText, target] using h
                    cases required (.inl needed)
                  rw [optional]
                  exact ⟨_, .noText rfl layout⟩
          | token other | rule other => simp [target] at other
  | @child item items segment rest target allows fits _ ih =>
      cases resolves with
      | cons resolved resolves =>
          rw [requiresText_cons, Bool.or_eq_true] at required
          obtain ⟨fields, layout⟩ := ih resolves (fun h => required (.inr h))
            fun child hc => hr child (List.mem_append_right _ hc)
          obtain ⟨accept, rfl⟩ := resolved.exists_accept target
          have slots : ∀ tree ∈ segment, ∃ element, Slot related accept element tree :=
            fun tree ht => resolved.exists_slot (fits tree ht) (hr tree (List.mem_append_left _ ht))
          obtain ⟨elements, slots⟩ := exists_elements_iff.mpr slots
          rw [← slots.length_eq] at allows
          obtain ⟨value, holds, assigned⟩ := allows.exists_holds
          exact ⟨_, .child holds slots assigned layout⟩

end Segments

namespace Lawful

variable (lawful : s.Lawful) {id : s.Id} {tree : Tree}
include lawful

/-- What a rule is for, by its form. -/
theorem derives_iff : s.schema.Derives (s.name id) tree ↔
    match (s.rule id).form with
    | .leaf body =>
      if body.delegates then s.schema.Derives body.root tree
      else tree.kind = body.root ∧ (requiresText body.items = true → tree.text.isSome = true) ∧
        Segmented s.schema.Derives body.items tree.children
    | .alternatives names => ∃ name ∈ names, s.schema.Derives name tree := by
  have hr : s.rule id ∈ s.schema.rules := List.get_mem _ _
  constructor
  · intro h
    generalize hn : s.name id = name at h
    cases h with
    | leaf hr form direct kind text segmented =>
        cases lawful.eq_rule_of_mem hr hn
        simp only [form, direct]
        exact ⟨kind, text, segmented⟩
    | delegate hr form delegates h =>
        cases lawful.eq_rule_of_mem hr hn
        simpa [form, delegates] using h
    | choice hr form hm h =>
        cases lawful.eq_rule_of_mem hr hn
        simp only [form]
        exact ⟨_, hm, h⟩
  · intro h
    cases form : (s.rule id).form with
    | leaf body =>
        simp only [form] at h
        cases delegates : body.delegates with
        | true => exact .delegate hr form delegates (by simpa [delegates] using h)
        | false =>
            obtain ⟨kind, text, segmented⟩ := by simpa [delegates] using h
            exact .leaf hr form delegates kind text segmented
    | alternatives names =>
        simp only [form] at h
        obtain ⟨name, hm, h⟩ := h
        exact .choice hr form hm h

theorem derives_shape_iff {body : Body} (has : s.HasBody id body) :
    s.schema.Derives (s.name id) tree ↔ tree.kind = body.root ∧
      (requiresText body.items = true → tree.text.isSome = true) ∧
      Segmented s.schema.Derives body.items tree.children := by
  rw [lawful.derives_iff, has.1]
  simp [has.2]

theorem derives_delegate_iff {target : s.Id} (hp : s.plan id = .delegate target) :
    s.schema.Derives (s.name id) tree ↔ s.schema.Derives (s.name target) tree := by
  obtain ⟨body, form, delegates, root⟩ := lawful.body_of_delegate hp
  rw [lawful.derives_iff, form]
  simp [delegates, root]

theorem derives_choice_iff {alternatives : List s.Id} (hp : s.plan id = .choice alternatives) :
    s.schema.Derives (s.name id) tree ↔
      ∃ alternative ∈ alternatives, s.schema.Derives (s.name alternative) tree := by
  rw [lawful.derives_iff, lawful.form_of_choice hp]
  simp

theorem derives_of_parse {node : Node} (h : s.parse tree id = .ok node) :
    s.schema.Derives (s.name id) tree := by
  induction id, tree using lawful.reading_induction generalizing node with
  | shape id tree root steps hp ih =>
      obtain ⟨body, has, rfl, resolves⟩ := lawful.body_of_shape hp
      obtain ⟨hk, fields, _, layout⟩ := (lawful.parse_shape_iff hp).mp h
      have segmented : Segmented s.schema.Derives body.items tree.children :=
        segmented_of_layout resolves layout fun child hc id _ => ih child hc id
      exact (lawful.derives_shape_iff has).mpr
        ⟨hk, isSome_text_of_layout resolves layout, segmented⟩
  | delegate id tree target hp ih =>
      obtain ⟨inner, hi, _⟩ := (lawful.parse_delegate_eq_ok_iff hp).mp h
      exact (lawful.derives_delegate_iff hp).mpr (ih hi)
  | choice id tree alternatives hp ih =>
      obtain ⟨alternative, found, ha⟩ := (lawful.parse_choice_eq_ok_iff hp).mp h
      have hm := List.mem_of_find?_eq_some found
      exact (lawful.derives_choice_iff hp).mpr ⟨alternative, hm, ih alternative hm ha⟩

theorem exists_parse_of_derives (deterministic : s.Deterministic)
    (h : s.schema.Derives (s.name id) tree) : ∃ node, s.parse tree id = .ok node := by
  induction id, tree using lawful.reading_induction with
  | shape id tree root steps hp ih =>
      obtain ⟨body, has, rfl, resolves⟩ := lawful.body_of_shape hp
      obtain ⟨hk, required, segmented⟩ := (lawful.derives_shape_iff has).mp h
      obtain ⟨fields, layout⟩ :
          ∃ fields, Layout s.Parses s.Assigned tree.text steps fields tree.children :=
        exists_layout_of_segmented resolves segmented required fun child hc id => ih child hc id
      have greedy := lawful.layout_greedy lawful.accepts_of_parse resolves
        (deterministic.bodies id body has) layout
      exact ⟨_, (lawful.parse_shape_iff hp).mpr ⟨hk, fields, rfl, greedy⟩⟩
  | delegate id tree target hp ih =>
      obtain ⟨inner, hi⟩ := ih ((lawful.derives_delegate_iff hp).mp h)
      exact ⟨_, (lawful.parse_delegate_eq_ok_iff hp).mpr ⟨inner, hi, rfl⟩⟩
  | choice id tree alternatives hp ih =>
      obtain ⟨alternative, hm, ha⟩ := (lawful.derives_choice_iff hp).mp h
      obtain ⟨node, hn⟩ := ih alternative hm ha
      -- The alternative that the tree is for is the one that is tried.
      have found := lawful.find?_accepts_eq deterministic.choices hp hm
        (lawful.accepts_of_parse hn)
      exact ⟨node, (lawful.parse_choice_eq_ok_iff hp).mpr ⟨alternative, found, hn⟩⟩

end Lawful

theorem conforms_iff_parse {id : s.Id} {tree : Tree} :
    s.conforms id tree = true ↔ ∃ node, s.parse tree id = .ok node := by
  unfold conforms
  cases s.parse tree id <;> simp [Except.isOk, Except.toBool]

/-- Trees that conform to a rule are in its language, and all of those conform where the shapes are
deterministic. -/
theorem conforms_language {schema : Schema} (hc : compile schema = .ok s) :
    (∀ id tree, s.conforms id tree = true → schema.Derives (s.name id) tree) ∧
    (s.Deterministic → ∀ id tree, schema.Derives (s.name id) tree →
      s.conforms id tree = true) := by
  obtain ⟨rfl, lawful⟩ := lawful_of_compile hc
  constructor
  · intro id tree h
    obtain ⟨node, hp⟩ := conforms_iff_parse.mp h
    exact lawful.derives_of_parse hp
  · intro deterministic id tree h
    exact conforms_iff_parse.mpr (lawful.exists_parse_of_derives deterministic h)

/-- A statement whose body is two blocks, one in the other, before the mark. -/
def nestedIf : Tree :=
  ⟨"IF", none, [⟨"IDENT", some "a", []⟩, ⟨"BLOCK", none, [⟨"BLOCK", none, []⟩]⟩,
    ⟨"ELSE", none, []⟩]⟩

theorem conforms_nestedIf :
    statements.Derives "stmt" nestedIf ∧ statementShapes.conforms ⟨0, by decide⟩ nestedIf = true :=
  have derives := (conforms_language compile_statements).1 ⟨0, by decide⟩ nestedIf (by rfl)
  ⟨derives, (conforms_language compile_statements).2 deterministic_statements _ _ derives⟩

end Shapes
end TreeShape
