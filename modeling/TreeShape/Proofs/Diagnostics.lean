import TreeShape.Proofs.Compiling
import TreeShape.Proofs.Typing

/-!
What a failure to write a node says of that node. The rule that is named is the rule of the node or
of one nested in it, and that node has the flaw that is reported. The one exception is a node that
wraps a collection: it is reported as one that wraps nothing.
-/

namespace TreeShape

/-- A node that is another one, or is nested in it at any depth. -/
def Node.Part (part whole : Node) : Prop :=
  part = whole ∨ ∃ field ∈ whole.fields, field.value.Nested part

theorem Node.part_iff {part : Node} {rule : String} {fields : List Field} :
    part.Part ⟨rule, fields⟩ ↔ part = ⟨rule, fields⟩ ∨ ∃ field ∈ fields, ∃ inner,
      .node inner ∈ field.value.elements ∧ part.Part inner := by
  constructor
  · rintro (rfl | ⟨field, hf, nested⟩)
    · exact .inl rfl
    · cases nested with
      | held held => exact .inr ⟨field, hf, part, held, .inl rfl⟩
      | deeper held below nested => exact .inr ⟨field, hf, _, held, .inr ⟨_, below, nested⟩⟩
  · rintro (rfl | ⟨field, hf, inner, held, rfl | ⟨below, hb, nested⟩⟩)
    · exact .inl rfl
    · exact .inr ⟨field, hf, .held held⟩
    · exact .inr ⟨field, hf, .deeper held hb nested⟩

/-- The item for the node that a rule wraps which hands on to another one. -/
def wrappedItem (root : String) : Item :=
  .of innerField (.rule root) .one

/-- The items that the fields of a node are for. -/
def Rule.slots (rule : Rule) : List Item :=
  match rule.form with
  | .alternatives _ => []
  | .leaf body =>
    if body.delegates then [wrappedItem body.root] else body.items

/-- How a mismatch describes the elements of a target. -/
def Target.sort : Target → String
  | .text => "text"
  | .token kind => tokenSort kind
  | .rule name => s!"a `{name}` node"

/-- What a mismatch says that an item asks for in place of a value. -/
def Item.sortFor (item : Item) (value : FieldValue) : String :=
  match item.target, value with
  | .text, _ => "text"
  | target, .one _ => if item.quantifier.repeats then "a collection" else target.sort
  | target, .many _ => if item.quantifier.repeats then target.sort else "a single value"
  | target, .empty => target.sort

section

variable {item : Item} (target : item.target ≠ .text)
include target

/-- Where a value holds its elements as it should, what is asked for are elements. -/
theorem Item.sortFor_of_holds {value : FieldValue} {elements : List Element}
    (h : Holds item.quantifier value elements) : item.sortFor value = item.target.sort := by
  obtain ⟨_, _, _, itemTarget, quantifier⟩ := item
  cases itemTarget with
  | text => exact absurd rfl target
  | token kind | rule name => cases h <;> rfl

theorem Item.sortFor_one (repeats : item.quantifier.repeats = true) (element : Element) :
    item.sortFor (.one element) = "a collection" := by
  obtain ⟨_, _, _, itemTarget, quantifier⟩ := item
  cases itemTarget with
  | text => exact absurd rfl target
  | token kind | rule name => exact if_pos repeats

theorem Item.sortFor_many (single : item.quantifier.repeats = false) (elements : List Element) :
    item.sortFor (.many elements) = "a single value" := by
  obtain ⟨_, _, _, itemTarget, quantifier⟩ := item
  cases itemTarget with
  | text => exact absurd rfl target
  | token kind | rule name => exact if_neg (Bool.eq_false_iff.mp single)

end

namespace Shapes

variable (s : Shapes)

/-- An element of the sort that a target asks for, whatever is in it. -/
def Suits (target : Target) (element : Element) : Prop :=
  s.ElementTyped (fun _ => True) target element

/-- A value that the field of an item may have, whatever is in the nodes that it holds. -/
inductive Fits (item : Item) : FieldValue → Prop
  | text {found : String} : item.target = .text → Fits item (.one (.text found))
  | noText : item.target = .text → item.quantifier = .optional → Fits item .empty
  | child {value : FieldValue} {elements : List Element} : item.target ≠ .text →
      Holds item.quantifier value elements →
      (∀ element ∈ elements, s.Suits item.target element) → Fits item value

/-- What is wrong with the value of a field. -/
inductive Flaw (item : Item) : FieldValue → Mismatch → Prop
  | missing : item.quantifier = .one → Flaw item .empty (.missingValue item.field)
  | none {value : FieldValue} : item.quantifier = .oneOrMore →
      value = .empty ∨ value = .many [] → Flaw item value (.emptyCollection item.field)
  | misfit {value : FieldValue} : value ≠ .empty → ¬ s.Fits item value →
      Flaw item value (.wrongValue item.field (item.sortFor value))

/-- What is wrong with the fields of a node. -/
inductive Exhibits (slots : List Item) (fields : List Field) : Mismatch → Prop
  | arity : fields.length ≠ slots.length → Exhibits slots fields (.arity slots.length fields.length)
  | name {item : Item} {field : Field} : (item, field) ∈ slots.zip fields →
      field.name ≠ item.field → Exhibits slots fields (.unexpectedField item.field field.name)
  | value {item : Item} {field : Field} {reason : Mismatch} : (item, field) ∈ slots.zip fields →
      field.name = item.field → s.Flaw item field.value reason → Exhibits slots fields reason

/-- What is wrong with a node: it has no concrete rule, or not the fields of its rule. -/
inductive Shows (node : Node) : Mismatch → Prop
  | unknown : node.rule ∉ s.schema.names → Shows node .notSerializable
  | choice {id : s.Id} {names : List String} : s.name id = node.rule →
      (s.rule id).form = .alternatives names → Shows node .notSerializable
  | fields {id : s.Id} {body : Body} {reason : Mismatch} : s.name id = node.rule →
      (s.rule id).form = .leaf body → s.Exhibits (s.rule id).slots node.fields reason →
      Shows node reason

/-- A node of a rule that hands on, with a collection in place of the node that it should wrap. -/
def WrapsCollection (node : Node) : Prop :=
  ∃ id elements, s.name id = node.rule ∧ s.Delegates id ∧
    node.fields = [⟨innerField, .many elements⟩]

/-- What a node is blamed for: what it shows, but a wrapped collection for being absent. -/
def Blamed (node : Node) (reason : Mismatch) : Prop :=
  s.Shows node reason ∨ s.WrapsCollection node ∧ reason = .missingValue innerField

/-- The target that an item has which takes its children so. -/
def targetOf : Accept s.size → Target
  | .token kind => .token kind
  | .rule id => .rule (s.name id)

variable {s} {rule field : String} {tree : Tree} {mismatch : ShapeMismatch}

theorem ElementTyped.forget {typed : Node → Prop} {target : Target} {element : Element}
    (h : s.ElementTyped typed target element) : s.Suits target element := by
  cases h with
  | token => exact .token
  | node implements _ => exact .node implements trivial

theorem Resolves.target_eq {item : Item} {accept : Accept s.size} {quantifier : Quantifier}
    (h : s.Resolves item (.child field accept quantifier)) : item.target = s.targetOf accept := by
  cases h with
  | token target | rule target => exact target

theorem sort_targetOf (accept : Accept s.size) :
    (s.targetOf accept).sort = s.elementSort accept := by
  cases accept <;> rfl

theorem Exhibits.cons {slots : List Item} {fields : List Field} {reason : Mismatch}
    (h : s.Exhibits slots fields reason) (lengths : fields.length = slots.length) (slot : Item)
    (first : Field) : s.Exhibits (slot :: slots) (first :: fields) reason := by
  cases h with
  | arity other => exact absurd lengths other
  | name hm other => exact .name (List.mem_cons_of_mem _ hm) other
  | value hm same flaw => exact .value (List.mem_cons_of_mem _ hm) same flaw

theorem checkField_eq_error {expected found : String}
    (h : checkField rule expected found = .error mismatch) :
    found ≠ expected ∧ mismatch = ⟨rule, .unexpectedField expected found⟩ := by
  unfold checkField at h
  split at h
  · cases h
  · next other =>
    cases h
    exact ⟨other, rfl⟩

theorem checkArity_eq_error {expected : Nat} {fields : List Field}
    (h : checkArity rule expected fields = .error mismatch) :
    fields.length ≠ expected ∧ mismatch = ⟨rule, .arity expected fields.length⟩ := by
  unfold checkArity at h
  split at h
  · cases h
  · next other =>
    cases h
    exact ⟨other, rfl⟩

theorem serializeElement_eq_error {accept : Accept s.size} {element : Element}
    (h : s.serializeElement rule field accept element = .error mismatch) :
    mismatch = ⟨rule, .wrongValue field (s.elementSort accept)⟩ ∧
        ¬ s.Suits (s.targetOf accept) element ∨
      ∃ node, element = .node node ∧ s.serialize node = .error mismatch := by
  cases accept with
  | token kind =>
      cases element with
      | token token =>
          simp only [serializeElement, expectToken, Tree.is, beq_iff_eq] at h
          split at h
          · cases h
          · next other =>
            cases h
            refine .inl ⟨rfl, fun suits => ?_⟩
            generalize hk : s.targetOf (.token kind) = target at suits
            cases suits
            cases hk
            exact other rfl
      | node node | text text =>
          simp only [serializeElement] at h
          cases h
          refine .inl ⟨rfl, fun suits => ?_⟩
          cases suits
  | rule id =>
      cases element with
      | node node =>
          simp only [serializeElement] at h
          split at h
          · exact .inr ⟨node, rfl, h⟩
          · next other =>
            cases h
            refine .inl ⟨rfl, fun suits => ?_⟩
            generalize hk : s.targetOf (.rule id) = target at suits
            cases suits with
            | node implements _ =>
                cases hk
                exact other implements
      | token token | text text =>
          simp only [serializeElement] at h
          cases h
          refine .inl ⟨rfl, fun suits => ?_⟩
          cases suits

theorem serializeElements_eq_error {accept : Accept s.size} {elements : List Element}
    (h : s.serializeElements rule field accept tree elements = .error mismatch) :
    ∃ element ∈ elements, s.serializeElement rule field accept element = .error mismatch := by
  induction elements generalizing tree with
  | nil =>
      simp only [serializeElements] at h
      cases h
  | cons element elements ih =>
      rw [serializeElements, bind_eq_error_iff] at h
      obtain here | ⟨child, _, later⟩ := h
      · exact ⟨element, List.mem_cons_self, here⟩
      · obtain ⟨element, he, broken⟩ := ih later
        exact ⟨element, List.mem_cons_of_mem _ he, broken⟩

section

variable {item : Item} {value : FieldValue}

theorem flaw_of_text (target : item.target = .text)
    (once : item.quantifier = .one ∨ item.quantifier = .optional)
    (h : s.serializeValue rule tree (.text item.field (item.quantifier == .optional)) value =
      .error mismatch) : mismatch.rule = rule ∧ s.Flaw item value mismatch.reason := by
  have sort (value : FieldValue) : item.sortFor value = "text" := by
    simp [Item.sortFor, target]
  have unfit {value : FieldValue} (some : value ≠ .empty)
      (other : ∀ found, value ≠ .one (.text found)) : ¬ s.Fits item value := by
    intro fits
    cases fits with
    | text _ => exact other _ rfl
    | noText _ _ => exact some rfl
    | child child _ _ => exact child target
  cases value with
  | empty =>
      cases optional : item.quantifier == .optional with
      | true =>
          rw [optional] at h
          simp only [serializeValue] at h
          cases h
      | false =>
          rw [optional] at h
          simp only [serializeValue] at h
          cases h
          exact ⟨rfl, .missing (once.resolve_right (by simpa using optional))⟩
  | one element =>
      cases element with
      | text found =>
          simp only [serializeValue] at h
          cases h
      | node node | token token =>
          simp only [serializeValue] at h
          cases h
          rw [← sort (.one _)]
          exact ⟨rfl, .misfit (by simp) (unfit (by simp) (by simp))⟩
  | many elements =>
      simp only [serializeValue] at h
      cases h
      rw [← sort (.many elements)]
      exact ⟨rfl, .misfit (by simp) (unfit (by simp) (by simp))⟩

/-- A value that does not hold its elements as it should is told by its form alone. -/
theorem flaw_of_not_holds (target : item.target ≠ .text) {accept : Accept s.size}
    (unheld : ¬ ∃ elements, Holds item.quantifier value elements)
    (h : s.serializeValue rule tree (.child item.field accept item.quantifier) value =
      .error mismatch) : mismatch.rule = rule ∧ s.Flaw item value mismatch.reason := by
  have unfit : ¬ s.Fits item value := by
    intro fits
    cases fits with
    | text text | noText text _ => exact target text
    | child _ holds _ => exact unheld ⟨_, holds⟩
  cases value with
  | empty =>
      cases hq : item.quantifier with
      | one =>
          rw [hq] at h
          simp only [serializeValue] at h
          cases h
          exact ⟨rfl, .missing hq⟩
      | oneOrMore =>
          rw [hq] at h
          simp only [serializeValue] at h
          cases h
          exact ⟨rfl, .none hq (.inl rfl)⟩
      | optional => exact absurd ⟨[], hq ▸ .absent⟩ unheld
      | zeroOrMore => exact absurd ⟨[], hq ▸ .unset⟩ unheld
  | one element =>
      cases hq : item.quantifier with
      | one => exact absurd ⟨[element], hq ▸ .one element⟩ unheld
      | optional => exact absurd ⟨[element], hq ▸ .present element⟩ unheld
      | zeroOrMore | oneOrMore =>
          rw [hq] at h
          simp only [serializeValue] at h
          cases h
          rw [← Item.sortFor_one target (by simp [hq, Quantifier.repeats]) element]
          exact ⟨rfl, .misfit (by simp) unfit⟩
  | many elements =>
      cases hq : item.quantifier with
      | one | optional =>
          rw [hq] at h
          simp only [serializeValue] at h
          cases h
          rw [← Item.sortFor_many target (by simp [hq, Quantifier.repeats]) elements]
          exact ⟨rfl, .misfit (by simp) unfit⟩
      | zeroOrMore => exact absurd ⟨elements, hq ▸ .many elements⟩ unheld
      | oneOrMore =>
          cases elements with
          | nil =>
              rw [hq] at h
              simp only [serializeValue] at h
              cases h
              exact ⟨rfl, .none hq (.inr rfl)⟩
          | cons first rest =>
              exact absurd ⟨first :: rest, hq ▸ .some (List.cons_ne_nil _ _)⟩ unheld

/-- A value that cannot be written has a flaw, or holds a node that cannot be written. -/
theorem flaw_of_serializeValue {step : Step s.size} (resolved : s.Resolves item step)
    (once : item.target = .text → item.quantifier = .one ∨ item.quantifier = .optional)
    (h : s.serializeValue rule tree step value = .error mismatch) :
    mismatch.rule = rule ∧ s.Flaw item value mismatch.reason ∨
      ∃ node, .node node ∈ value.elements ∧ s.serialize node = .error mismatch := by
  by_cases target : item.target = .text
  · cases resolved with
    | text _ => exact .inl (flaw_of_text target (once target) h)
    | token other | rule other => simp [target] at other
  · obtain ⟨accept, rfl⟩ := resolved.exists_accept target
    by_cases held : ∃ elements, Holds item.quantifier value elements
    · obtain ⟨elements, holds⟩ := held
      rw [serializeValue_of_holds holds] at h
      obtain ⟨element, he, broken⟩ := serializeElements_eq_error h
      obtain ⟨rfl, unsuited⟩ | ⟨node, rfl, within⟩ := serializeElement_eq_error broken
      · left
        rw [← resolved.target_eq] at unsuited
        rw [← sort_targetOf, ← resolved.target_eq, ← Item.sortFor_of_holds target holds]
        refine ⟨rfl, .misfit ?_ fun fits => ?_⟩
        · rintro rfl
          rw [← holds.elements_eq] at he
          cases he
        · cases fits with
          | text text | noText text _ => exact target text
          | child _ holds' suits =>
              rw [← holds'.elements_eq, holds.elements_eq] at suits
              exact unsuited (suits element he)
      · exact .inr ⟨node, holds.elements_eq ▸ he, within⟩
    · exact .inl (flaw_of_not_holds target held h)

end

/-- Fields that cannot be written show why, or a node in them cannot be written. -/
theorem exhibits_of_serializeFields {items : List Item} {steps : List (Step s.size)}
    {fields : List Field} (resolves : List.Forall₂ s.Resolves items steps)
    (once : ∀ item ∈ items, item.target = .text →
      item.quantifier = .one ∨ item.quantifier = .optional)
    (lengths : fields.length = items.length)
    (h : s.serializeFields rule tree steps fields = .error mismatch) :
    mismatch.rule = rule ∧ s.Exhibits items fields mismatch.reason ∨
      ∃ field ∈ fields, ∃ node, .node node ∈ field.value.elements ∧
        s.serialize node = .error mismatch := by
  induction resolves generalizing tree fields with
  | nil =>
      simp only [serializeFields] at h
      cases h
  | @cons item step items steps resolved _ ih =>
      obtain _ | ⟨⟨name, value⟩, fields⟩ := fields
      · cases lengths
      obtain ⟨here, later⟩ := List.forall_mem_cons.mp once
      have lengths : fields.length = items.length := Nat.succ.inj lengths
      rw [serializeFields, check_bind_eq_error_iff] at h
      obtain misnamed | ⟨named, h⟩ := h
      · obtain ⟨other, rfl⟩ := checkField_eq_error misnamed
        rw [← resolved.field_eq] at other ⊢
        exact .inl ⟨rfl, @Exhibits.name s _ _ item ⟨name, value⟩ List.mem_cons_self other⟩
      · have same : name = item.field := by
          simpa [checkField, resolved.field_eq] using named
        obtain broken | ⟨middle, _, h⟩ := bind_eq_error_iff.mp h
        · obtain ⟨hr, flaw⟩ | ⟨node, held, within⟩ := flaw_of_serializeValue resolved here broken
          · exact .inl ⟨hr, @Exhibits.value s _ _ item ⟨name, value⟩ _ List.mem_cons_self same flaw⟩
          · exact .inr ⟨_, List.mem_cons_self, node, held, within⟩
        · obtain ⟨hr, exhibits⟩ | ⟨field, hf, node, held, within⟩ := ih later lengths h
          · exact .inl ⟨hr, exhibits.cons lengths item ⟨name, value⟩⟩
          · exact .inr ⟨field, List.mem_cons_of_mem _ hf, node, held, within⟩

/-- A node in the only field of a rule that hands on, or else what the field shows. -/
theorem exhibits_of_serializeInner {target : s.Id} {fields : List Field}
    (lengths : fields.length = 1)
    (h : s.serializeInner rule target fields = .error mismatch) :
    mismatch.rule = rule ∧ s.Exhibits [wrappedItem (s.name target)] fields mismatch.reason ∨
      (∃ elements, fields = [⟨innerField, .many elements⟩] ∧
        mismatch = ⟨rule, .missingValue innerField⟩) ∨
      ∃ field ∈ fields, ∃ node, .node node ∈ field.value.elements ∧
        s.serialize node = .error mismatch := by
  obtain ⟨⟨name, value⟩, rfl⟩ := List.length_eq_one_iff.mp lengths
  unfold serializeInner at h
  rw [check_bind_eq_error_iff] at h
  obtain misnamed | ⟨named, h⟩ := h
  · obtain ⟨other, rfl⟩ := checkField_eq_error misnamed
    exact .inl ⟨rfl, @Exhibits.name s _ _ (wrappedItem _) ⟨name, value⟩ List.mem_cons_self other⟩
  · have same : name = innerField := by simpa [checkField] using named
    subst same
    cases value with
    | empty =>
        cases h
        exact .inl ⟨rfl, .value List.mem_cons_self rfl (.missing rfl)⟩
    | many elements =>
        cases h
        exact .inr (.inl ⟨elements, rfl, rfl⟩)
    | one element =>
        obtain ⟨rfl, unsuited⟩ | ⟨node, rfl, within⟩ := serializeElement_eq_error h
        · refine .inl ⟨rfl, .value List.mem_cons_self rfl (.misfit (by simp) fun fits => ?_)⟩
          generalize hv : FieldValue.one element = value at fits
          cases fits with
          | text target | noText target _ => cases target
          | child _ holds suits =>
              cases hv
              cases holds
              exact unsuited (suits element List.mem_cons_self)
        · exact .inr (.inr ⟨_, List.mem_cons_self, node, List.mem_cons_self, within⟩)

/-- Where a value fits, nothing is wrong with it. -/
theorem Fits.not_flaw {item : Item} {value : FieldValue} {reason : Mismatch}
    (fits : s.Fits item value) : ¬ s.Flaw item value reason := by
  intro flaw
  cases flaw with
  | missing one =>
      cases fits with
      | noText _ optional => simp [one] at optional
      | child _ holds _ =>
          rw [one] at holds
          cases holds
  | none more bare =>
      cases fits with
      | text _ => simp at bare
      | noText _ optional => simp [more] at optional
      | child _ holds _ =>
          rw [more] at holds
          cases holds with
          | some some => simp [some] at bare
  | misfit _ unfit => exact unfit fits

section

variable {typed : Node → Prop} {slots : List Item} {fields : List Field}

theorem FieldsTyped.length_fields (h : s.FieldsTyped typed slots fields) :
    fields.length = slots.length := by
  induction h with
  | nil => rfl
  | text _ _ ih | noText _ _ _ ih | child _ _ _ _ ih => exact congrArg (· + 1) ih

theorem FieldsTyped.fits_of_mem {item : Item} {field : Field} (h : s.FieldsTyped typed slots fields)
    (hm : (item, field) ∈ slots.zip fields) :
    field.name = item.field ∧ s.Fits item field.value := by
  induction h with
  | nil => cases hm
  | text target _ ih =>
      cases hm with
      | head => exact ⟨rfl, .text target⟩
      | tail _ hm => exact ih hm
  | noText target optional _ ih =>
      cases hm with
      | head => exact ⟨rfl, .noText target optional⟩
      | tail _ hm => exact ih hm
  | child target holds suits _ ih =>
      cases hm with
      | head => exact ⟨rfl, .child target holds fun element he => (suits element he).forget⟩
      | tail _ hm => exact ih hm

theorem FieldsTyped.not_exhibits {reason : Mismatch} (h : s.FieldsTyped typed slots fields) :
    ¬ s.Exhibits slots fields reason := by
  intro exhibits
  cases exhibits with
  | arity other => exact other h.length_fields
  | name hm other => exact other (h.fits_of_mem hm).1
  | value hm _ flaw => exact (h.fits_of_mem hm).2.not_flaw flaw

end

theorem slots_of_hasBody {id : s.Id} {body : Body} (has : s.HasBody id body) :
    (s.rule id).slots = body.items := by
  simp [Rule.slots, has.1, has.2]

theorem slots_of_delegates {id : s.Id} {body : Body} (form : (s.rule id).form = .leaf body)
    (delegates : body.delegates = true) : (s.rule id).slots = [wrappedItem body.root] := by
  simp [Rule.slots, form, delegates]

/-- A well-typed node has the fields of its rule. -/
theorem WellTyped.fieldsTyped {node : Node} (h : s.WellTyped node) :
    ∃ id body, s.name id = node.rule ∧ (s.rule id).form = .leaf body ∧
      s.FieldsTyped s.WellTyped (s.rule id).slots node.fields := by
  cases h with
  | @body id body fields has typed =>
      exact ⟨id, body, rfl, has.1, slots_of_hasBody has ▸ typed⟩
  | @wrapped id body inner form delegates implements typed =>
      refine ⟨id, body, rfl, form, ?_⟩
      rw [slots_of_delegates form delegates]
      refine @FieldsTyped.child s _ (wrappedItem body.root) _ _ _ _ ?_ (.one (.node inner)) ?_ .nil
      · simp [wrappedItem, Item.of]
      · exact List.forall_mem_singleton.mpr (.node implements typed)

theorem wellTyped_of_nested {value : FieldValue} {part : Node} (nested : value.Nested part)
    (typed : ∀ node, .node node ∈ value.elements → s.WellTyped node) : s.WellTyped part := by
  induction nested with
  | held held => exact typed _ held
  | deeper held hf _ ih =>
      obtain ⟨_, _, _, _, fields⟩ := (typed _ held).fieldsTyped
      exact ih fun _ => fields.typed_of_mem hf

theorem WellTyped.part {part node : Node} (h : s.WellTyped node) (hp : part.Part node) :
    s.WellTyped part := by
  obtain rfl | ⟨field, hf, nested⟩ := hp
  · exact h
  · obtain ⟨_, _, _, _, fields⟩ := h.fieldsTyped
    exact wellTyped_of_nested nested fun _ => fields.typed_of_mem hf

namespace Lawful

variable (lawful : s.Lawful)
include lawful

theorem not_shows_of_wellTyped {node : Node} {reason : Mismatch} (typed : s.WellTyped node) :
    ¬ s.Shows node reason := by
  obtain ⟨id, body, hn, form, fields⟩ := typed.fieldsTyped
  intro shows
  cases shows with
  | unknown unknown => exact unknown (mem_names_iff.mpr ⟨id, hn⟩)
  | choice hn' choice =>
      cases lawful.name_injective (hn.trans hn'.symm)
      simp [form] at choice
  | fields hn' _ exhibits =>
      cases lawful.name_injective (hn.trans hn'.symm)
      exact fields.not_exhibits exhibits

/-- What is reported of a rule is a flaw of the node at hand, or of one nested in it. -/
theorem blamed_of_serialize (node : Node) (h : s.serialize node = .error mismatch) :
    ∃ part : Node, part.Part node ∧ part.rule = mismatch.rule ∧
      s.Blamed part mismatch.reason := by
  induction node using Node.nested_induction with
  | step rule fields ih =>
      -- where a node in a field cannot be written, that one is blamed
      have within {field : Field} {inner : Node} (hf : field ∈ fields)
          (held : .node inner ∈ field.value.elements) (h : s.serialize inner = .error mismatch) :
          ∃ part : Node, part.Part ⟨rule, fields⟩ ∧ part.rule = mismatch.rule ∧
            s.Blamed part mismatch.reason := by
        obtain ⟨part, hp, blamed⟩ := ih field hf inner held h
        exact ⟨part, Node.part_iff.mpr (.inr ⟨field, hf, inner, held, hp⟩), blamed⟩
      rw [serialize] at h
      cases hi : s.find? rule with
      | none =>
          simp only [hi, Option.map_none] at h
          cases h
          refine ⟨⟨rule, fields⟩, .inl rfl, rfl, .inl (.unknown fun known => ?_)⟩
          obtain ⟨id, hn⟩ := mem_names_iff.mp known
          simp [lawful.find?_eq_some_iff.mpr hn] at hi
      | some id =>
          have hn := lawful.find?_eq_some_iff.mp hi
          cases hp : s.plan id with
          | choice alternatives =>
              simp only [hi, Option.map_some, hp] at h
              cases h
              exact ⟨_, .inl rfl, rfl, .inl (.choice hn (lawful.form_of_choice hp))⟩
          | delegate target =>
              simp only [hi, Option.map_some, hp] at h
              obtain ⟨body, form, delegates, root⟩ := lawful.body_of_delegate hp
              have slots := slots_of_delegates form delegates
              rw [root] at slots
              obtain short | ⟨full, h⟩ := check_bind_eq_error_iff.mp h
              · obtain ⟨other, rfl⟩ := checkArity_eq_error short
                exact ⟨_, .inl rfl, rfl, .inl (.fields hn form (slots ▸ .arity other))⟩
              · have full : fields.length = 1 := by simpa [checkArity] using full
                obtain ⟨hr, exhibits⟩ | ⟨elements, hf, rfl⟩ | ⟨field, hf, inner, held, h⟩ :=
                  exhibits_of_serializeInner full h
                · exact ⟨_, .inl rfl, hr.symm, .inl (.fields hn form (slots ▸ exhibits))⟩
                · have wraps : s.WrapsCollection ⟨rule, fields⟩ :=
                    ⟨id, elements, hn, ⟨body, form, delegates⟩, hf⟩
                  exact ⟨_, .inl rfl, rfl, .inr ⟨wraps, rfl⟩⟩
                · exact within hf held h
          | shape root steps =>
              simp only [hi, Option.map_some, hp] at h
              obtain ⟨body, has, _, resolves⟩ := lawful.body_of_shape hp
              have slots := slots_of_hasBody has
              obtain short | ⟨full, h⟩ := check_bind_eq_error_iff.mp h
              · obtain ⟨other, rfl⟩ := checkArity_eq_error short
                rw [← resolves.length_eq, ← slots] at other ⊢
                exact ⟨_, .inl rfl, rfl, .inl (.fields hn has.1 (.arity other))⟩
              · have full : fields.length = body.items.length := by
                  simpa [checkArity, resolves.length_eq] using full
                have once := (lawful.body_wellFormed has).items
                obtain ⟨hr, exhibits⟩ | ⟨field, hf, inner, held, h⟩ :=
                  exhibits_of_serializeFields resolves (fun item hi => (once item hi).text) full h
                · exact ⟨_, .inl rfl, hr.symm, .inl (.fields hn has.1 (slots ▸ exhibits))⟩
                · exact within hf held h

/-- A wrapped collection is neither written nor reported as one. -/
theorem serialize_of_wrapsCollection {node : Node} (h : s.WrapsCollection node) :
    s.serialize node = .error ⟨node.rule, .missingValue innerField⟩ ∧
      s.Shows node (.wrongValue innerField "a single value") ∧
      ¬ s.Shows node (.missingValue innerField) := by
  obtain ⟨rule, fields⟩ := node
  obtain ⟨id, elements, hn, ⟨body, form, delegates⟩, hf⟩ := h
  have hn : s.name id = rule := hn
  subst hn
  cases hf
  have slots := slots_of_delegates form delegates
  refine ⟨?_, .fields rfl form ?_, fun shows => ?_⟩
  · obtain ⟨target, hp, _⟩ := lawful.delegate_of_body form delegates
    rw [serialize, lawful.find?_map_plan, hp]
    rfl
  · rw [slots]
    refine @Exhibits.value s _ _ (wrappedItem body.root) ⟨innerField, .many elements⟩ _
      List.mem_cons_self rfl (.misfit (by simp) fun fits => ?_)
    cases fits with
    | child _ holds _ => cases holds
  · cases shows with
    | fields hn _ exhibits =>
        cases lawful.name_injective hn
        rw [slots] at exhibits
        cases exhibits with
        | value hm _ flaw =>
            cases hm with
            | head => cases flaw
            | tail _ hm => cases hm

end Lawful

/-- A node can be written unless it or one nested in it has a flaw, and a failure names a rule and
a flaw of such a node. Only a collection that a node wraps is reported as something else: as an
absent value. -/
theorem serialize_failure_blames {schema : Schema} (hc : compile schema = .ok s) :
    (∀ node, (∃ tree, s.serialize node = .ok tree) ↔
      ∀ part : Node, part.Part node → ∀ reason, ¬ s.Shows part reason) ∧
    (∀ node mismatch, s.serialize node = .error mismatch →
      ∃ part : Node, part.Part node ∧ part.rule = mismatch.rule ∧
        (s.Shows part mismatch.reason ∨
          s.WrapsCollection part ∧ mismatch.reason = .missingValue innerField)) ∧
    (∀ node, s.WrapsCollection node →
      s.serialize node = .error ⟨node.rule, .missingValue innerField⟩ ∧
        s.Shows node (.wrongValue innerField "a single value") ∧
        ¬ s.Shows node (.missingValue innerField)) := by
  have lawful := (lawful_of_compile hc).2
  refine ⟨fun node => ⟨?_, fun sound => ?_⟩, fun node _ => lawful.blamed_of_serialize node,
    fun _ => lawful.serialize_of_wrapsCollection⟩
  · intro ⟨tree, h⟩ part hp reason
    have typed := (lawful.serialize_eq_ok_iff.mp h).1
    exact lawful.not_shows_of_wellTyped (typed.part hp)
  · cases h : s.serialize node with
    | ok tree => exact ⟨tree, rfl⟩
    | error mismatch =>
        obtain ⟨part, hp, _, shows | ⟨wraps, _⟩⟩ := lawful.blamed_of_serialize node h
        · exact absurd shows (sound part hp _)
        · exact absurd (lawful.serialize_of_wrapsCollection wraps).2.1 (sound part hp _)

end Shapes

/-- Brackets around a collection, if only of one group. -/
def bracketedMany : Node :=
  ⟨"paren", [⟨innerField, .many [.node ⟨"group", [⟨"note", .empty⟩,
    ⟨"expr", .one (.node ⟨"ident", [⟨"name", .one (.text "a")⟩]⟩)⟩]⟩]⟩]⟩

theorem wrapsCollection_bracketedMany : statementShapes.WrapsCollection bracketedMany :=
  ⟨(5 : Fin 7), _, rfl, ⟨_, rfl, rfl⟩, rfl⟩

theorem eq_bracketedMany {part : Node} (hp : part.Part bracketedMany) (hr : part.rule = "paren") :
    part = bracketedMany := by
  simp only [bracketedMany, Node.part_iff, List.mem_cons, List.not_mem_nil, or_false,
    exists_eq_left, exists_eq_or_imp, FieldValue.elements, Element.node.injEq, false_and,
    exists_false, false_or, reduceCtorEq] at hp
  obtain rfl | rfl | rfl := hp
  · rfl
  · simp at hr
  · simp at hr

/-- A block whose only statement has no body. -/
def bareIf : Node :=
  ⟨"block", [⟨"items", .many [.node ⟨"ifStmt", [
    ⟨"cond", .one (.node ⟨"ident", [⟨"name", .one (.text "a")⟩]⟩)⟩,
    ⟨"body", .many []⟩, ⟨"mark", .empty⟩]⟩]⟩]⟩

/-- The statement in the block is blamed for its body, and brackets for what they do not show. -/
theorem serialize_failure_blames_statements :
    statementShapes.serialize bareIf = .error ⟨"ifStmt", .emptyCollection "body"⟩ ∧
      (∃ part : Node, part.Part bareIf ∧ part.rule = "ifStmt" ∧
        statementShapes.Shows part (.emptyCollection "body")) ∧
      statementShapes.Shows bracketedMany (.wrongValue innerField "a single value") := by
  obtain ⟨_, blames, wrapped⟩ := Shapes.serialize_failure_blames compile_statements
  have failed : statementShapes.serialize bareIf = .error ⟨"ifStmt", .emptyCollection "body"⟩ := rfl
  refine ⟨failed, ?_, (wrapped bracketedMany wrapsCollection_bracketedMany).2.1⟩
  obtain ⟨part, hp, hr, shows | ⟨_, other⟩⟩ := blames bareIf _ failed
  · exact ⟨part, hp, hr, shows⟩
  · cases other

/-- The brackets hold something, and are reported as if they held nothing. -/
theorem serialize_bracketedMany :
    statementShapes.serialize bracketedMany = .error ⟨"paren", .missingValue innerField⟩ ∧
      ∀ part : Node, part.Part bracketedMany → part.rule = "paren" →
        ¬ statementShapes.Shows part (.missingValue innerField) := by
  have lawful := (Shapes.lawful_of_compile compile_statements).2
  obtain ⟨failed, _, unshown⟩ := lawful.serialize_of_wrapsCollection wrapsCollection_bracketedMany
  refine ⟨failed, fun part hp hr => ?_⟩
  rw [eq_bracketedMany hp hr]
  exact unshown

end TreeShape
