import TreeShape.Proofs.Capability
import TreeShape.Proofs.Reading

/-!
Deterministic shapes: the kind of a node says which alternative it is for, and the kind of a child
says whether it still belongs to a segment. Every layout is then the one that reading finds, and a
rule reads as its ancestors do.
-/

namespace TreeShape

/-- An item that the next child may be for, since those before it can do without one. -/
def Leads (items : List Item) (item : Item) : Prop :=
  ∃ before after, items = before ++ item :: after ∧ ∀ skipped ∈ before,
    skipped.capturesText = true ∨ skipped.quantifier = .optional ∨
      skipped.quantifier = .zeroOrMore

@[simp] theorem not_leads_nil {item : Item} : ¬ Leads [] item := by
  rintro ⟨before, after, h, _⟩
  simp at h

@[simp] theorem leads_cons_iff {item later : Item} {items : List Item} :
    Leads (item :: items) later ↔ item = later ∨
      (item.capturesText = true ∨ item.quantifier = .optional ∨ item.quantifier = .zeroOrMore) ∧
        Leads items later := by
  constructor
  · rintro ⟨before, after, h, skips⟩
    cases before with
    | nil => exact .inl (List.cons.inj h).1
    | cons skipped before =>
        obtain ⟨rfl, rfl⟩ := List.cons.inj h
        obtain ⟨skip, skips⟩ := List.forall_mem_cons.mp skips
        exact .inr ⟨skip, before, after, rfl, skips⟩
  · rintro (rfl | ⟨skip, before, after, rfl, skips⟩)
    · exact ⟨[], items, rfl, nofun⟩
    · exact ⟨item :: before, after, rfl, List.forall_mem_cons.mpr ⟨skip, skips⟩⟩

theorem Holds.skip_of_nil {quantifier : Quantifier} {value : FieldValue}
    (h : Holds quantifier value []) : quantifier = .optional ∨ quantifier = .zeroOrMore := by
  cases h with
  | absent => exact .inl rfl
  | unset | many => exact .inr rfl
  | some some => exact absurd rfl some

namespace Shapes

variable (s : Shapes)

/-- The kinds of node that an item takes. Text is no child, so it takes none. -/
def ItemTakes (item : Item) (kind : String) : Prop :=
  match item.target with
  | .text => False
  | .token expected => kind = expected
  | .rule name => ∃ id, s.name id = name ∧ s.accepts id kind = true

/-- No two alternatives of a rule accept the same kind. -/
def ExclusiveChoices : Prop :=
  ∀ id a b, s.name a ∈ (s.rule id).alternatives → s.name b ∈ (s.rule id).alternatives → a ≠ b →
    ∀ kind, ¬ (s.accepts a kind = true ∧ s.accepts b kind = true)

/-- An item that may go on takes no kind that is also taken by an item which may come next. -/
def ExclusiveItems (items : List Item) : Prop :=
  ∀ before item after, items = before ++ item :: after → item.quantifier ≠ .one →
    ∀ later, Leads after later → ∀ kind, ¬ (s.ItemTakes item kind ∧ s.ItemTakes later kind)

structure Deterministic : Prop where
  choices : s.ExclusiveChoices
  bodies : ∀ id body, s.HasBody id body → s.ExclusiveItems body.items

/-- A collection is always set. -/
def Assigned : SegmentEnd s.size :=
  fun _ quantifier value _ => quantifier.repeats = true → value ≠ .empty

variable {s}

@[simp] theorem exclusiveItems_nil : s.ExclusiveItems [] := by
  intro before item after h
  simp at h

@[simp] theorem exclusiveItems_cons_iff {item : Item} {items : List Item} :
    s.ExclusiveItems (item :: items) ↔
      (item.quantifier ≠ .one → ∀ later, Leads items later →
        ∀ kind, ¬ (s.ItemTakes item kind ∧ s.ItemTakes later kind)) ∧
      s.ExclusiveItems items := by
  constructor
  · intro h
    refine ⟨h [] item items rfl, ?_⟩
    rintro before item' after rfl
    exact h (item :: before) item' after rfl
  · rintro ⟨first, others⟩ before item' after h
    cases before with
    | nil =>
        obtain ⟨rfl, rfl⟩ := List.cons.inj h
        exact first
    | cons _ before =>
        obtain ⟨_, rfl⟩ := List.cons.inj h
        exact others before item' after rfl

namespace Lawful

variable (lawful : s.Lawful)
include lawful

theorem itemTakes_iff {item : Item} {field kind : String} {accept : Accept s.size}
    {quantifier : Quantifier} (h : s.Resolves item (.child field accept quantifier)) :
    s.ItemTakes item kind ↔ s.Takes accept kind := by
  cases h with
  | token target => simp [ItemTakes, target, Takes]
  | rule target => simp [ItemTakes, target, Takes, lawful.name_injective.eq_iff]

section Layouts

variable {related : s.Id → Node → Tree → Prop} {ends : SegmentEnd s.size} {text : Option String}
  {items : List Item} {steps : List (Step s.size)} {fields : List Field} {children : List Tree}
  (accepted : ∀ {id node tree}, related id node tree → s.accepts id tree.kind = true)
include accepted

omit lawful in
theorem takes_of_slot {accept : Accept s.size} {element : Element} {tree : Tree}
    (h : Slot related accept element tree) : s.Takes accept tree.kind := by
  cases h with
  | token hk => exact hk
  | node hr => exact accepted hr

/-- The first of the children that remain is taken by an item that may come next. -/
theorem exists_leads (resolves : List.Forall₂ s.Resolves items steps)
    (layout : Layout related ends text steps fields children) {child : Tree}
    (hc : child ∈ children.head?) :
    ∃ later, Leads items later ∧ s.ItemTakes later child.kind := by
  induction layout generalizing items with
  | nil => cases hc
  | text _ _ ih | noText _ _ ih =>
      cases resolves with
      | cons resolved resolves =>
          obtain ⟨later, leads, takes⟩ := ih resolves hc
          exact ⟨later, leads_cons_iff.mpr (.inr ⟨.inl resolved.capturesText_eq, leads⟩), takes⟩
  | child holds slots _ _ ih =>
      cases resolves with
      | cons resolved resolves =>
          cases slots with
          | nil =>
              obtain ⟨later, leads, takes⟩ := ih resolves hc
              have skip := holds.skip_of_nil
              rw [resolved.quantifier_eq] at skip
              exact ⟨later, leads_cons_iff.mpr (.inr ⟨.inr skip, leads⟩), takes⟩
          | cons slot _ =>
              cases hc
              have takes := (lawful.itemTakes_iff resolved).mpr (takes_of_slot accepted slot)
              exact ⟨_, leads_cons_iff.mpr (.inl rfl), takes⟩

/-- Where items exclude one another, no segment could have gone on. -/
theorem layout_greedy (resolves : List.Forall₂ s.Resolves items steps)
    (exclusive : s.ExclusiveItems items)
    (layout : Layout related s.Assigned text steps fields children) :
    Layout related s.Greedy text steps fields children := by
  induction layout generalizing items with
  | nil => exact .nil
  | text ht _ ih =>
      cases resolves with
      | cons _ resolves => exact .text ht (ih resolves (exclusiveItems_cons_iff.mp exclusive).2)
  | noText ht _ ih =>
      cases resolves with
      | cons _ resolves => exact .noText ht (ih resolves (exclusiveItems_cons_iff.mp exclusive).2)
  | child holds slots assigned layout ih =>
      cases resolves with
      | @cons item _ items _ resolved resolves =>
          obtain ⟨first, others⟩ := exclusiveItems_cons_iff.mp exclusive
          refine .child holds slots ⟨assigned, ?_⟩ (ih resolves others)
          intro goesOn child hc takes
          -- The child would be taken both by this item and by the one that it is laid out for.
          have several : item.quantifier ≠ .one := by
            rw [← resolved.quantifier_eq]
            rintro rfl
            cases holds with
            | one => simp [Quantifier.repeats] at goesOn
          obtain ⟨later, leads, laterTakes⟩ := lawful.exists_leads accepted resolves layout hc
          have itemTakes := (lawful.itemTakes_iff resolved).mpr takes
          exact first several later leads _ ⟨itemTakes, laterTakes⟩

end Layouts

section Choices

variable (exclusive : s.ExclusiveChoices) {id alternative : s.Id}
include exclusive

theorem find?_accepts_eq {kind : String} {alternatives : List s.Id}
    (hp : s.plan id = .choice alternatives) (hm : alternative ∈ alternatives)
    (ha : s.accepts alternative kind = true) :
    alternatives.find? (s.accepts · kind) = some alternative := by
  cases found : alternatives.find? (s.accepts · kind) with
  | none => exact absurd ha (List.find?_eq_none.mp found alternative hm)
  | some first =>
      have listed : ∀ next ∈ alternatives, s.name next ∈ (s.rule id).alternatives :=
        fun next hn => lawful.mem_alternatives_iff.mpr ⟨alternatives, next, hp, hn, rfl⟩
      have first_listed := listed first (List.mem_of_find?_eq_some found)
      have accepts := List.find?_some found
      by_contra hne
      have differ : first ≠ alternative := fun he => hne (congrArg some he)
      exact exclusive id first alternative first_listed (listed _ hm) differ kind ⟨accepts, ha⟩

/-- A rule reads what it accepts as every rule does that it may stand for. -/
theorem parse_eq_of_implements {tree : Tree} {above : s.Id}
    (h : s.implements (s.name id) (s.name above) = true) (ha : s.accepts id tree.kind = true) :
    s.parse tree above = s.parse tree id := by
  have reach := Ancestry.implements_iff.mp h
  generalize hn : s.name above = name at reach
  induction reach generalizing above with
  | refl => rw [lawful.name_injective hn]
  | tail reach listed ih =>
      obtain ⟨_, alternatives, next, rfl, hp, hm, rfl⟩ := lawful.listed_iff.mp listed
      cases lawful.name_injective hn
      have ha := lawful.accepts_of_implements (Ancestry.implements_iff.mpr reach) ha
      rw [lawful.parse_eq_plan tree above, hp]
      dsimp only
      rw [lawful.find?_accepts_eq exclusive hp hm ha]
      exact ih (Ancestry.implements_iff.mpr reach) rfl

end Choices

end Lawful
end Shapes
end TreeShape
