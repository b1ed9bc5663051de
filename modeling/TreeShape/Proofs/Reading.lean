import TreeShape.Proofs.Dispatch
import TreeShape.Proofs.Intake
import TreeShape.Proofs.Layout

/-!
Reading by a body: it succeeds exactly when the fields lie along all children and no segment could
have gone on.
-/

namespace TreeShape.Shapes

variable (s : Shapes)

/-- The kinds of node that a step takes. -/
def Takes : Accept s.size → (kind : String) → Prop
  | .token expected, kind => kind = expected
  | .rule id, kind => s.accepts id kind = true

/-- A step that may go on does so as long as it takes the next child, and a collection is always
set. -/
def Greedy : SegmentEnd s.size :=
  fun accept quantifier value rest =>
    (quantifier.repeats = true → value ≠ .empty) ∧
      (quantifier.repeats = true ∨ value = .empty →
        ∀ child ∈ rest.head?, ¬ s.Takes accept child.kind)

def Parses (id : s.Id) (node : Node) (tree : Tree) : Prop :=
  s.parse tree id = .ok node

variable {s}

theorem intake_stops_iff {accept : Accept s.size} {trees : List Tree} :
    (s.intake accept).Stops (s.readings trees) ↔
      ∀ child ∈ trees.head?, ¬ s.Takes accept child.kind := by
  cases trees with
  | nil => simp [readings_eq_map, Intake.Stops]
  | cons tree trees =>
      cases accept <;>
        simp [readings_eq_map, Intake.Stops, intake, Takes, Tree.is, canParse]

theorem readings_eq_append_iff {trees : List Tree} {run left : List s.Child} :
    s.readings trees = run ++ left ↔
      ∃ segment rest, trees = segment ++ rest ∧ run = s.readings segment ∧
        left = s.readings rest := by
  simp only [readings_eq_map, List.map_eq_append_iff, @eq_comm _ run, @eq_comm _ left]

theorem takeStep_text_eq_ok_iff {rule field : String} {text : Option String} {optional : Bool}
    {rest left : List s.Child} {value : FieldValue} :
    s.takeStep rule text rest (.text field optional) = .ok (value, left) ↔ left = rest ∧
      ((∃ found, text = some found ∧ value = .one (.text found)) ∨
        (text = none ∧ optional = true ∧ value = .empty)) := by
  cases optional <;> cases text <;>
    simp [takeStep, requireText, FieldValue.ofOption, bind, Except.bind, pure, Except.pure,
      and_comm, eq_comm]

/-- One step over children, whatever its quantifier: the elements of a run, which cannot go on
where the step may. -/
theorem takeStep_child_eq_ok_iff {rule field : String} {text : Option String}
    {accept : Accept s.size} {quantifier : Quantifier} {rest left : List s.Child}
    {value : FieldValue} :
    s.takeStep rule text rest (.child field accept quantifier) = .ok (value, left) ↔
      ∃ run elements, rest = run ++ left ∧
        List.Forall₂ (s.intake accept).Reads run elements ∧ Holds quantifier value elements ∧
        (quantifier.repeats = true → value ≠ .empty) ∧
        (quantifier.repeats = true ∨ value = .empty → (s.intake accept).Stops left) := by
  cases quantifier with
  | one =>
      simp only [takeStep, bind_eq_ok_iff, pure_eq_ok_iff]
      constructor
      · rintro ⟨⟨element, _⟩, taken, h⟩
        cases h
        obtain ⟨child, rfl, reads⟩ := Intake.takeOne_eq_ok_iff.mp taken
        exact ⟨[child], [element], rfl, .cons reads .nil, .one element, nofun,
          by simp [Quantifier.repeats]⟩
      · rintro ⟨run, elements, rfl, reads, holds, _⟩
        cases holds with
        | one element =>
            obtain ⟨child, _, hr, hn, rfl⟩ := List.forall₂_cons_right_iff.mp reads
            cases hn
            exact ⟨(element, left), Intake.takeOne_eq_ok_iff.mpr ⟨child, rfl, hr⟩, rfl⟩
  | optional =>
      simp only [takeStep, bind_eq_ok_iff, pure_eq_ok_iff]
      constructor
      · rintro ⟨⟨element, _⟩, taken, h⟩
        cases h
        obtain ⟨child, found, rfl, rfl, reads⟩ | ⟨rfl, rfl, stops⟩ :=
          Intake.takeOptional_eq_ok_iff.mp taken
        · exact ⟨[child], [found], rfl, .cons reads .nil, .present found, nofun,
            by simp [Quantifier.repeats, FieldValue.ofOption]⟩
        · exact ⟨[], [], rfl, .nil, .absent, nofun, fun _ => stops⟩
      · rintro ⟨run, elements, rfl, reads, holds, _, stops⟩
        cases holds with
        | absent =>
            cases reads
            exact ⟨(none, left),
              Intake.takeOptional_eq_ok_iff.mpr (.inr ⟨rfl, rfl, stops (.inr rfl)⟩), rfl⟩
        | present element =>
            obtain ⟨child, _, hr, hn, rfl⟩ := List.forall₂_cons_right_iff.mp reads
            cases hn
            exact ⟨(some element, left),
              Intake.takeOptional_eq_ok_iff.mpr (.inl ⟨child, element, rfl, rfl, hr⟩), rfl⟩
  | zeroOrMore =>
      simp only [takeStep, bind_eq_ok_iff, pure_eq_ok_iff]
      constructor
      · rintro ⟨⟨elements, _⟩, taken, h⟩
        cases h
        obtain ⟨run, rfl, reads, stops⟩ := Intake.takeMany_eq_ok_iff.mp taken
        exact ⟨run, elements, rfl, reads, .many elements, nofun, fun _ => stops⟩
      · rintro ⟨run, elements, rfl, reads, holds, set, stops⟩
        cases holds with
        | unset => exact absurd rfl (set rfl)
        | many elements =>
            exact ⟨(elements, left),
              Intake.takeMany_eq_ok_iff.mpr ⟨run, rfl, reads, stops (.inl rfl)⟩, rfl⟩
  | oneOrMore =>
      simp only [takeStep, bind_eq_ok_iff, pure_eq_ok_iff]
      constructor
      · rintro ⟨⟨elements, _⟩, taken, h⟩
        cases h
        obtain ⟨some, run, rfl, reads, stops⟩ := Intake.takeAtLeastOne_eq_ok_iff.mp taken
        exact ⟨run, elements, rfl, reads, .some some, nofun, fun _ => stops⟩
      · rintro ⟨run, elements, rfl, reads, holds, _, stops⟩
        cases holds with
        | some some =>
            exact ⟨(elements, left), Intake.takeAtLeastOne_eq_ok_iff.mpr
              ⟨some, run, rfl, reads, stops (.inl rfl)⟩, rfl⟩

namespace Lawful

variable (lawful : s.Lawful)
include lawful

theorem intake_reads_iff {accept : Accept s.size} {tree : Tree} {element : Element} :
    (s.intake accept).Reads ⟨tree, s.parse tree⟩ element ↔
      Slot s.Parses accept element tree := by
  cases accept with
  | token kind =>
      simp only [Intake.Reads, intake, Tree.is, beq_iff_eq, Except.ok.injEq]
      constructor
      · rintro ⟨hk, rfl⟩
        exact .token hk
      · rintro ⟨hk⟩
        exact ⟨hk, rfl⟩
  | rule id =>
      simp only [Intake.Reads, intake, canParse, map_eq_ok_iff]
      constructor
      · rintro ⟨_, node, hp, rfl⟩
        exact .node hp
      · intro h
        cases h with
        | node hp => exact ⟨lawful.accepts_of_parse hp, _, hp, rfl⟩

private theorem forall₂_reads_iff {accept : Accept s.size} {trees : List Tree}
    {elements : List Element} :
    List.Forall₂ (s.intake accept).Reads (s.readings trees) elements ↔
      List.Forall₂ (Slot s.Parses accept) elements trees := by
  rw [readings_eq_map, List.forall₂_map_left_iff]
  simp only [lawful.intake_reads_iff]
  exact ⟨List.Forall₂.flip, List.Forall₂.flip⟩

/-- Steps that use up all children are a layout along them. -/
theorem takeSteps_eq_ok_iff {rule : String} {text : Option String} {steps : List (Step s.size)}
    {trees : List Tree} {fields : List Field} :
    s.takeSteps rule text steps (s.readings trees) = .ok (fields, []) ↔
      Layout s.Parses s.Greedy text steps fields trees := by
  induction steps generalizing trees fields with
  | nil =>
      simp only [takeSteps, Except.ok.injEq, Prod.mk.injEq, readings_eq_map, List.map_eq_nil_iff]
      constructor
      · rintro ⟨rfl, rfl⟩
        exact .nil
      · intro h
        cases h
        exact ⟨rfl, rfl⟩
  | cons step steps ih =>
      simp only [takeSteps, bind_eq_ok_iff, pure_eq_ok_iff, Prod.mk.injEq]
      constructor
      · rintro ⟨⟨value, left⟩, taken, ⟨fields, _⟩, others, rfl, rfl⟩
        cases step with
        | text field optional =>
            obtain ⟨rfl, ⟨found, ht, rfl⟩ | ⟨ht, rfl, rfl⟩⟩ := takeStep_text_eq_ok_iff.mp taken
            · exact .text ht (ih.mp others)
            · exact .noText ht (ih.mp others)
        | child field accept quantifier =>
            obtain ⟨run, elements, hr, reads, holds, set, stops⟩ :=
              takeStep_child_eq_ok_iff.mp taken
            obtain ⟨segment, rest, rfl, rfl, rfl⟩ := readings_eq_append_iff.mp hr
            exact .child holds (lawful.forall₂_reads_iff.mp reads)
              ⟨set, fun h => intake_stops_iff.mp (stops h)⟩ (ih.mp others)
      · intro h
        cases h with
        | text ht h =>
            exact ⟨_, takeStep_text_eq_ok_iff.mpr ⟨rfl, .inl ⟨_, ht, rfl⟩⟩, _, ih.mpr h, rfl, rfl⟩
        | noText ht h =>
            exact ⟨_, takeStep_text_eq_ok_iff.mpr ⟨rfl, .inr ⟨ht, rfl, rfl⟩⟩, _, ih.mpr h, rfl, rfl⟩
        | child holds slots greedy h =>
            refine ⟨_, takeStep_child_eq_ok_iff.mpr ⟨_, _,
              readings_eq_append_iff.mpr ⟨_, _, rfl, rfl, rfl⟩, ?_, holds, greedy.1,
              fun h => intake_stops_iff.mpr (greedy.2 h)⟩, _, ih.mpr h, rfl, rfl⟩
            exact lawful.forall₂_reads_iff.mpr slots

/-- A body reads a node of its kind along which its fields can be laid out. -/
theorem parse_shape_iff {id : s.Id} {root : String} {steps : List (Step s.size)} {tree : Tree}
    {node : Node} (hp : s.plan id = .shape root steps) :
    s.parse tree id = .ok node ↔ tree.kind = root ∧ ∃ fields, node = ⟨s.name id, fields⟩ ∧
      Layout s.Parses s.Greedy tree.text steps fields tree.children := by
  simp only [lawful.parse_shape_eq_ok_iff hp, lawful.takeSteps_eq_ok_iff]

end Lawful
end TreeShape.Shapes
