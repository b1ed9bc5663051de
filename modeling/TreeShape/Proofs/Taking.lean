import TreeShape.Proofs.Intake
import TreeShape.Schema.Basic

/-!
The ways of taking children by one another. Taking many is taking the next child again and again,
and taking at least one is taking one and then many, whatever is read and whichever child cannot be.
Over any sequence of takes no child is lost: those consumed and those that remain are the children
there were, and a take that fails consumes none.
-/

namespace TreeShape

namespace Intake

variable {α β : Type} {i : Intake α β} {rule field : String}

/-- Takes the next child again and again, until none is taken. -/
def takeEach (i : Intake α β) (rest : List α) : Except ShapeMismatch (List β × List α) :=
  match _taken : i.takeOptional rest with
  | .error mismatch => .error mismatch
  | .ok (none, tail) => .ok ([], tail)
  | .ok (some value, tail) => do
    let (values, left) ← i.takeEach tail
    return (value :: values, left)
termination_by rest.length
decreasing_by
  obtain ⟨_, _, _, rfl, _⟩ | ⟨none, _⟩ := takeOptional_eq_ok_iff.mp _taken
  · exact Nat.lt_succ_self _
  · cases none

theorem takeMany_of_stops {rest : List α} (stops : i.Stops rest) :
    i.takeMany rest = .ok ([], rest) :=
  takeMany_eq_ok_iff.mpr ⟨[], rfl, .nil, stops⟩

theorem takeMany_cons {child : α} (accepted : i.accepts child = true) (rest : List α) :
    i.takeMany (child :: rest) = (do
      let value ← i.consume child
      let (values, left) ← i.takeMany rest
      return (value :: values, left)) := by
  rw [takeMany, takeMany, List.takeWhile_cons_of_pos accepted, List.dropWhile_cons_of_pos accepted,
    List.mapM_cons]
  cases i.consume child with
  | error mismatch => rfl
  | ok value =>
      cases (rest.takeWhile i.accepts).mapM i.consume with
      | error mismatch => rfl
      | ok values => rfl

theorem takeEach_of_stops {rest : List α} (stops : i.Stops rest) :
    i.takeEach rest = .ok ([], rest) := by
  have none : i.takeOptional rest = .ok (none, rest) :=
    takeOptional_eq_ok_iff.mpr (.inr ⟨rfl, rfl, stops⟩)
  rw [takeEach]
  split
  · next other => cases none.symm.trans other
  · next other =>
    cases none.symm.trans other
    rfl
  · next other => cases none.symm.trans other

theorem takeEach_cons {child : α} (accepted : i.accepts child = true) (rest : List α) :
    i.takeEach (child :: rest) = (do
      let value ← i.consume child
      let (values, left) ← i.takeEach rest
      return (value :: values, left)) := by
  have next : i.takeOptional (child :: rest) = (do return (some (← i.consume child), rest)) :=
    if_pos accepted
  rw [takeEach]
  cases read : i.consume child with
  | error mismatch =>
      rw [read] at next
      split
      · next other =>
        cases next.symm.trans other
        rfl
      · next other => cases next.symm.trans other
      · next other => cases next.symm.trans other
  | ok value =>
      rw [read] at next
      split
      · next other => cases next.symm.trans other
      · next other => cases next.symm.trans other
      · next other =>
        cases next.symm.trans other
        rfl

theorem takeMany_eq_takeEach (i : Intake α β) (rest : List α) :
    i.takeMany rest = i.takeEach rest := by
  induction rest with
  | nil =>
      have stops : i.Stops ([] : List α) := by simp [Stops]
      rw [takeMany_of_stops stops, takeEach_of_stops stops]
  | cons child rest ih =>
      by_cases accepted : i.accepts child = true
      · rw [takeMany_cons accepted, takeEach_cons accepted, ih]
      · have stops : i.Stops (child :: rest) := by simpa [Stops] using accepted
        rw [takeMany_of_stops stops, takeEach_of_stops stops]

theorem takeAtLeastOne_eq (i : Intake α β) (rule field : String) (rest : List α) :
    i.takeAtLeastOne rule field rest = (do
      let (value, tail) ← i.takeOne rule field rest
      let (values, left) ← i.takeMany tail
      return (value :: values, left)) := by
  cases rest with
  | nil => rfl
  | cons child rest =>
      by_cases accepted : i.accepts child = true
      · have first : i.takeOne rule field (child :: rest) = (do return (← i.consume child, rest)) :=
          if_pos accepted
        rw [takeAtLeastOne, takeMany_cons accepted, first]
        cases i.consume child with
        | error mismatch => rfl
        | ok value =>
            cases taken : i.takeMany rest with
            | error mismatch | ok found => simp [bind, Except.bind, pure, Except.pure, taken]
      · have stops : i.Stops (child :: rest) := by simpa [Stops] using accepted
        have first : i.takeOne rule field (child :: rest) =
            .error (i.missing rule field (child :: rest)) := if_neg accepted
        rw [takeAtLeastOne, takeMany_of_stops stops, first]
        rfl

end Intake

/-- One way of taking children, for a field of a rule. -/
structure Take (α β : Type) where
  intake : Intake α β
  quantifier : Quantifier
  rule : String
  field : String

namespace Take

variable {α β : Type}

def apply (take : Take α β) (rest : List α) : Except ShapeMismatch (List β × List α) :=
  match take.quantifier with
  | .one => do
    let (value, tail) ← take.intake.takeOne take.rule take.field rest
    return ([value], tail)
  | .optional => do
    let (value, tail) ← take.intake.takeOptional rest
    return (value.toList, tail)
  | .zeroOrMore => take.intake.takeMany rest
  | .oneOrMore => take.intake.takeAtLeastOne take.rule take.field rest

/-- The values that are taken, or why there are none. -/
def outcome (take : Take α β) (rest : List α) : Except ShapeMismatch (List β) :=
  (take.apply rest).map Prod.fst

/-- The children that remain for whoever takes next. -/
def remainder (take : Take α β) (rest : List α) : List α :=
  match take.apply rest with
  | .ok (_, tail) => tail
  | .error _ => rest

/-- The outcomes of takes one after another, and the children that remain after all of them. -/
def run : List (Take α β) → List α → List (Except ShapeMismatch (List β)) × List α
  | [], rest => ([], rest)
  | take :: takes, rest =>
    let (outcomes, left) := run takes (take.remainder rest)
    (take.outcome rest :: outcomes, left)

/-- The children that a take consumes: those that its values are read from, or none if it fails. -/
inductive Consumes (take : Take α β) : Except ShapeMismatch (List β) → List α → Prop
  | read {segment : List α} {values : List β} : List.Forall₂ take.intake.Reads segment values →
      Consumes take (.ok values) segment
  | failed (mismatch : ShapeMismatch) : Consumes take (.error mismatch) []

/-- The children that takes consume one after another, by their outcomes. -/
inductive ConsumeInTurn :
    List (Take α β) → List (Except ShapeMismatch (List β)) → List (List α) → Prop
  | nil : ConsumeInTurn [] [] []
  | cons {take : Take α β} {takes : List (Take α β)} {outcome : Except ShapeMismatch (List β)}
      {outcomes : List (Except ShapeMismatch (List β))} {segment : List α}
      {segments : List (List α)} : take.Consumes outcome segment →
      ConsumeInTurn takes outcomes segments →
      ConsumeInTurn (take :: takes) (outcome :: outcomes) (segment :: segments)

theorem exists_segment_of_apply {take : Take α β} {rest tail : List α} {values : List β}
    (h : take.apply rest = .ok (values, tail)) :
    ∃ segment, rest = segment ++ tail ∧ List.Forall₂ take.intake.Reads segment values := by
  unfold apply at h
  cases quantifier : take.quantifier with
  | one =>
      simp only [quantifier, bind_eq_ok_iff, pure_eq_ok_iff] at h
      obtain ⟨⟨value, left⟩, taken, same⟩ := h
      cases same
      obtain ⟨child, split, reads⟩ := Intake.takeOne_eq_ok_iff.mp taken
      exact ⟨[child], split, .cons reads .nil⟩
  | optional =>
      simp only [quantifier, bind_eq_ok_iff, pure_eq_ok_iff] at h
      obtain ⟨⟨value, left⟩, taken, same⟩ := h
      cases same
      obtain ⟨child, found, rfl, split, reads⟩ | ⟨rfl, split, _⟩ :=
        Intake.takeOptional_eq_ok_iff.mp taken
      · exact ⟨[child], split, .cons reads .nil⟩
      · exact ⟨[], split, .nil⟩
  | zeroOrMore =>
      simp only [quantifier] at h
      obtain ⟨segment, split, reads, _⟩ := Intake.takeMany_eq_ok_iff.mp h
      exact ⟨segment, split, reads⟩
  | oneOrMore =>
      simp only [quantifier] at h
      obtain ⟨_, segment, split, reads, _⟩ := Intake.takeAtLeastOne_eq_ok_iff.mp h
      exact ⟨segment, split, reads⟩

/-- What one take consumes and what it leaves are what it was given. -/
theorem exists_consumes (take : Take α β) (rest : List α) :
    ∃ segment, segment ++ take.remainder rest = rest ∧
      take.Consumes (take.outcome rest) segment := by
  unfold remainder outcome
  cases taken : take.apply rest with
  | error mismatch => exact ⟨[], rfl, .failed mismatch⟩
  | ok found =>
      obtain ⟨values, tail⟩ := found
      obtain ⟨segment, split, reads⟩ := exists_segment_of_apply taken
      exact ⟨segment, split.symm, .read reads⟩

theorem exists_consumeInTurn (takes : List (Take α β)) (rest : List α) :
    ∃ segments, segments.flatten ++ (run takes rest).2 = rest ∧
      ConsumeInTurn takes (run takes rest).1 segments := by
  induction takes generalizing rest with
  | nil => exact ⟨[], rfl, .nil⟩
  | cons take takes ih =>
      obtain ⟨segment, split, consumes⟩ := take.exists_consumes rest
      obtain ⟨segments, later, inTurn⟩ := ih (take.remainder rest)
      refine ⟨segment :: segments, ?_, .cons consumes inTurn⟩
      calc (segment :: segments).flatten ++ (run (take :: takes) rest).2
          = segment ++ (segments.flatten ++ (run takes (take.remainder rest)).2) :=
            List.append_assoc _ _ _
        _ = segment ++ take.remainder rest := by rw [later]
        _ = rest := split

theorem run_append (takes more : List (Take α β)) (rest : List α) :
    run (takes ++ more) rest =
      ((run takes rest).1 ++ (run more (run takes rest).2).1, (run more (run takes rest).2).2) := by
  induction takes generalizing rest with
  | nil => rfl
  | cons take takes ih => simp only [List.cons_append, run, ih]

theorem remainder_of_error {take : Take α β} {rest : List α} {mismatch : ShapeMismatch}
    (h : take.apply rest = .error mismatch) : take.remainder rest = rest := by
  rw [remainder, h]

/-- Many and at least one are made of the other two ways, with the same values, remaining children
and failures. Whatever is taken in turn, the children consumed are followed by those that remain,
and after a take that fails the same ones remain as before it. -/
theorem takes_conserve_children (i : Intake α β) (rule field : String) (children : List α) :
    i.takeMany children = i.takeEach children ∧
    i.takeAtLeastOne rule field children = (do
      let (value, rest) ← i.takeOne rule field children
      let (values, left) ← i.takeMany rest
      return (value :: values, left)) ∧
    ∀ takes : List (Take α β),
      (∃ segments, segments.flatten ++ (run takes children).2 = children ∧
        ConsumeInTurn takes (run takes children).1 segments) ∧
      ∀ take mismatch, take.apply (run takes children).2 = .error mismatch →
        (run (takes ++ [take]) children).2 = (run takes children).2 := by
  refine ⟨i.takeMany_eq_takeEach children, i.takeAtLeastOne_eq rule field children, ?_⟩
  intro takes
  refine ⟨exists_consumeInTurn takes children, fun take mismatch failed => ?_⟩
  rw [run_append]
  exact remainder_of_error failed

end Take

def textIntake : Intake Tree String :=
  ⟨Tree.kind, (·.is "A"), fun tree => requireText "list" "texts" tree.text⟩

/-- Texts of nodes that have to carry them. -/
def textsTake : Take Tree String :=
  ⟨textIntake, .zeroOrMore, "list", "texts"⟩

def firstTake : Take Tree String :=
  ⟨textIntake, .one, "list", "first"⟩

def kindsTake : Take Tree String :=
  ⟨⟨Tree.kind, (·.is "A"), fun tree => .ok tree.kind⟩, .oneOrMore, "list", "kinds"⟩

def textAndBlank : List Tree :=
  [.withText "A" "x", .leaf "A", .leaf "B"]

/-- The second of two nodes carries no text, so their texts cannot be taken together, but the first
text can, and then the other node by its kind. -/
theorem takes_conserve_textAndBlank :
    textsTake.apply (Take.run [firstTake] textAndBlank).2 =
      .error ⟨"list", .missingText "texts"⟩ ∧
    (Take.run ([firstTake] ++ [textsTake]) textAndBlank).2 = [.leaf "A", .leaf "B"] ∧
    Take.run [textsTake, firstTake, textsTake, kindsTake] textAndBlank =
      ([.error ⟨"list", .missingText "texts"⟩, .ok ["x"], .error ⟨"list", .missingText "texts"⟩,
        .ok ["A"]], [.leaf "B"]) := by
  have failed : textsTake.apply (Take.run [firstTake] textAndBlank).2 =
      .error ⟨"list", .missingText "texts"⟩ := rfl
  have conserved := (Take.takes_conserve_children textIntake "list" "texts" textAndBlank).2.2
    [firstTake]
  exact ⟨failed, conserved.2 textsTake _ failed, rfl⟩

end TreeShape
