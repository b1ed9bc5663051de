import TreeShape.Children
import TreeShape.Proofs.Result

/-!
Taking children off the front of a list, by what each way of taking leaves: the children read are
a first part of the list, and a run that may go on ends before a child that is not accepted. Where
the children of two lists are told apart and read alike, the same is taken from both.
-/

namespace TreeShape.Intake

variable {α β : Type} (i : Intake α β)

def Reads (child : α) (value : β) : Prop :=
  i.accepts child = true ∧ i.consume child = .ok value

/-- The next child, if there is one, is not accepted. -/
def Stops (rest : List α) : Prop :=
  ∀ child ∈ rest.head?, i.accepts child = false

variable {i} {rule field : String} {rest tail : List α}

theorem takeOne_eq_ok_iff {value : β} :
    i.takeOne rule field rest = .ok (value, tail) ↔
      ∃ child, rest = child :: tail ∧ i.Reads child value := by
  cases rest with
  | nil => simp [takeOne]
  | cons child rest =>
      simp only [takeOne, Reads, List.cons.injEq]
      by_cases h : i.accepts child = true
      · simp only [h, if_true, bind_eq_ok_iff, pure_eq_ok_iff, Prod.mk.injEq]
        constructor
        · rintro ⟨_, hc, rfl, rfl⟩
          exact ⟨child, ⟨rfl, rfl⟩, h, hc⟩
        · rintro ⟨_, ⟨rfl, rfl⟩, _, hc⟩
          exact ⟨value, hc, rfl, rfl⟩
      · simp only [h, Bool.false_eq_true, if_false, reduceCtorEq, false_iff]
        rintro ⟨_, ⟨rfl, _⟩, ha, _⟩
        exact h ha

theorem takeOptional_eq_ok_iff {value : Option β} :
    i.takeOptional rest = .ok (value, tail) ↔
      (∃ child found, value = some found ∧ rest = child :: tail ∧ i.Reads child found) ∨
        (value = none ∧ rest = tail ∧ i.Stops tail) := by
  cases rest with
  | nil =>
      simp only [takeOptional, Except.ok.injEq, Prod.mk.injEq, reduceCtorEq, false_and, and_false,
        exists_false, false_or]
      constructor
      · rintro ⟨rfl, rfl⟩
        exact ⟨rfl, rfl, nofun⟩
      · rintro ⟨rfl, rfl, _⟩
        exact ⟨rfl, rfl⟩
  | cons child rest =>
      simp only [takeOptional]
      by_cases h : i.accepts child = true
      · simp only [h, if_true, bind_eq_ok_iff, pure_eq_ok_iff, Prod.mk.injEq, List.cons.injEq]
        constructor
        · rintro ⟨found, hc, rfl, rfl⟩
          exact .inl ⟨child, found, rfl, ⟨rfl, rfl⟩, h, hc⟩
        · rintro (⟨_, found, rfl, ⟨rfl, rfl⟩, _, hc⟩ | ⟨_, rfl, stops⟩)
          · exact ⟨found, hc, rfl, rfl⟩
          · exact absurd h (by simp [stops child rfl])
      · simp only [h, Bool.false_eq_true, if_false, Except.ok.injEq, Prod.mk.injEq]
        constructor
        · rintro ⟨rfl, rfl⟩
          exact .inr ⟨rfl, rfl, by simpa [Stops] using h⟩
        · rintro (⟨_, found, rfl, he, ha, _⟩ | ⟨rfl, rfl, _⟩)
          · cases he
            exact absurd ha h
          · exact ⟨rfl, rfl⟩

private theorem stops_dropWhile (rest : List α) : i.Stops (rest.dropWhile i.accepts) := by
  have h := List.head?_dropWhile_not i.accepts rest
  intro child hc
  rw [Option.mem_def.mp hc] at h
  exact h

theorem takeMany_eq_ok_iff {values : List β} :
    i.takeMany rest = .ok (values, tail) ↔
      ∃ run, rest = run ++ tail ∧ List.Forall₂ i.Reads run values ∧ i.Stops tail := by
  simp only [takeMany, bind_eq_ok_iff, pure_eq_ok_iff, mapM_eq_ok_iff, Prod.mk.injEq]
  constructor
  · rintro ⟨_, consumed, rfl, rfl⟩
    refine ⟨rest.takeWhile i.accepts, List.takeWhile_append_dropWhile.symm, ?_,
      stops_dropWhile rest⟩
    apply (List.forall₂_and_left _ _).mpr
    exact ⟨List.all_eq_true.mp List.all_takeWhile, consumed⟩
  · rintro ⟨run, rfl, reads, stops⟩
    obtain ⟨accepted, consumed⟩ := (List.forall₂_and_left run values).mp reads
    have none : tail.takeWhile i.accepts = [] ∧ tail.dropWhile i.accepts = tail := by
      cases tail with
      | nil => exact ⟨rfl, rfl⟩
      | cons child tail => simp [List.takeWhile, List.dropWhile, stops child rfl]
    refine ⟨values, ?_, rfl, ?_⟩
    · rwa [List.takeWhile_append_of_pos accepted, none.1, List.append_nil]
    · rw [List.dropWhile_append_of_pos accepted, none.2]

theorem takeAtLeastOne_eq_ok_iff {values : List β} :
    i.takeAtLeastOne rule field rest = .ok (values, tail) ↔ values ≠ [] ∧
      ∃ run, rest = run ++ tail ∧ List.Forall₂ i.Reads run values ∧ i.Stops tail := by
  rw [← takeMany_eq_ok_iff, takeAtLeastOne, bind_eq_ok_iff]
  constructor
  · rintro ⟨⟨found, left⟩, taken, h⟩
    dsimp only at h
    split at h
    · cases h
    · next some =>
      cases h
      exact ⟨by simpa using some, taken⟩
  · rintro ⟨some, taken⟩
    exact ⟨(values, tail), taken, if_neg (by simpa using some)⟩

section

variable {α α' β γ : Type} (related : α → α' → Prop)

/-- Two lists from which something was taken: the same failure, or the same value and related
children left. -/
inductive Agree : Except ShapeMismatch (γ × List α) → Except ShapeMismatch (γ × List α') → Prop
  | error (mismatch : ShapeMismatch) : Agree (.error mismatch) (.error mismatch)
  | ok (value : γ) {rest : List α} {rest' : List α'} : List.Forall₂ related rest rest' →
      Agree (.ok (value, rest)) (.ok (value, rest'))

/-- Related children are told apart and read in the same way. -/
structure Alike (i : Intake α β) (i' : Intake α' β) : Prop where
  kind : ∀ {child child'}, related child child' → i'.kind child' = i.kind child
  accepts : ∀ {child child'}, related child child' → i'.accepts child' = i.accepts child
  consume : ∀ {child child'}, related child child' → i'.consume child' = i.consume child

variable {related}

theorem Agree.bind {δ : Type} {taken : Except ShapeMismatch (γ × List α)}
    {taken' : Except ShapeMismatch (γ × List α')}
    {next : γ × List α → Except ShapeMismatch (δ × List α)}
    {next' : γ × List α' → Except ShapeMismatch (δ × List α')} (h : Agree related taken taken')
    (hn : ∀ value rest rest', List.Forall₂ related rest rest' →
      Agree related (next (value, rest)) (next' (value, rest'))) :
    Agree related (taken >>= next) (taken' >>= next') := by
  cases h with
  | error mismatch => exact .error mismatch
  | ok value hr => exact hn value _ _ hr

theorem Agree.bind_eq {δ : Type} {taken : Except ShapeMismatch (γ × List α)}
    {taken' : Except ShapeMismatch (γ × List α')} {next : γ × List α → Except ShapeMismatch δ}
    {next' : γ × List α' → Except ShapeMismatch δ} (h : Agree related taken taken')
    (hn : ∀ value rest rest', List.Forall₂ related rest rest' →
      next' (value, rest') = next (value, rest)) : (taken' >>= next') = (taken >>= next) := by
  cases h with
  | error mismatch => rfl
  | ok value hr => exact hn value _ _ hr

variable {i : Intake α β} {i' : Intake α' β} {rule field : String} {children : List α}
  {children' : List α'}

namespace Alike

theorem missing_eq (h : Alike related i i') (rule field : String)
    (hc : List.Forall₂ related children children') :
    i'.missing rule field children' = i.missing rule field children := by
  cases hc with
  | nil => rfl
  | cons first _ => simp [missing, h.kind first]

theorem takeOne (h : Alike related i i') (hc : List.Forall₂ related children children') :
    Agree related (i.takeOne rule field children) (i'.takeOne rule field children') := by
  have missing := h.missing_eq rule field hc
  cases hc with
  | nil => exact .error _
  | @cons child child' rest rest' first others =>
      simp only [Intake.takeOne, h.accepts first, h.consume first, missing]
      by_cases ha : i.accepts child = true
      · rw [if_pos ha, if_pos ha]
        cases i.consume child with
        | error mismatch => exact .error mismatch
        | ok value => exact .ok value others
      · rw [if_neg ha, if_neg ha]
        exact .error _

theorem takeOptional (h : Alike related i i') (hc : List.Forall₂ related children children') :
    Agree related (i.takeOptional children) (i'.takeOptional children') := by
  cases hc with
  | nil => exact .ok none .nil
  | @cons child child' rest rest' first others =>
      simp only [Intake.takeOptional, h.accepts first, h.consume first]
      by_cases ha : i.accepts child = true
      · rw [if_pos ha, if_pos ha]
        cases i.consume child with
        | error mismatch => exact .error mismatch
        | ok value => exact .ok (some value) others
      · rw [if_neg ha, if_neg ha]
        exact .ok none (.cons first others)

/-- Where one run ends the other does. -/
private theorem run (h : Alike related i i') (hc : List.Forall₂ related children children') :
    (children'.takeWhile i'.accepts).mapM i'.consume =
        (children.takeWhile i.accepts).mapM i.consume ∧
      List.Forall₂ related (children.dropWhile i.accepts) (children'.dropWhile i'.accepts) := by
  induction hc with
  | nil => exact ⟨rfl, .nil⟩
  | @cons child child' rest rest' first others ih =>
      simp only [List.takeWhile_cons, List.dropWhile_cons, h.accepts first]
      by_cases ha : i.accepts child = true
      · rw [if_pos ha, if_pos ha, if_pos ha, if_pos ha, List.mapM_cons, List.mapM_cons, ih.1,
          h.consume first]
        exact ⟨rfl, ih.2⟩
      · rw [if_neg ha, if_neg ha, if_neg ha, if_neg ha]
        exact ⟨rfl, .cons first others⟩

theorem takeMany (h : Alike related i i') (hc : List.Forall₂ related children children') :
    Agree related (i.takeMany children) (i'.takeMany children') := by
  obtain ⟨same, rest⟩ := h.run hc
  rw [Intake.takeMany, Intake.takeMany, same]
  cases (children.takeWhile i.accepts).mapM i.consume with
  | error mismatch => exact .error mismatch
  | ok values => exact .ok values rest

theorem takeAtLeastOne (h : Alike related i i') (hc : List.Forall₂ related children children') :
    Agree related (i.takeAtLeastOne rule field children)
      (i'.takeAtLeastOne rule field children') := by
  refine (h.takeMany hc).bind fun values rest rest' hr => ?_
  simp only [h.missing_eq rule field hc]
  by_cases he : values.isEmpty = true
  · rw [if_pos he, if_pos he]
    exact .error _
  · rw [if_neg he, if_neg he]
    exact .ok values hr

end Alike

theorem finish_eq {kind : α → String} {kind' : α' → String}
    (same : ∀ {child child'}, related child child' → kind' child' = kind child)
    (hc : List.Forall₂ related children children') :
    finish kind' rule children' = finish kind rule children := by
  cases hc with
  | nil => rfl
  | cons first others => simp [finish, same first, others.length_eq]

end

end TreeShape.Intake
