import TreeShape.Proofs.Reading

/-!
Why reading fails. A rule refuses a node by its kind, or it has accepted the node and then misses
something in it or has children left over. A child is only read once it was accepted, so that a
failure within a node, at whatever depth, is never a refusal.
-/

namespace TreeShape

namespace Mismatch

/-- A node of this kind is not accepted. -/
inductive Refusal (kind : String) : Mismatch → Prop
  | wrongKind (expected : String) : Refusal kind (.wrongKind expected kind)
  | noAlternative : Refusal kind (.noAlternative kind)

/-- An accepted node does not have what its rule asks for. -/
inductive Shortfall : Mismatch → Prop
  | missingChild (field : String) (found : Option String) : Shortfall (.missingChild field found)
  | missingText (field : String) : Shortfall (.missingText field)
  | trailingChildren (count : Nat) (first : String) : Shortfall (.trailingChildren count first)

/-- A node that is to be written is not one of its rule. -/
inductive OfWriting : Mismatch → Prop
  | missingValue (field : String) : OfWriting (.missingValue field)
  | emptyCollection (field : String) : OfWriting (.emptyCollection field)
  | wrongValue (field expected : String) : OfWriting (.wrongValue field expected)
  | arity (expected found : Nat) : OfWriting (.arity expected found)
  | unexpectedField (expected found : String) : OfWriting (.unexpectedField expected found)
  | notSerializable : OfWriting .notSerializable

variable {mismatch : Mismatch} {kind found : String}

theorem Refusal.kind_eq (h : mismatch.Refusal kind) (h' : mismatch.Refusal found) :
    found = kind := by
  cases h <;> cases h' <;> rfl

theorem Refusal.not_shortfall (h : mismatch.Refusal kind) : ¬ mismatch.Shortfall := by
  intro short
  cases h <;> cases short

theorem OfWriting.not_refusal (h : mismatch.OfWriting) : ¬ mismatch.Refusal kind := by
  intro refusal
  cases h <;> cases refusal

theorem OfWriting.not_shortfall (h : mismatch.OfWriting) : ¬ mismatch.Shortfall := by
  intro short
  cases h <;> cases short

end Mismatch

namespace Intake

variable {α β : Type} (i : Intake α β)

/-- Some child is accepted, and reading it fails. -/
def Breaks (rest : List α) (mismatch : ShapeMismatch) : Prop :=
  ∃ child ∈ rest, i.accepts child = true ∧ i.consume child = .error mismatch

variable {i} {rule field : String} {rest : List α} {mismatch : ShapeMismatch}

theorem takeOne_eq_error (h : i.takeOne rule field rest = .error mismatch) :
    mismatch = i.missing rule field rest ∨ i.Breaks rest mismatch := by
  cases rest with
  | nil =>
      cases h
      exact .inl rfl
  | cons child rest =>
      simp only [takeOne] at h
      by_cases accepted : i.accepts child = true
      · rw [if_pos accepted, bind_eq_error_iff] at h
        obtain broken | ⟨_, _, done⟩ := h
        · exact .inr ⟨child, List.mem_cons_self, accepted, broken⟩
        · cases done
      · rw [if_neg accepted] at h
        cases h
        exact .inl rfl

theorem takeOptional_eq_error (h : i.takeOptional rest = .error mismatch) :
    i.Breaks rest mismatch := by
  cases rest with
  | nil => cases h
  | cons child rest =>
      simp only [takeOptional] at h
      by_cases accepted : i.accepts child = true
      · rw [if_pos accepted, bind_eq_error_iff] at h
        obtain broken | ⟨_, _, done⟩ := h
        · exact ⟨child, List.mem_cons_self, accepted, broken⟩
        · cases done
      · rw [if_neg accepted] at h
        cases h

theorem takeMany_eq_error (h : i.takeMany rest = .error mismatch) : i.Breaks rest mismatch := by
  rw [takeMany, bind_eq_error_iff] at h
  obtain broken | ⟨_, _, done⟩ := h
  · obtain ⟨child, hc, broken⟩ := exists_of_mapM_eq_error broken
    have accepted : i.accepts child = true := List.all_eq_true.mp List.all_takeWhile child hc
    exact ⟨child, (List.takeWhile_sublist _).subset hc, accepted, broken⟩
  · cases done

theorem takeAtLeastOne_eq_error (h : i.takeAtLeastOne rule field rest = .error mismatch) :
    mismatch = i.missing rule field rest ∨ i.Breaks rest mismatch := by
  rw [takeAtLeastOne, bind_eq_error_iff] at h
  obtain broken | ⟨⟨values, tail⟩, _, h⟩ := h
  · exact .inr (takeMany_eq_error broken)
  · dsimp only at h
    split at h
    · cases h
      exact .inl rfl
    · cases h

end Intake

namespace Shapes

variable {s : Shapes} {rule : String} {text : Option String} {mismatch : ShapeMismatch}

variable (s) in
/-- Something is missing, or a child that a rule accepts cannot be read by it. -/
def Fails (children : List s.Child) (mismatch : ShapeMismatch) : Prop :=
  mismatch.reason.Shortfall ∨ ∃ child ∈ children, ∃ id,
    s.canParse id child.tree = true ∧ child.read id = .error mismatch

theorem Fails.of_suffix {run left : List s.Child} (h : s.Fails left mismatch) :
    s.Fails (run ++ left) mismatch := by
  obtain short | ⟨child, hc, broken⟩ := h
  · exact .inl short
  · exact .inr ⟨child, List.mem_append_right _ hc, broken⟩

/-- Tokens are kept as they are, so only a child that is read by a rule can break. -/
theorem fails_of_breaks {accept : Accept s.size} {rest : List s.Child}
    (h : (s.intake accept).Breaks rest mismatch) : s.Fails rest mismatch := by
  obtain ⟨child, hc, accepted, broken⟩ := h
  cases accept with
  | token kind => cases broken
  | rule id =>
      refine .inr ⟨child, hc, id, accepted, ?_⟩
      change (child.read id).map Element.node = .error mismatch at broken
      cases read : child.read id with
      | ok node =>
          rw [read] at broken
          cases broken
      | error =>
          rw [read] at broken
          cases broken
          rfl

theorem fails_of_missing_or_breaks {accept : Accept s.size} {field : String}
    {rest : List s.Child} (h : mismatch = (s.intake accept).missing rule field rest ∨
      (s.intake accept).Breaks rest mismatch) : s.Fails rest mismatch := by
  cases h with
  | inl missing =>
      rw [missing]
      exact .inl (.missingChild _ _)
  | inr breaks => exact fails_of_breaks breaks

theorem fails_of_takeStep {rest : List s.Child} {step : Step s.size}
    (h : s.takeStep rule text rest step = .error mismatch) : s.Fails rest mismatch := by
  cases step with
  | text field optional =>
      cases optional with
      | true => cases h
      | false =>
          cases text with
          | some found => cases h
          | none =>
              cases h
              exact .inl (.missingText field)
  | child field accept quantifier =>
      -- What follows the taking only puts the elements into a value.
      cases quantifier with
      | one =>
          obtain broken | ⟨_, _, done⟩ := bind_eq_error_iff.mp h
          · exact fails_of_missing_or_breaks (Intake.takeOne_eq_error broken)
          · cases done
      | optional =>
          obtain broken | ⟨_, _, done⟩ := bind_eq_error_iff.mp h
          · exact fails_of_breaks (Intake.takeOptional_eq_error broken)
          · cases done
      | zeroOrMore =>
          obtain broken | ⟨_, _, done⟩ := bind_eq_error_iff.mp h
          · exact fails_of_breaks (Intake.takeMany_eq_error broken)
          · cases done
      | oneOrMore =>
          obtain broken | ⟨_, _, done⟩ := bind_eq_error_iff.mp h
          · exact fails_of_missing_or_breaks (Intake.takeAtLeastOne_eq_error broken)
          · cases done

theorem exists_run_of_takeStep {rest left : List s.Child} {step : Step s.size}
    {value : FieldValue} (h : s.takeStep rule text rest step = .ok (value, left)) :
    ∃ run, rest = run ++ left := by
  cases step with
  | text field optional => exact ⟨[], (takeStep_text_eq_ok_iff.mp h).1.symm⟩
  | child field accept quantifier =>
      obtain ⟨run, _, split, _⟩ := takeStep_child_eq_ok_iff.mp h
      exact ⟨run, split⟩

theorem fails_of_takeSteps {steps : List (Step s.size)} {rest : List s.Child}
    (h : s.takeSteps rule text steps rest = .error mismatch) : s.Fails rest mismatch := by
  induction steps generalizing rest with
  | nil => cases h
  | cons step steps ih =>
      rw [takeSteps, bind_eq_error_iff] at h
      obtain here | ⟨⟨value, left⟩, taken, h⟩ := h
      · exact fails_of_takeStep here
      · rw [bind_eq_error_iff] at h
        obtain later | ⟨_, _, done⟩ := h
        · obtain ⟨run, split⟩ := exists_run_of_takeStep taken
          rw [split]
          exact (ih later).of_suffix
        · cases done

theorem shortfall_of_finish {rest : List s.Child}
    (h : Intake.finish (·.tree.kind) rule rest = .error mismatch) :
    mismatch.reason.Shortfall := by
  cases rest with
  | nil => cases h
  | cons child rest =>
      cases h
      exact .trailingChildren _ _

namespace Lawful

variable (lawful : s.Lawful) {id : s.Id} {tree : Tree}
include lawful

/-- A node that a rule does not accept is refused by its kind. -/
theorem exists_refusal (h : s.canParse id tree = false) :
    ∃ mismatch, s.parse tree id = .error mismatch ∧ mismatch.reason.Refusal tree.kind := by
  induction id using lawful.rule_induction with
  | shape id root steps hp =>
      have other : tree.kind ≠ root := by
        intro same
        simp [canParse, (lawful.accepts_shape_iff hp).mpr same] at h
      rw [lawful.parse_eq_plan, hp]
      exact ⟨_, if_neg other, .wrongKind root⟩
  | delegate id target hp ih =>
      have below : s.canParse target tree = false := by
        rw [canParse, lawful.accepts_eq, hp] at h
        exact h
      obtain ⟨mismatch, failed, refusal⟩ := ih below
      refine ⟨mismatch, ?_, refusal⟩
      rw [lawful.parse_eq_plan, hp]
      exact bind_eq_error_iff.mpr (.inl failed)
  | choice id alternatives hp ih =>
      have none : alternatives.find? (s.accepts · tree.kind) = none := by
        rw [canParse, lawful.accepts_eq, hp] at h
        simpa using h
      refine ⟨⟨s.name id, .noAlternative tree.kind⟩, ?_, .noAlternative⟩
      rw [lawful.parse_eq_plan, hp]
      simp only [none]

/-- Reading a node that a rule accepts never fails by a refusal, however deep the failure is. -/
theorem shortfall_of_parse (accepted : s.canParse id tree = true)
    (h : s.parse tree id = .error mismatch) : mismatch.reason.Shortfall := by
  induction id, tree using lawful.reading_induction generalizing mismatch with
  | shape id tree root steps hp ih =>
      rw [lawful.parse_eq_plan, hp] at h
      dsimp only at h
      rw [if_pos ((lawful.accepts_shape_iff hp).mp accepted), bind_eq_error_iff] at h
      obtain broken | ⟨⟨fields, rest⟩, _, h⟩ := h
      · obtain short | ⟨child, hc, target, acceptedChild, broken⟩ := fails_of_takeSteps broken
        · exact short
        · rw [readings_eq_map] at hc
          obtain ⟨part, hm, rfl⟩ := List.mem_map.mp hc
          exact ih part hm target acceptedChild broken
      · obtain left | ⟨_, _, done⟩ := bind_eq_error_iff.mp h
        · exact shortfall_of_finish left
        · cases done
  | delegate id tree target hp ih =>
      rw [lawful.parse_eq_plan, hp] at h
      obtain broken | ⟨_, _, done⟩ := bind_eq_error_iff.mp h
      · exact ih ((lawful.accepts_delegate_iff hp).mp accepted) broken
      · cases done
  | choice id tree alternatives hp ih =>
      rw [lawful.parse_eq_plan, hp] at h
      dsimp only at h
      split at h
      · next alternative found =>
        have taken := List.find?_some found
        exact ih alternative (List.mem_of_find?_eq_some found) taken h
      · next none =>
        obtain ⟨alternative, hm, ha⟩ := (lawful.accepts_choice_iff hp).mp accepted
        exact absurd ha (List.find?_eq_none.mp none alternative hm)

end Lawful

/-- Reading fails by a refusal exactly if the rule does not accept the node, and then reports the
kind of that node. Whatever fails once a node is accepted is a shortfall, and no failure is one of
writing. -/
theorem parse_failure_reason {schema : Schema} (hc : compile schema = .ok s) (id : s.Id)
    (tree : Tree) :
    ((∃ mismatch found, s.parse tree id = .error mismatch ∧ mismatch.reason.Refusal found) ↔
      s.canParse id tree = false) ∧
    ∀ mismatch, s.parse tree id = .error mismatch →
      (∀ found, mismatch.reason.Refusal found → found = tree.kind) ∧
      (s.canParse id tree = true → mismatch.reason.Shortfall) ∧ ¬ mismatch.reason.OfWriting := by
  have lawful := (lawful_of_compile hc).2
  cases accepted : s.canParse id tree with
  | false =>
      obtain ⟨mismatch, failed, refusal⟩ := lawful.exists_refusal accepted
      refine ⟨⟨fun _ => rfl, fun _ => ⟨mismatch, tree.kind, failed, refusal⟩⟩, ?_⟩
      intro other h
      cases Except.error.inj (failed.symm.trans h)
      exact ⟨fun _ => refusal.kind_eq, nofun, fun writing => writing.not_refusal refusal⟩
  | true =>
      have short : ∀ mismatch, s.parse tree id = .error mismatch → mismatch.reason.Shortfall :=
        fun _ => lawful.shortfall_of_parse accepted
      constructor
      · constructor
        · intro ⟨mismatch, _, failed, refusal⟩
          exact absurd (short mismatch failed) refusal.not_shortfall
        · exact nofun
      · intro mismatch failed
        have here := short mismatch failed
        refine ⟨fun _ refusal => absurd here refusal.not_shortfall, fun _ => here, ?_⟩
        exact fun writing => writing.not_shortfall here

/-- A statement whose condition is a name without text, in parentheses. -/
def namelessIf : Tree :=
  ⟨"IF", none, [⟨"PAREN", none, [⟨"IDENT", none, []⟩]⟩, ⟨"BLOCK", none, []⟩]⟩

/-- The text is missing three rules below the statement, which is accepted all the same. As an
expression the statement is refused. -/
theorem parse_failure_namelessIf :
    statementShapes.canParse ⟨0, by decide⟩ namelessIf = true ∧
      statementShapes.parse namelessIf ⟨0, by decide⟩ = .error ⟨"ident", .missingText "name"⟩ ∧
      (Mismatch.missingText "name").Shortfall ∧
      ∃ mismatch found, statementShapes.parse namelessIf ⟨1, by decide⟩ = .error mismatch ∧
        mismatch.reason.Refusal found := by
  have failed : statementShapes.parse namelessIf ⟨0, by decide⟩ =
      .error ⟨"ident", .missingText "name"⟩ := by rfl
  have accepted : statementShapes.canParse ⟨0, by decide⟩ namelessIf = true := by decide
  have within := (parse_failure_reason compile_statements ⟨0, by decide⟩ namelessIf).2 _ failed
  have refused := (parse_failure_reason compile_statements ⟨1, by decide⟩ namelessIf).1
  exact ⟨accepted, failed, within.2.1 accepted, refused.mpr (by decide)⟩

end Shapes
end TreeShape
