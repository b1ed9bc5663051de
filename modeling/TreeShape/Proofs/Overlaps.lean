import TreeShape.Proofs.Determinism

/-!
Overlap warnings: the kinds they are found by are those that rules accept, so that none is given
exactly when the alternatives of each rule exclude one another.
-/

namespace TreeShape

/-- An overlap is between the alternative that has a kind first and another one that has it. -/
theorem mem_overlapsAmong_iff {rule : String} {claimed pairs : List (String × String)}
    {overlap : Overlap} :
    overlap ∈ overlapsAmong rule claimed pairs ↔ overlap.rule = rule ∧
      overlap.earlier ≠ overlap.later ∧ (overlap.later, overlap.kind) ∈ pairs ∧
      (claimed.lookup overlap.kind).or
        ((pairs.find? (·.2 == overlap.kind)).map (·.1)) = some overlap.earlier := by
  induction pairs generalizing claimed with
  | nil => simp [overlapsAmong]
  | cons pair rest ih =>
      obtain ⟨name, kind⟩ := pair
      obtain ⟨rule', earlier, later, kind'⟩ := overlap
      by_cases hk : kind' = kind
      · subst hk
        -- Whoever has the kind first, `name` counts as later only if it is another one.
        have same : ∀ {first}, first = name → (rule' = rule ∧ earlier ≠ later ∧
            (later = name ∨ (later, kind') ∈ rest) ∧ first = earlier ↔
              rule' = rule ∧ earlier ≠ later ∧ (later, kind') ∈ rest ∧ first = earlier) := by
          rintro _ rfl
          refine and_congr_right fun _ => and_congr_right fun differ => and_congr_left fun he => ?_
          exact or_iff_right fun hl => differ (he.symm.trans hl.symm)
        cases hl : claimed.lookup kind' with
        | none => simp [overlapsAmong, hl, ih, same]
        | some first =>
            by_cases hf : first = name
            · simp [overlapsAmong, hl, ih, hf, same]
            · simp only [overlapsAmong, hl, if_neg hf, ih, List.mem_cons, Option.some_or,
                Overlap.mk.injEq, Prod.mk.injEq, and_true, Option.some.injEq]
              constructor
              · rintro (⟨rfl, rfl, rfl⟩ | ⟨hr, differ, hm, he⟩)
                · exact ⟨rfl, hf, .inl rfl, rfl⟩
                · exact ⟨hr, differ, .inr hm, he⟩
              · rintro ⟨rfl, differ, rfl | hm, rfl⟩
                · exact .inl ⟨rfl, rfl, rfl⟩
                · exact .inr ⟨rfl, differ, hm, rfl⟩
      · have find : ((name, kind) :: rest).find? (·.2 == kind') = rest.find? (·.2 == kind') :=
          List.find?_cons_of_neg (by simpa using Ne.symm hk)
        have lookup : ((kind, name) :: claimed).lookup kind' = claimed.lookup kind' := by
          rw [List.lookup_cons, beq_false_of_ne hk]
        cases hl : claimed.lookup kind with
        | none => simp [overlapsAmong, hl, ih, hk, find, lookup]
        | some first =>
            by_cases hf : first = name <;> simp [overlapsAmong, hl, hf, ih, hk, find]

namespace Schema

variable {schema : Schema}

private theorem find?_pairs {kind : String} {names : List String} :
    ((names.flatMap fun name => (schema.rootKinds name).map (name, ·)).find?
        (·.2 == kind)).map (·.1) =
      names.find? fun name => (schema.rootKinds name).contains kind := by
  induction names with
  | nil => rfl
  | cons name names ih =>
      rw [List.flatMap_cons, List.find?_append, Option.map_or, ih, List.find?_cons,
        List.find?_map, Option.map_map]
      cases found : (schema.rootKinds name).find? ((·.2 == kind) ∘ (name, ·)) with
      | some kind' =>
          have hm := List.mem_of_find?_eq_some found
          have he := List.find?_some found
          simp only [Function.comp_apply, beq_iff_eq] at he
          simp [← he, hm]
      | none =>
          have missing : kind ∉ schema.rootKinds name := by
            intro h
            simpa using List.find?_eq_none.mp found kind h
          simp [missing]

/-- An overlap is between the first alternative that has a kind and another one that has it. -/
theorem mem_overlapsOf_iff {rule : Rule} {overlap : Overlap} :
    overlap ∈ schema.overlapsOf rule ↔ overlap.rule = rule.name ∧
      overlap.earlier ≠ overlap.later ∧
      (overlap.later ∈ rule.alternatives ∧ overlap.kind ∈ schema.rootKinds overlap.later) ∧
      rule.alternatives.find? (fun name => (schema.rootKinds name).contains overlap.kind) =
        some overlap.earlier := by
  rw [overlapsOf, mem_overlapsAmong_iff, List.lookup_nil, Option.none_or, find?_pairs]
  simp

theorem mem_names_of_mem_rootKinds {schema : Schema} {kind name : String}
    (h : kind ∈ schema.rootKinds name) : name ∈ schema.names := by
  unfold rootKinds at h
  cases hb : schema.rules.length with
  | zero => simp [hb, rootKindsWithin] at h
  | succ bound =>
      rw [hb, rootKindsWithin] at h
      cases hr : schema.rule? name with
      | none => simp [hr] at h
      | some rule =>
          have named := List.find?_some hr
          have mem := List.mem_of_find?_eq_some hr
          exact List.mem_map.mpr ⟨rule, mem, beq_iff_eq.mp named⟩

end Schema

namespace Shapes

variable {s : Shapes}

/-- The rule called `name` accepts nodes of the kind. -/
def Admits (s : Shapes) (kind name : String) : Prop :=
  ∃ id, s.name id = name ∧ s.accepts id kind = true

/-- Of the names listed, `earlier` is the first that accepts the kind, and `later` is another. -/
structure Outruns (s : Shapes) (names : List String) (earlier later kind : String) : Prop where
  first : ∃ before after, names = before ++ earlier :: after ∧ s.Admits kind earlier ∧
    ∀ name ∈ before, ¬s.Admits kind name
  listed : later ∈ names
  admits : s.Admits kind later
  distinct : earlier ≠ later

namespace Lawful

variable (lawful : s.Lawful)
include lawful

theorem mem_rootKindsWithin_iff {kind : String} {bound : Nat} {id : s.Id} :
    kind ∈ s.schema.rootKindsWithin bound (s.name id) ↔ s.acceptsWithin kind bound id = true := by
  induction bound generalizing id with
  | zero => simp [Schema.rootKindsWithin, acceptsWithin]
  | succ bound ih =>
      have planned := lawful.planned id
      simp only [Schema.rootKindsWithin, lawful.rule?_name, acceptsWithin]
      generalize (s.rule id).form = form at planned
      generalize s.plan id = plan at planned
      cases planned with
      | choice => simp [ih]
      | delegate delegates root => simp [delegates, root, ih]
      | shape direct _ => simp [direct]

theorem mem_rootKinds_iff {kind : String} {id : s.Id} :
    kind ∈ s.schema.rootKinds (s.name id) ↔ s.accepts id kind = true :=
  lawful.mem_rootKindsWithin_iff

theorem mem_rootKinds_iff_admits {kind name : String} :
    kind ∈ s.schema.rootKinds name ↔ s.Admits kind name := by
  constructor
  · intro h
    obtain ⟨id, rfl⟩ := mem_names_iff.mp (Schema.mem_names_of_mem_rootKinds h)
    exact ⟨id, rfl, lawful.mem_rootKinds_iff.mp h⟩
  · rintro ⟨id, rfl, h⟩
    exact lawful.mem_rootKinds_iff.mpr h

theorem admits_name_iff {kind : String} {id : s.Id} :
    s.Admits kind (s.name id) ↔ s.accepts id kind = true := by
  rw [← lawful.mem_rootKinds_iff_admits, lawful.mem_rootKinds_iff]

theorem find?_rootKinds_iff {names : List String} {kind earlier : String} :
    names.find? (fun name => (s.schema.rootKinds name).contains kind) = some earlier ↔
      ∃ before after, names = before ++ earlier :: after ∧ s.Admits kind earlier ∧
        ∀ name ∈ before, ¬s.Admits kind name := by
  simp only [List.find?_eq_some_iff_append, List.contains_iff_mem, Bool.not_eq_true',
    ← Bool.not_eq_true, lawful.mem_rootKinds_iff_admits]
  constructor
  · rintro ⟨admits, before, after, split, none⟩
    exact ⟨before, after, split, admits, none⟩
  · rintro ⟨before, after, split, admits, none⟩
    exact ⟨admits, before, after, split, none⟩

/-- An overlap is found exactly where an alternative never gets a kind that it accepts. -/
theorem mem_overlaps_iff {id : s.Id} {earlier later kind : String} :
    ⟨s.name id, earlier, later, kind⟩ ∈ s.schema.overlaps ↔
      s.Outruns (s.rule id).alternatives earlier later kind := by
  rw [Schema.overlaps, List.mem_flatMap]
  constructor
  · rintro ⟨rule, hr, h⟩
    obtain ⟨named, distinct, ⟨listed, has⟩, found⟩ := Schema.mem_overlapsOf_iff.mp h
    cases lawful.eq_rule_of_mem hr named
    exact ⟨lawful.find?_rootKinds_iff.mp found, listed, lawful.mem_rootKinds_iff_admits.mp has,
      distinct⟩
  · rintro ⟨first, listed, admits, distinct⟩
    refine ⟨s.rule id, List.get_mem _ _, Schema.mem_overlapsOf_iff.mpr ⟨rfl, distinct, ?_⟩⟩
    exact ⟨⟨listed, lawful.mem_rootKinds_iff_admits.mpr admits⟩,
      lawful.find?_rootKinds_iff.mpr first⟩

/-- Of two alternatives that accept a kind, one at least is outrun. -/
theorem exists_outruns {names : List String} {a b : s.Id} {kind : String} (ha : s.name a ∈ names)
    (hb : s.name b ∈ names) (accepts : s.accepts a kind = true) (accepts' : s.accepts b kind = true)
    (distinct : a ≠ b) : ∃ earlier later, s.Outruns names earlier later kind := by
  rw [← lawful.admits_name_iff] at accepts accepts'
  obtain ⟨earlier, found⟩ : ∃ earlier, names.find?
      (fun name => (s.schema.rootKinds name).contains kind) = some earlier := by
    rw [← Option.isSome_iff_exists, List.find?_isSome]
    exact ⟨s.name a, ha, List.contains_iff_mem.mpr (lawful.mem_rootKinds_iff_admits.mpr accepts)⟩
  have first := lawful.find?_rootKinds_iff.mp found
  by_cases he : earlier = s.name a
  · refine ⟨earlier, s.name b, first, hb, accepts', ?_⟩
    rintro rfl
    exact distinct (lawful.name_injective he.symm)
  · exact ⟨earlier, s.name a, first, ha, accepts, he⟩

/-- No overlap is found exactly when alternatives exclude one another. -/
theorem exclusiveChoices_iff :
    s.ExclusiveChoices ↔ ∀ overlap, overlap ∉ s.schema.overlaps := by
  constructor
  · rintro exclusive ⟨rule, earlier, later, kind⟩ h
    obtain ⟨found, hr, ho⟩ := List.mem_flatMap.mp h
    obtain ⟨id, rfl⟩ := List.mem_iff_get.mp hr
    cases (Schema.mem_overlapsOf_iff.mp ho).1
    obtain ⟨⟨before, after, listing, ⟨a, rfl, ha⟩, _⟩, listed, ⟨b, rfl, hb⟩, distinct⟩ :=
      lawful.mem_overlaps_iff.mp h
    have first : s.name a ∈ (s.rule id).alternatives := by simp [listing]
    exact exclusive id a b first listed (fun same => distinct (congrArg s.name same)) kind ⟨ha, hb⟩
  · rintro none id a b ha hb distinct kind ⟨accepts, accepts'⟩
    obtain ⟨earlier, later, h⟩ := lawful.exists_outruns ha hb accepts accepts' distinct
    exact none ⟨s.name id, earlier, later, kind⟩ (lawful.mem_overlaps_iff.mpr h)

/-- The overlaps among the warnings are all that there are. -/
theorem overlap_mem_warnings_iff {overlap : Overlap} :
    .overlap overlap ∈ s.schema.warnings ↔ overlap ∈ s.schema.overlaps := by
  have checked := lawful.checked
  have names := (Schema.check_eq_ok_iff.mp checked).1
  simp [Schema.warnings, checked, names]

end Lawful

/-- Where no overlap is warned of, a rule reads what it accepts as every rule does that it may stand
for, whether that succeeds or fails. -/
theorem parse_eq_of_capability {schema : Schema} (hc : compile schema = .ok s)
    (quiet : ∀ overlap, ⟨.warn, (Warning.overlap overlap).message⟩ ∉ schema.validate.log)
    {id capability : s.Id} (implements : s.implements (s.name id) (s.name capability) = true)
    {tree : Tree} (accepts : s.canParse id tree = true) :
    s.parse tree capability = s.parse tree id := by
  obtain ⟨rfl, lawful⟩ := lawful_of_compile hc
  have exclusive : s.ExclusiveChoices := by
    apply lawful.exclusiveChoices_iff.mpr
    intro overlap h
    apply quiet overlap
    exact List.mem_map.mpr ⟨.overlap overlap, lawful.overlap_mem_warnings_iff.mpr h, rfl⟩
  exact lawful.parse_eq_of_implements exclusive implements accepts

/-- Parentheses are expressions, also where nothing is in them. -/
theorem parse_eq_parentheses :
    statementShapes.parse groupedNameTree ⟨1, by decide⟩ =
        statementShapes.parse groupedNameTree ⟨5, by decide⟩ ∧
      statementShapes.parse (.leaf "PAREN") ⟨1, by decide⟩ =
        statementShapes.parse (.leaf "PAREN") ⟨5, by decide⟩ := by
  have silent : statements.validate.log = [] := by decide
  have quiet : ∀ overlap, ⟨.warn, (Warning.overlap overlap).message⟩ ∉ statements.validate.log := by
    intro overlap
    rw [silent]
    exact List.not_mem_nil
  exact ⟨parse_eq_of_capability compile_statements quiet (by decide) (by decide),
    parse_eq_of_capability compile_statements quiet (by decide) (by decide)⟩

/-- In `statements`, a statement never begins with the mark that may follow it. -/
theorem deterministic_statements : statementShapes.Deterministic where
  choices := by
    have none : statements.overlaps = [] := by decide
    refine (lawful_of_compile compile_statements).2.exclusiveChoices_iff.mpr fun overlap h => ?_
    exact List.not_mem_nil (none ▸ h)
  bodies := by
    rintro id body ⟨form, _⟩
    have unlike : ∀ id, statementShapes.name id = "stmt" →
        statementShapes.accepts id "ELSE" = false := by decide
    have hr : statementShapes.rule id ∈ statements.rules := List.get_mem _ _
    generalize statementShapes.rule id = rule at hr form
    simp only [statements, List.mem_cons, List.not_mem_nil, or_false] at hr
    rcases hr with rfl | rfl | rfl | rfl | rfl | rfl | rfl <;> cases form <;>
      simp [Item.of, ItemTakes]
    rintro kind id named accepts rfl
    rw [unlike id named] at accepts
    cases accepts

end Shapes
end TreeShape
