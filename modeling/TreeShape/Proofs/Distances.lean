import TreeShape.Proofs.Compiling

/-!
Ancestors by their distance. Each round of the search goes one step further out, so names are found
in the order of their distance, and the search is over once nothing is before it. Standing in for a
rule is the closure of being listed; where nothing is handed on in a circle, it is an order.
-/

namespace TreeShape

/-- Every alternative with the rule that lists it, in the order of declaration. -/
def listings (rules : List Rule) : List (String × String) :=
  rules.flatMap fun rule => rule.alternatives.map (·, rule.name)

/-- The first alternative, in the order of declaration, that names none of the rules. -/
def FirstUnknown (rules : List Rule) (name lister : String) : Prop :=
  ∃ before after, listings rules = before ++ (name, lister) :: after ∧
    (∀ listing ∈ before, listing.1 ∈ rules.map (·.name)) ∧ name ∉ rules.map (·.name)

theorem checkAlternatives_eq_error_iff {known : List String} {rule : String} {names : List String}
    {fault : Fault} :
    checkAlternatives known rule names = .error fault ↔
      ∃ name, names.find? (!known.contains ·) = some name ∧
        fault = .unknownAlternative rule name := by
  induction names with
  | nil => simp [checkAlternatives]
  | cons name rest ih =>
      by_cases h : known.contains name = true
      · rw [checkAlternatives, if_pos h, ih, List.find?_cons_of_neg (by rw [h]; decide)]
      · rw [checkAlternatives, if_neg h, List.find?_cons_of_pos (by simpa using h)]
        simp [eq_comm]

theorem checkAllAlternatives_eq_error_iff {known : List String} {rules : List Rule}
    {fault : Fault} :
    checkAllAlternatives known rules = .error fault ↔
      ∃ name lister, (listings rules).find? (!known.contains ·.1) = some (name, lister) ∧
        fault = .unknownAlternative lister name := by
  induction rules with
  | nil => simp [checkAllAlternatives, listings]
  | cons rule rest ih =>
      have first : listings (rule :: rest) =
          rule.alternatives.map (·, rule.name) ++ listings rest := rfl
      rw [checkAllAlternatives, check_bind_eq_error_iff, checkAlternatives_eq_error_iff, ih, first,
        List.find?_append, List.find?_map]
      change (∃ name, rule.alternatives.find? (!known.contains ·) = some name ∧ _) ∨ _ ↔
        ∃ name lister, ((rule.alternatives.find? (!known.contains ·)).map _).or _ = _ ∧ _
      cases found : rule.alternatives.find? (!known.contains ·) with
      | some name =>
          have unknown : ¬ checkAlternatives known rule.name rule.alternatives = .ok () := by
            rw [checkAlternatives_eq_error_iff.mpr ⟨name, found, rfl⟩]
            simp
          simp [unknown]
      | none =>
          have all : checkAlternatives known rule.name rule.alternatives = .ok () := by
            apply checkAlternatives_eq_ok_iff.mpr
            intro name hn
            simpa using List.find?_eq_none.mp found name hn
          simp [all]

namespace Ancestry

theorem resolve_eq_error_iff {rules : List Rule} {fault : Fault} :
    resolve rules = .error fault ↔
      ∃ name lister, FirstUnknown rules name lister ∧
        fault = .unknownAlternative lister name := by
  have first (name lister : String) :
      (listings rules).find? (!(rules.map (·.name)).contains ·.1) = some (name, lister) ↔
        FirstUnknown rules name lister := by
    rw [List.find?_eq_some_iff_append, FirstUnknown]
    simp only [Bool.not_eq_true', Bool.not_not, List.contains_iff_mem, ← Bool.not_eq_true]
    constructor
    · intro ⟨unknown, before, after, split, known⟩
      exact ⟨before, after, split, known, unknown⟩
    · intro ⟨before, after, split, known, unknown⟩
      exact ⟨unknown, before, after, split, known⟩
  rw [resolve, check_bind_eq_error_iff, checkAllAlternatives_eq_error_iff]
  simp only [first]
  simp [pure, Except.pure]

/-- Resolving fails exactly if an alternative names no rule. -/
theorem exists_resolve_eq_error_iff {rules : List Rule} :
    (∃ fault, resolve rules = .error fault) ↔
      ∃ rule ∈ rules, ∃ name ∈ rule.alternatives, name ∉ rules.map (·.name) := by
  have fails : (∃ fault, resolve rules = .error fault) ↔
      ¬ checkAllAlternatives (rules.map (·.name)) rules = .ok () := by
    rw [resolve]
    cases checkAllAlternatives (rules.map (·.name)) rules with
    | error fault => simp [bind, Except.bind]
    | ok => simp [bind, Except.bind, pure, Except.pure]
  rw [fails, checkAllAlternatives_eq_ok_iff]
  simp [List.subset_def]

/-- A rule is an ancestor as often as it lists a name. -/
theorem direct_of_resolve {rules : List Rule} {ancestry : Ancestry}
    (h : resolve rules = .ok ancestry) (name : String) :
    ancestry.direct name =
      rules.flatMap fun rule => List.replicate (rule.alternatives.count name) rule.name := by
  simp only [resolve, check_bind_eq_ok_iff, pure_eq_ok_iff] at h
  have each (rule : Rule) :
      ((rule.alternatives.map (·, rule.name)).filter (·.1 == name)).map (·.2) =
        List.replicate (rule.alternatives.count name) rule.name := by
    rw [List.filter_map, List.map_map, List.count_eq_countP, List.countP_eq_length_filter,
      ← List.map_const']
    rfl
  rw [direct, ← h.2, List.filter_flatMap, List.map_flatMap]
  exact List.flatMap_congr fun rule _ => each rule

variable (ancestry : Ancestry)

/-- The search as a loop: as long as names are before it, those that are new among them are added
to the seen ones, and what these are listed by comes next. -/
inductive Searches : (seen frontier found : List String) → Prop
  | done (seen : List String) : Searches seen [] seen
  | round {seen frontier found : List String} : frontier ≠ [] →
      Searches (seen ++ freshNames seen frontier)
        ((freshNames seen frontier).flatMap ancestry.direct) found →
      Searches seen frontier found

/-- One name is reached from another by going to a lister so many times. -/
def Climbs : (steps : Nat) → (name ancestor : String) → Prop
  | 0, name, ancestor => name = ancestor
  | steps + 1, name, ancestor =>
    ∃ before, Climbs steps name before ∧ ancestry.Listed before ancestor

/-- The least number of steps from a name to an ancestor. It takes at least one, also where the
listing leads back to the name itself. -/
structure IsDistance (name ancestor : String) (distance : Nat) : Prop where
  positive : 0 < distance
  reached : ancestry.Climbs distance name ancestor
  least : ∀ steps, 0 < steps → ancestry.Climbs steps name ancestor → distance ≤ steps

/-- The search for the ancestors of `name` after some rounds: it has seen what is reached in as many
steps, in the order of distances, and has before it what is reached in one step more. -/
structure Leveled (name : String) (rounds : Nat) (seen frontier : List String) : Prop where
  within : ∀ other steps, 0 < steps → steps ≤ rounds → ancestry.Climbs steps name other →
    other ∈ seen
  next : ∀ other, ancestry.Climbs (rounds + 1) name other → other ∈ seen ∨ other ∈ frontier
  reached : ∀ other ∈ frontier, ancestry.Climbs (rounds + 1) name other
  distances : ∃ distances, List.Forall₂ (ancestry.IsDistance name) seen distances ∧
    distances.Pairwise (· ≤ ·) ∧ ∀ distance ∈ distances, distance ≤ rounds

variable {ancestry}

/-- The loop ends where the bounded search does. -/
theorem searches_closureWithin {bound : Nat} {seen frontier : List String}
    (h : Explored ancestry seen frontier) (hb : ancestry.links.length ≤ bound + seen.length) :
    ancestry.Searches seen frontier (ancestry.closureWithin bound seen frontier) := by
  -- A round that finds nothing new is the last one.
  have last : ∀ {seen frontier}, freshNames seen frontier = [] →
      ancestry.Searches seen frontier seen := by
    intro seen frontier none
    by_cases empty : frontier = []
    · subst empty
      exact .done seen
    · apply Searches.round empty
      rw [none, List.append_nil]
      exact .done seen
  induction bound generalizing seen frontier with
  | zero =>
      have all := h.listers_subset_seen (by simpa using hb)
      apply last
      apply List.eq_nil_iff_forall_not_mem.mpr
      intro name hn
      obtain ⟨hf, hs⟩ := mem_freshNames.mp hn
      exact hs (all (h.frontier_subset hf))
  | succ bound ih =>
      simp only [closureWithin]
      split
      · next none => exact last none
      · next some =>
        have pos : 0 < (freshNames seen frontier).length := List.length_pos_iff.mpr some
        have before : frontier ≠ [] := by
          intro empty
          rw [empty] at some
          exact some rfl
        exact .round before (ih h.step (by rw [List.length_append]; omega))

namespace Leveled

variable {name : String} {rounds : Nat} {seen frontier : List String}

theorem start (name : String) : ancestry.Leveled name 0 [] (ancestry.direct name) where
  within other steps positive none := by omega
  next other h := by
    obtain ⟨_, rfl, listed⟩ := h
    exact .inr listed
  reached other h := ⟨name, rfl, h⟩
  distances := ⟨[], .nil, .nil, by simp⟩

theorem mem_append_freshNames (h : ancestry.Leveled name rounds seen frontier) {other : String}
    {steps : Nat} (positive : 0 < steps) (bound : steps ≤ rounds + 1)
    (climbs : ancestry.Climbs steps name other) : other ∈ seen ++ freshNames seen frontier := by
  by_cases old : other ∈ seen
  · exact List.mem_append_left _ old
  · obtain earlier | rfl := Nat.lt_or_eq_of_le bound
    · exact absurd (h.within other steps positive (by omega) climbs) old
    · have before := (h.next other climbs).resolve_left old
      exact List.mem_append_right _ (mem_freshNames.mpr ⟨before, old⟩)

/-- What is new in a round was not reached in fewer steps. -/
theorem isDistance_of_mem (h : ancestry.Leveled name rounds seen frontier) {other : String}
    (new : other ∈ freshNames seen frontier) : ancestry.IsDistance name other (rounds + 1) := by
  obtain ⟨before, unseen⟩ := mem_freshNames.mp new
  refine ⟨Nat.succ_pos rounds, h.reached other before, fun steps positive climbs => ?_⟩
  by_contra fewer
  exact unseen (h.within other steps positive (by omega) climbs)

theorem step (h : ancestry.Leveled name rounds seen frontier) :
    ancestry.Leveled name (rounds + 1) (seen ++ freshNames seen frontier)
      ((freshNames seen frontier).flatMap ancestry.direct) where
  within other steps positive bound climbs := h.mem_append_freshNames positive bound climbs
  next other climbs := by
    obtain ⟨before, climbs, listed⟩ := climbs
    by_cases old : before ∈ seen
    · -- The name before was reached earlier, so this one was reached by now.
      obtain ⟨distances, each, _, bound⟩ := h.distances
      obtain ⟨distance, hd, least⟩ := exists_mem_of_forall₂ each old
      have early := bound distance hd
      exact .inl (h.mem_append_freshNames (Nat.succ_pos distance) (by omega)
        ⟨before, least.reached, listed⟩)
    · have ahead := (h.next before climbs).resolve_left old
      exact .inr (List.mem_flatMap.mpr ⟨before, mem_freshNames.mpr ⟨ahead, old⟩, listed⟩)
  reached other ahead := by
    obtain ⟨before, new, listed⟩ := List.mem_flatMap.mp ahead
    exact ⟨before, h.reached before (mem_freshNames.mp new).1, listed⟩
  distances := by
    obtain ⟨distances, each, sorted, bound⟩ := h.distances
    refine ⟨distances ++ (freshNames seen frontier).map fun _ => rounds + 1, ?_, ?_, ?_⟩
    · apply List.rel_append each
      rw [List.forall₂_map_right_iff, List.forall₂_same]
      exact fun other new => h.isDistance_of_mem new
    · rw [List.pairwise_append, List.pairwise_map]
      refine ⟨sorted, List.pairwise_of_forall fun _ _ => Nat.le_refl _, ?_⟩
      intro distance hd other ho
      obtain ⟨_, _, rfl⟩ := List.mem_map.mp ho
      exact Nat.le_succ_of_le (bound distance hd)
    · intro distance hd
      obtain hd | hd := List.mem_append.mp hd
      · exact Nat.le_succ_of_le (bound distance hd)
      · obtain ⟨_, _, rfl⟩ := List.mem_map.mp hd
        exact Nat.le_refl _

theorem sorted (h : ancestry.Leveled name rounds seen frontier) :
    ∃ distances, List.Forall₂ (ancestry.IsDistance name) seen distances ∧
      distances.Pairwise (· ≤ ·) := by
  obtain ⟨distances, each, sorted, _⟩ := h.distances
  exact ⟨distances, each, sorted⟩

theorem sorted_closureWithin (h : ancestry.Leveled name rounds seen frontier) (bound : Nat) :
    ∃ distances, List.Forall₂ (ancestry.IsDistance name)
      (ancestry.closureWithin bound seen frontier) distances ∧ distances.Pairwise (· ≤ ·) := by
  induction bound generalizing rounds seen frontier with
  | zero => exact h.sorted
  | succ bound ih =>
      simp only [closureWithin]
      split
      · exact h.sorted
      · exact ih h.step

end Leveled

end Ancestry

theorem Rule.alternatives_subset_successors (rule : Rule) :
    rule.alternatives ⊆ rule.successors := by
  unfold alternatives successors
  cases rule.form with
  | leaf body => exact List.nil_subset _
  | alternatives names => exact List.Subset.refl _

/-- Being listed goes against handing on. -/
theorem Schema.handsOn_of_listed {schema : Schema} {ancestry : Ancestry}
    (h : Ancestry.resolve schema.rules = .ok ancestry) {name lister : String}
    (listed : ancestry.Listed name lister) : schema.HandsOn lister name := by
  obtain ⟨rule, hr, hn, ha⟩ := (Ancestry.listed_iff_of_resolve h).mp listed
  exact handsOn_iff.mpr ⟨rule, hr, hn, rule.alternatives_subset_successors ha⟩

theorem Schema.implements_antisymm {schema : Schema} {ancestry : Ancestry}
    (h : Ancestry.resolve schema.rules = .ok ancestry) (checked : schema.check = .ok ())
    {a b : String} (hab : ancestry.implements a b = true) (hba : ancestry.implements b a = true) :
    a = b := by
  have there := Ancestry.implements_iff.mp hab
  have back := Ancestry.implements_iff.mp hba
  obtain same | there := Relation.reflTransGen_iff_eq_or_transGen.mp there
  · exact same.symm
  · -- Otherwise a node could be handed on from `a` to itself.
    have circle := there.trans_left back
    have handed : Relation.TransGen schema.HandsOn a a :=
      circle.swap.lift id fun _ _ listed => Schema.handsOn_of_listed h listed
    exact absurd handed (Schema.acyclic_of_check checked a)

/-- Resolving fails exactly if an alternative names no rule, and tells the first that does. Where it
succeeds, the search for the ancestors of a name ends with each of them found once, the nearest
first; and standing in for a rule is the closure of being listed by it, which is an order on the
rules of a valid schema. -/
theorem Ancestry.resolve_search (rules : List Rule) :
    ((∃ fault, resolve rules = .error fault) ↔
      ∃ rule ∈ rules, ∃ name ∈ rule.alternatives, name ∉ rules.map (·.name)) ∧
    (∀ fault, resolve rules = .error fault ↔
      ∃ name lister, FirstUnknown rules name lister ∧
        fault = .unknownAlternative lister name) ∧
    ∀ ancestry, resolve rules = .ok ancestry →
      (∀ name, ancestry.direct name =
        rules.flatMap fun rule => List.replicate (rule.alternatives.count name) rule.name) ∧
      (∀ name, ancestry.Searches [] (ancestry.direct name) (ancestry.transitive name) ∧
        (ancestry.transitive name).Nodup ∧
        (∀ other, other ∈ ancestry.transitive name ↔
          Relation.TransGen ancestry.Listed name other) ∧
        ∃ distances, List.Forall₂ (ancestry.IsDistance name)
          (ancestry.transitive name) distances ∧ distances.Pairwise (· ≤ ·)) ∧
      (∀ a b, ancestry.implements a b = true ↔ Relation.ReflTransGen ancestry.Listed a b) ∧
      (∀ a, ancestry.implements a a = true) ∧
      (∀ a b c, ancestry.implements a b = true → ancestry.implements b c = true →
        ancestry.implements a c = true) ∧
      ∀ schema : Schema, schema.rules = rules → schema.validate.result = .ok () →
        ∀ a b, ancestry.implements a b = true → ancestry.implements b a = true → a = b := by
  refine ⟨exists_resolve_eq_error_iff, fun fault => resolve_eq_error_iff, fun ancestry h => ?_⟩
  refine ⟨direct_of_resolve h, fun name => ⟨?_, ?_, ?_, ?_⟩, fun a b => implements_iff, ?_, ?_, ?_⟩
  · exact searches_closureWithin (.start name) (Nat.le_refl _)
  · exact nodup_transitive name
  · exact fun other => mem_transitive_iff
  · exact (Leveled.start name).sorted_closureWithin _
  · exact fun a => implements_iff.mpr .refl
  · exact fun a b c there further => implements_iff.mpr
      ((implements_iff.mp there).trans (implements_iff.mp further))
  · intro schema same valid a b there back
    subst same
    exact schema.implements_antisymm h valid there back

/-- Rules that list each other, one of them declared twice. -/
def looped : List Rule :=
  [⟨"stmt", .alternatives ["block", "ret", "ret"]⟩, ⟨"ret", .leaf ⟨"RET", []⟩⟩,
    ⟨"node", .alternatives ["stmt"]⟩, ⟨"block", .alternatives ["node", "ret"]⟩,
    ⟨"stmt", .alternatives ["ret"]⟩]

/-- Rules that lie above each other. -/
def layered : Schema where
  package := ["demo"]
  tokenVocab := []
  runtime := "runtime"
  rules := [⟨"node", .alternatives ["stmt"]⟩, ⟨"stmt", .alternatives ["block", "ret"]⟩,
    ⟨"block", .alternatives ["ret"]⟩, ⟨"ret", .leaf ⟨"RET", []⟩⟩]

/-- Where rules list each other, a rule is its own ancestor, and no order comes of it. -/
theorem Ancestry.resolve_search_looped :
    (∃ ancestry, resolve looped = .ok ancestry ∧
      ancestry.direct "ret" = ["stmt", "stmt", "block", "stmt"] ∧
      ancestry.transitive "ret" = ["stmt", "block", "node"] ∧
      (∃ distances, List.Forall₂ (ancestry.IsDistance "ret") ["stmt", "block", "node"] distances ∧
        distances.Pairwise (· ≤ ·)) ∧
      Relation.TransGen ancestry.Listed "node" "node" ∧
      ancestry.implements "stmt" "node" = true ∧ ancestry.implements "node" "stmt" = true) ∧
    (∃ ancestry, resolve layered.rules = .ok ancestry ∧ layered.validate.result = .ok () ∧
      ancestry.implements "ret" "node" = true ∧ ancestry.implements "node" "ret" = false) ∧
    resolve [⟨"stmt", .alternatives ["stmt", "call", "ret"]⟩] =
      .error (.unknownAlternative "stmt" "call") := by
  refine ⟨⟨⟨listings looped⟩, rfl, rfl, ?_⟩, ⟨⟨listings layered.rules⟩, rfl, rfl, ?_⟩, ?_⟩
  · obtain ⟨_, search, _⟩ := (resolve_search looped).2.2 ⟨listings looped⟩ rfl
    have found : transitive ⟨listings looped⟩ "ret" = ["stmt", "block", "node"] := by decide
    obtain ⟨_, _, _, nearest⟩ := search "ret"
    rw [found] at nearest
    exact ⟨found, nearest, ((search "node").2.2.1 "node").mp (by decide), by decide, by decide⟩
  · have order := ((resolve_search layered.rules).2.2 ⟨listings layered.rules⟩ rfl).2.2.2.2.2
    have up : implements ⟨listings layered.rules⟩ "ret" "node" = true := by decide
    refine ⟨up, Bool.eq_false_iff.mpr fun down => ?_⟩
    exact absurd (order layered rfl rfl "ret" "node" up down) (by decide)
  · apply ((resolve_search _).2.1 _).mpr
    exact ⟨"call", "stmt", ⟨[("stmt", "stmt")], [("ret", "stmt")], rfl, by decide, by decide⟩, rfl⟩

end TreeShape
