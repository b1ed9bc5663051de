import TreeShape.Proofs.Similar

/-!
How a rule accepts and reads a node, by the form of its plan. Handing on goes down in rank, so the
bound on it never shows: a rule that hands on does what the rule it hands on to does.
-/

namespace TreeShape.Shapes

variable {s : Shapes}

/-- Along plans: what holds of a rule whenever it holds of those that the rule hands on to. -/
theorem Lawful.rule_induction (lawful : s.Lawful) {motive : s.Id → Prop}
    (shape : ∀ id root steps, s.plan id = .shape root steps → motive id)
    (delegate : ∀ id target, s.plan id = .delegate target → motive target → motive id)
    (choice : ∀ id alternatives, s.plan id = .choice alternatives →
      (∀ alternative ∈ alternatives, motive alternative) → motive id)
    (id : s.Id) : motive id := by
  obtain ⟨rank, _, down⟩ := lawful.exists_rank
  induction h : rank id using Nat.strongRecOn generalizing id with
  | ind r ih =>
      subst h
      have below : ∀ next ∈ (s.plan id).successors, motive next :=
        fun next hn => ih (rank next) (down id next hn) next rfl
      cases hp : s.plan id with
      | shape root steps => exact shape id root steps hp
      | delegate target =>
          rw [hp] at below
          exact delegate id target hp (below target List.mem_cons_self)
      | choice alternatives =>
          rw [hp] at below
          exact choice id alternatives hp below

/-- Along reading: over the tree on the outside, since a child may be read by any rule, and over the
rules that hand a node on as it is on the inside. -/
theorem Lawful.reading_induction (lawful : s.Lawful) {motive : s.Id → Tree → Prop}
    (shape : ∀ id tree root steps, s.plan id = .shape root steps →
      (∀ child ∈ tree.children, ∀ id, motive id child) → motive id tree)
    (delegate : ∀ id tree target, s.plan id = .delegate target → motive target tree →
      motive id tree)
    (choice : ∀ id tree alternatives, s.plan id = .choice alternatives →
      (∀ alternative ∈ alternatives, motive alternative tree) → motive id tree)
    (id : s.Id) (tree : Tree) : motive id tree := by
  induction tree using Tree.nested_induction generalizing id with
  | step kind text children ih =>
      induction id using lawful.rule_induction with
      | shape id root steps hp => exact shape id _ root steps hp fun child hc id => ih child hc id
      | delegate id target hp iht => exact delegate id _ target hp iht
      | choice id alternatives hp iha => exact choice id _ alternatives hp iha

section Bounds

variable {rank : s.Id → Nat} (down : ∀ id, ∀ next ∈ (s.plan id).successors, rank next < rank id)
include down

private theorem acceptsWithin_stable {kind : String} {bound bound' : Nat} {id : s.Id}
    (h : rank id < bound) (h' : rank id < bound') :
    s.acceptsWithin kind bound id = s.acceptsWithin kind bound' id :=
  (Similar.refl s).acceptsWithin_eq down rfl h' h

private theorem parseWithin_stable (lawful : s.Lawful) {kind : String} {text : Option String}
    {children : List s.Child} {bound bound' : Nat} {id : s.Id} (h : rank id < bound)
    (h' : rank id < bound') :
    s.parseWithin kind text children bound id = s.parseWithin kind text children bound' id := by
  have same : List.Forall₂ (SameChild Eq) children children :=
    List.forall₂_same.mpr fun child _ => ⟨rfl, fun he => he ▸ rfl⟩
  exact (Similar.refl s).parseWithin_eq lawful down same rfl h' h

end Bounds

theorem parse_eq (tree : Tree) (id : s.Id) :
    s.parse tree id =
      s.parseWithin tree.kind tree.text (s.readings tree.children) s.size id := by
  cases tree
  rw [parse]

theorem readings_eq_map (trees : List Tree) :
    s.readings trees = trees.map fun tree => ⟨tree, s.parse tree⟩ := by
  induction trees with
  | nil => rw [readings]; rfl
  | cons tree rest ih => rw [readings, ih]; rfl

namespace Lawful

variable (lawful : s.Lawful) {id : s.Id} {kind : String} {tree : Tree}
include lawful

theorem accepts_eq (id : s.Id) (kind : String) :
    s.accepts id kind = match s.plan id with
      | .shape root _ => kind == root
      | .delegate target => s.accepts target kind
      | .choice alternatives => alternatives.any (s.accepts · kind) := by
  obtain ⟨rank, bounded, down⟩ := lawful.exists_rank
  calc s.accepts id kind
    _ = s.acceptsWithin kind (s.size + 1) id :=
        acceptsWithin_stable down (bounded id) (Nat.lt_succ_of_lt (bounded id))
    _ = _ := rfl

theorem parse_eq_plan (tree : Tree) (id : s.Id) :
    s.parse tree id = match s.plan id with
      | .shape root steps =>
        if tree.kind = root then do
          let (fields, rest) ← s.takeSteps (s.name id) tree.text steps (s.readings tree.children)
          Intake.finish (·.tree.kind) (s.name id) rest
          return ⟨s.name id, fields⟩
        else .error ⟨s.name id, .wrongKind root tree.kind⟩
      | .delegate target => do return wrap (s.name id) (← s.parse tree target)
      | .choice alternatives =>
        match alternatives.find? (s.accepts · tree.kind) with
        | some alternative => s.parse tree alternative
        | none => .error ⟨s.name id, .noAlternative tree.kind⟩ := by
  obtain ⟨rank, bounded, down⟩ := lawful.exists_rank
  simp only [parse_eq]
  calc s.parseWithin tree.kind tree.text (s.readings tree.children) s.size id
    _ = s.parseWithin tree.kind tree.text (s.readings tree.children) (s.size + 1) id :=
        parseWithin_stable down lawful (bounded id) (Nat.lt_succ_of_lt (bounded id))
    _ = _ := rfl

theorem accepts_shape_iff {root : String} {steps : List (Step s.size)}
    (hp : s.plan id = .shape root steps) : s.accepts id kind = true ↔ kind = root := by
  simp [lawful.accepts_eq id kind, hp]

theorem accepts_delegate_iff {target : s.Id} (hp : s.plan id = .delegate target) :
    s.accepts id kind = true ↔ s.accepts target kind = true := by
  simp [lawful.accepts_eq id kind, hp]

theorem accepts_choice_iff {alternatives : List s.Id}
    (hp : s.plan id = .choice alternatives) :
    s.accepts id kind = true ↔
      ∃ alternative ∈ alternatives, s.accepts alternative kind = true := by
  simp [lawful.accepts_eq id kind, hp]

theorem parse_shape_eq_ok_iff {root : String} {steps : List (Step s.size)} {node : Node}
    (hp : s.plan id = .shape root steps) :
    s.parse tree id = .ok node ↔ tree.kind = root ∧ ∃ fields, node = ⟨s.name id, fields⟩ ∧
      s.takeSteps (s.name id) tree.text steps (s.readings tree.children) = .ok (fields, []) := by
  rw [lawful.parse_eq_plan tree id, hp]
  dsimp only
  split
  · next he =>
    simp only [bind_eq_ok_iff, pure_eq_ok_iff, he, true_and]
    constructor
    · rintro ⟨⟨fields, rest⟩, taken, _, finished, rfl⟩
      cases rest with
      | nil => exact ⟨fields, rfl, taken⟩
      | cons child rest => cases finished
    · rintro ⟨fields, rfl, taken⟩
      exact ⟨(fields, []), taken, (), rfl, rfl⟩
  · next he => simp [he]

theorem parse_delegate_eq_ok_iff {target : s.Id} {node : Node}
    (hp : s.plan id = .delegate target) :
    s.parse tree id = .ok node ↔
      ∃ inner, s.parse tree target = .ok inner ∧ wrap (s.name id) inner = node := by
  rw [lawful.parse_eq_plan tree id, hp]
  simp only [bind_eq_ok_iff, pure_eq_ok_iff]

theorem parse_choice_eq_ok_iff {alternatives : List s.Id} {node : Node}
    (hp : s.plan id = .choice alternatives) :
    s.parse tree id = .ok node ↔
      ∃ alternative, alternatives.find? (s.accepts · tree.kind) = some alternative ∧
        s.parse tree alternative = .ok node := by
  rw [lawful.parse_eq_plan tree id, hp]
  dsimp only
  split
  · next alternative found => simp [found]
  · next missing => simp [missing]

/-- Only a node that a rule accepts can be read by it. -/
theorem accepts_of_parse {node : Node} (h : s.parse tree id = .ok node) :
    s.accepts id tree.kind = true := by
  induction id using lawful.rule_induction generalizing node with
  | shape id root steps hp =>
      exact (lawful.accepts_shape_iff hp).mpr ((lawful.parse_shape_eq_ok_iff hp).mp h).1
  | delegate id target hp ih =>
      obtain ⟨inner, h, _⟩ := (lawful.parse_delegate_eq_ok_iff hp).mp h
      exact (lawful.accepts_delegate_iff hp).mpr (ih h)
  | choice id alternatives hp _ =>
      obtain ⟨alternative, found, _⟩ := (lawful.parse_choice_eq_ok_iff hp).mp h
      have hm := List.mem_of_find?_eq_some found
      have ha := List.find?_some found
      exact (lawful.accepts_choice_iff hp).mpr ⟨alternative, hm, ha⟩

end Lawful
end TreeShape.Shapes
