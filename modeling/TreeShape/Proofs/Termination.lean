import Mathlib.Order.WellFounded
import TreeShape.Proofs.Compiling
import TreeShape.Proofs.Dispatch

/-!
Why matching ends. Reading goes on to the children of a tree, by whatever rules the items name, or
stays at the tree and goes on to a rule of lower rank. So the size of the tree and then the rank of
the rule go down along all calls, and the recursion has one solution, which needs no bound to be
told.
-/

namespace TreeShape

mutual

/-- The number of nodes of a tree. -/
def Tree.size : Tree → Nat
  | ⟨_, _, children⟩ => Tree.sizeAll children + 1

def Tree.sizeAll : List Tree → Nat
  | [] => 0
  | tree :: rest => tree.size + Tree.sizeAll rest

end

private theorem Tree.size_le_of_mem {child : Tree} {trees : List Tree} (h : child ∈ trees) :
    child.size ≤ Tree.sizeAll trees := by
  induction trees with
  | nil => cases h
  | cons tree rest ih =>
      rw [Tree.sizeAll]
      cases h with
      | head => omega
      | tail _ h =>
          have := ih h
          omega

theorem Tree.size_lt_of_mem {tree child : Tree} (h : child ∈ tree.children) :
    child.size < tree.size := by
  obtain ⟨kind, text, children⟩ := tree
  have := size_le_of_mem h
  rw [Tree.size]
  exact Nat.lt_succ_of_le this

section

variable {α β : Type} {before : α → α → Prop} {step : (α → β) → α → β} {f : α → β}

/-- A recursion that ends: there is no way back from an argument without end, a step asks only for
what comes before, and `f` is the one function that the steps agree on. -/
structure DefinedBy (before : α → α → Prop) (step : (α → β) → α → β) (f : α → β) : Prop where
  wellFounded : WellFounded before
  congr : ∀ g g' a, (∀ b, before b a → g b = g' b) → step g a = step g' a
  solution : ∀ g, (∀ a, g a = step g a) ↔ g = f

theorem DefinedBy.of_eq (wellFounded : WellFounded before)
    (congr : ∀ g g' a, (∀ b, before b a → g b = g' b) → step g a = step g' a)
    (eq : ∀ a, f a = step f a) : DefinedBy before step f := by
  refine ⟨wellFounded, congr, fun g => ⟨fun hg => ?_, fun hg => hg ▸ eq⟩⟩
  funext a
  induction a using wellFounded.induction with
  | h a ih => rw [hg a, eq a, congr g f a ih]

end

namespace Schema

variable (schema : Schema)

/-- The kinds of a rule, from those of the rules that it hands on to. -/
def kindsStep (kinds : String → List String) (name : String) : List String :=
  match schema.rule? name with
  | none => []
  | some rule =>
    match rule.form with
    | .alternatives names => names.flatMap kinds
    | .leaf body => if body.delegates then kinds body.root else [body.root]

variable {schema}

theorem rootKindsWithin_succ (bound : Nat) (name : String) :
    schema.rootKindsWithin (bound + 1) name =
      schema.kindsStep (schema.rootKindsWithin bound) name :=
  rfl

theorem kindsStep_congr (kinds kinds' : String → List String) (name : String)
    (same : ∀ next, schema.HandsOn name next → kinds next = kinds' next) :
    schema.kindsStep kinds name = schema.kindsStep kinds' name := by
  unfold kindsStep
  cases found : schema.rule? name with
  | none => rfl
  | some rule =>
      have hr : rule ∈ schema.rules := List.mem_of_find?_eq_some found
      have hn : rule.name = name := by simpa using List.find?_some found
      subst hn
      cases form : rule.form with
      | alternatives names =>
          simp only [form]
          exact List.flatMap_congr fun next hm => same next (.alternative hr form hm)
      | leaf body =>
          cases delegates : body.delegates with
          | true => simp only [form, delegates, if_true, same _ (.delegate hr form delegates)]
          | false => simp only [form, delegates, Bool.false_eq_true, if_false]

/-- Through more rules than its rank, no more kinds of a rule are found. -/
theorem rootKindsWithin_stable {rank : String → Nat}
    (down : ∀ {name next}, schema.HandsOn name next → rank next < rank name) {bound bound' : Nat}
    {name : String} (h : rank name < bound) (h' : rank name < bound') :
    schema.rootKindsWithin bound name = schema.rootKindsWithin bound' name := by
  induction bound generalizing bound' name with
  | zero => omega
  | succ bound ih =>
      obtain _ | bound' := bound'
      · omega
      rw [rootKindsWithin_succ, rootKindsWithin_succ]
      refine kindsStep_congr _ _ name fun next hn => ?_
      have := down hn
      exact ih (by omega) (by omega)

theorem rootKinds_eq {rank : String → Nat}
    (bounded : ∀ name ∈ schema.names, rank name < schema.rules.length)
    (down : ∀ {name next}, schema.HandsOn name next → rank next < rank name) (name : String) :
    schema.rootKinds name = schema.kindsStep schema.rootKinds name := by
  by_cases hn : name ∈ schema.names
  · have := bounded name hn
    calc schema.rootKinds name
      _ = schema.rootKindsWithin (schema.rules.length + 1) name :=
          rootKindsWithin_stable down this (by omega)
      _ = schema.kindsStep schema.rootKinds name := rfl
  · have none : schema.rule? name = none := by
      apply List.find?_eq_none.mpr
      intro rule hr he
      exact hn (List.mem_map.mpr ⟨rule, hr, by simpa using he⟩)
    rw [kindsStep, none, rootKinds]
    cases schema.rules.length with
    | zero => rfl
    | succ bound => rw [rootKindsWithin, none]

end Schema

namespace Shapes

variable (s : Shapes)

/-- What reading a tree by a rule asks for: the same tree by rules that it is handed on to, and the
children by rules that items name. -/
inductive Calls : Tree × s.Id → Tree × s.Id → Prop
  | handOn {tree : Tree} {id next : s.Id} : next ∈ (s.plan id).successors →
      Calls (tree, next) (tree, id)
  | item {tree child : Tree} {id target : s.Id} {root : String} {steps : List (Step s.size)}
      {step : Step s.size} : s.plan id = .shape root steps → step ∈ steps →
      step.rule? = some target → child ∈ tree.children → Calls (child, target) (tree, id)

/-- Whether a rule accepts a tree, from whether those do that it hands on to. -/
def testStep (test : Tree × s.Id → Bool) (call : Tree × s.Id) : Bool :=
  match s.plan call.2 with
  | .shape root _ => call.1.kind == root
  | .delegate target => test (call.1, target)
  | .choice alternatives => alternatives.any fun next => test (call.1, next)

/-- What a rule reads, from what it and others read further on. -/
def readStep (read : Tree × s.Id → Except ShapeMismatch Node) (call : Tree × s.Id) :
    Except ShapeMismatch Node :=
  let tree := call.1
  let name := s.name call.2
  match s.plan call.2 with
  | .shape root steps =>
    if tree.kind = root then do
      let children := tree.children.map fun child => ⟨child, fun id => read (child, id)⟩
      let (fields, rest) ← s.takeSteps name tree.text steps children
      Intake.finish (·.tree.kind) name rest
      return ⟨name, fields⟩
    else .error ⟨name, .wrongKind root tree.kind⟩
  | .delegate target => do return wrap name (← read (tree, target))
  | .choice alternatives =>
    match alternatives.find? fun next => s.canParse next tree with
    | some next => read (tree, next)
    | none => .error ⟨name, .noAlternative tree.kind⟩

variable {s}

theorem testStep_congr (test test' : Tree × s.Id → Bool) (call : Tree × s.Id)
    (same : ∀ callee, s.Calls callee call → test callee = test' callee) :
    s.testStep test call = s.testStep test' call := by
  obtain ⟨tree, id⟩ := call
  have below : ∀ next ∈ (s.plan id).successors, test (tree, next) = test' (tree, next) := by
    intro next hn
    exact same _ (.handOn hn)
  simp only [testStep]
  cases hp : s.plan id with
  | shape root steps => rfl
  | delegate target =>
      rw [hp] at below
      exact below target List.mem_cons_self
  | choice alternatives =>
      rw [hp] at below
      apply Bool.eq_iff_iff.mpr
      simp only [List.any_eq_true]
      exact exists_congr fun next => and_congr_right fun hn => by rw [below next hn]

/-- The same rule, which one of the steps names. -/
def Named (steps : List (Step s.size)) (id id' : s.Id) : Prop :=
  id' = id ∧ ∃ step ∈ steps, step.rule? = some id

private theorem takeSteps_named {steps : List (Step s.size)} {children children' : List s.Child}
    (same : List.Forall₂ (SameChild (Named steps)) children children') (rule : String)
    (text : Option String) :
    Intake.Agree (SameChild (Named steps)) (s.takeSteps rule text steps children)
      (s.takeSteps rule text steps children') := by
  have steps' : List.Forall₂ (Step.Related (Named steps)) steps steps := by
    refine List.forall₂_same.mpr fun step hs => ?_
    exact .refl step fun id hid => ⟨rfl, step, hs, hid⟩
  refine takeSteps_agree (fun h kind => ?_) rule text steps' same
  rw [h.1]

theorem readStep_congr (read read' : Tree × s.Id → Except ShapeMismatch Node)
    (call : Tree × s.Id) (same : ∀ callee, s.Calls callee call → read callee = read' callee) :
    s.readStep read call = s.readStep read' call := by
  obtain ⟨tree, id⟩ := call
  have below : ∀ next ∈ (s.plan id).successors, read (tree, next) = read' (tree, next) := by
    intro next hn
    exact same _ (.handOn hn)
  simp only [readStep]
  cases hp : s.plan id with
  | shape root steps =>
      -- A child could be read by any rule, but is only ever asked for by those that steps name.
      have children : List.Forall₂ (SameChild (Named steps))
          (tree.children.map fun child => ⟨child, fun id => read (child, id)⟩)
          (tree.children.map fun child => ⟨child, fun id => read' (child, id)⟩) := by
        rw [List.forall₂_map_left_iff, List.forall₂_map_right_iff]
        refine List.forall₂_same.mpr fun child hc => ⟨rfl, fun {target _} h => ?_⟩
        obtain ⟨rfl, step, hs, ht⟩ := h
        exact (same _ (.item hp hs ht hc)).symm
      by_cases hk : tree.kind = root
      · simp only [if_pos hk]
        refine ((takeSteps_named children _ _).bind_eq fun fields rest rest' hr => ?_).symm
        dsimp only
        rw [Intake.finish_eq (fun h => congrArg Tree.kind h.1) hr]
      · simp only [if_neg hk]
  | delegate target =>
      rw [hp] at below
      simp only [below target List.mem_cons_self]
  | choice alternatives =>
      rw [hp] at below
      cases found : alternatives.find? fun next => s.canParse next tree with
      | none => simp only [found]
      | some next => simp only [found, below next (List.mem_of_find?_eq_some found)]

namespace Lawful

variable (lawful : s.Lawful)
include lawful

theorem handsOn_of_mem {id next : s.Id} (h : next ∈ (s.plan id).successors) :
    s.schema.HandsOn (s.name id) (s.name next) := by
  refine Schema.handsOn_iff.mpr ⟨s.rule id, List.get_mem _ _, rfl, ?_⟩
  rw [lawful.successors_eq]
  exact List.mem_map_of_mem h

theorem exists_name_rank :
    ∃ rank : String → Nat, (∀ name ∈ s.schema.names, rank name < s.schema.rules.length) ∧
      ∀ {name next}, s.schema.HandsOn name next → rank next < rank name := by
  obtain ⟨_, rules, cycles⟩ := Schema.check_eq_ok_iff.mp lawful.checked
  refine Schema.exists_rank_of_checkCycles lawful.names_nodup (fun h => h.next_mem ?_) cycles
  exact fun rule hr => checkRule_eq_ok_iff.mp (rules rule hr)

theorem calls_descend {rank : String → Nat}
    (down : ∀ {name next}, s.schema.HandsOn name next → rank next < rank name)
    {callee caller : Tree × s.Id} (h : s.Calls callee caller) :
    Prod.Lex (· < ·) (· < ·) (callee.1.size, rank (s.name callee.2))
      (caller.1.size, rank (s.name caller.2)) := by
  cases h with
  | handOn hn => exact .right _ (down (lawful.handsOn_of_mem hn))
  | item _ _ _ hc => exact .left _ _ (Tree.size_lt_of_mem hc)

theorem calls_wellFounded : WellFounded s.Calls := by
  obtain ⟨rank, _, down⟩ := lawful.exists_name_rank
  have order : WellFounded (Prod.Lex (· < ·) (· < ·) : Nat × Nat → Nat × Nat → Prop) :=
    WellFounded.prod_lex Nat.lt_wfRel.wf Nat.lt_wfRel.wf
  have below : Subrelation s.Calls (InvImage (Prod.Lex (· < ·) (· < ·))
      fun call => (call.1.size, rank (s.name call.2))) := lawful.calls_descend down
  exact below.wf (InvImage.wf _ order)

theorem canParse_eq_testStep (call : Tree × s.Id) :
    s.canParse call.2 call.1 = s.testStep (fun call => s.canParse call.2 call.1) call := by
  rw [canParse, lawful.accepts_eq]
  rfl

theorem parse_eq_readStep (call : Tree × s.Id) :
    s.parse call.1 call.2 = s.readStep (fun call => s.parse call.1 call.2) call := by
  rw [lawful.parse_eq_plan, readings_eq_map]
  rfl

end Lawful

/-- Every rule has a rank below the number of rules, which goes down wherever a node is handed on;
so tests, readings and root kinds are found by recursions that end. -/
theorem matching_terminates {schema : Schema} {s : Shapes} (h : compile schema = .ok s) :
    ∃ rank : String → Nat, (∀ name ∈ schema.names, rank name < schema.rules.length) ∧
      (∀ name next, schema.HandsOn name next → rank next < rank name) ∧
      (∀ callee caller, s.Calls callee caller →
        Prod.Lex (· < ·) (· < ·) (callee.1.size, rank (s.name callee.2))
          (caller.1.size, rank (s.name caller.2))) ∧
      DefinedBy s.Calls s.testStep (fun call => s.canParse call.2 call.1) ∧
      DefinedBy s.Calls s.readStep (fun call => s.parse call.1 call.2) ∧
      DefinedBy (fun next name => schema.HandsOn name next) schema.kindsStep schema.rootKinds := by
  obtain ⟨rfl, lawful⟩ := lawful_of_compile h
  obtain ⟨rank, bounded, down⟩ := lawful.exists_name_rank
  have wellFounded := lawful.calls_wellFounded
  have handing : WellFounded fun next name => s.schema.HandsOn name next :=
    Subrelation.wf (fun h => down h) (InvImage.wf rank Nat.lt_wfRel.wf)
  refine ⟨rank, bounded, fun _ _ => down, fun _ _ => lawful.calls_descend down, ?_, ?_, ?_⟩
  · exact .of_eq wellFounded testStep_congr lawful.canParse_eq_testStep
  · exact .of_eq wellFounded readStep_congr lawful.parse_eq_readStep
  · exact .of_eq handing Schema.kindsStep_congr (Schema.rootKinds_eq bounded down)

/-- A block is a statement and holds statements, and reading one ends. -/
theorem matching_terminates_statements :
    ∃ rank : String → Nat, rank "block" < rank "stmt" ∧ rank "group" < rank "paren" ∧
      DefinedBy statementShapes.Calls statementShapes.readStep
        (fun call => statementShapes.parse call.1 call.2) := by
  obtain ⟨rank, _, down, _, _, read, _⟩ := matching_terminates compile_statements
  refine ⟨rank, down _ _ ?_, down _ _ ?_, read⟩
  · exact Schema.handsOn_iff.mpr
      ⟨⟨"stmt", .alternatives ["ifStmt", "block"]⟩, by simp [statements], rfl, by decide⟩
  · exact Schema.handsOn_iff.mpr
      ⟨⟨"paren", .leaf ⟨"group", []⟩⟩, by simp [statements], rfl, by decide⟩

end Shapes
end TreeShape
