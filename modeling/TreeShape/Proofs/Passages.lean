import TreeShape.Proofs.Functions

/-!
The passages that generated code consists of, from the lines for one step of a rule to whole files.
Each of them opens and closes its own blocks, one inside the other. So it may stand at any depth,
which it leaves as it was, and no file closes a block that is not open.
-/

namespace TreeShape.Code

/-! ### The file of a rule -/

@[simp] theorem nested_header (summary : String) : Nested (header summary) :=
  nested_iff.mpr rfl

@[simp] theorem nested_useTypes (names : List String) : Nested (useTypes names) := by
  unfold useTypes
  split <;> exact nested_iff.mpr rfl

@[simp] theorem nested_capabilityLines (type : String) (names : List String) :
    Nested (capabilityLines type names) := by
  cases names with
  | nil => exact .nil
  | cons first rest => exact .blank (nested_map _ fun _ => nested_iff.mpr rfl)

theorem nested_unparseLines (type : String) {body : List Line} (h : Nested body) :
    Nested (unparseLines type body) := by
  rw [nested_iff]
  simp [unparseLines, h]

@[simp] theorem nested_accessor (field : String) : Nested (accessor field) :=
  nested_iff.mpr rfl

@[simp] theorem nested_accessorBlock (type : String) (fields : List String) :
    Nested (accessorBlock type fields) := by
  cases fields with
  | nil => exact .nil
  | cons first rest =>
      have more : Nested (rest.flatMap fun field => .blank :: accessor field) :=
        nested_flatMap fun field _ => .blank (nested_accessor field)
      rw [nested_iff]
      simp [accessorBlock, more]

theorem nested_unparseStep {n : Nat} (rule : String) (step : Step n) :
    Nested (unparseStep rule step) := by
  unfold unparseStep
  split <;> exact nested_iff.mpr rfl

theorem nested_unparseBody {n : Nat} (rule root : String) (steps : List (Step n)) :
    Nested (unparseBody rule root steps) := by
  cases steps with
  | nil => exact nested_iff.mpr rfl
  | cons first rest =>
      have each : Nested ((first :: rest).flatMap (unparseStep rule)) :=
        nested_flatMap fun step _ => nested_unparseStep rule step
      exact .plain _ (each.append (nested_iff.mpr rfl))

@[simp] theorem nested_implementors (names : List String) : Nested (implementors names) := by
  unfold implementors
  split <;> exact nested_iff.mpr rfl

variable (s : Shapes)

theorem nested_shapeLines (id : s.Id) (root : String) (steps : List (Step s.size)) :
    Nested (shapeLines s id root steps) := by
  have fields : Nested (steps.flatMap (fieldLines s)) :=
    nested_flatMap fun step _ => nested_iff.mpr rfl
  have body := nested_unparseLines (typeName s id) (nested_unparseBody (s.name id) root steps)
  -- the fields stand in a list of their own between the lines that open and close their block
  rw [nested_iff]
  simp [shapeLines, useRuntime, useTokens, fields, body]

theorem nested_delegateLines (id target : s.Id) : Nested (delegateLines s id target) := by
  have body := nested_unparseLines (typeName s id)
    (.plain s!"rt::Unparse::unparse(&*self.{innerField})" .nil)
  rw [nested_iff]
  simp [delegateLines, useRuntime, body]

theorem nested_capabilityUnitLines (id : s.Id) (alternatives : List s.Id) :
    Nested (capabilityUnitLines s id alternatives) := by
  rw [nested_iff]
  simp [capabilityUnitLines, useRuntime]

/-! ### The functions of a package -/

theorem nested_testDoc (rule : String) : Nested (testDoc rule) :=
  nested_iff.mpr rfl

theorem nested_makeDoc (summary : String) : Nested (makeDoc summary) :=
  nested_iff.mpr rfl

theorem nested_parseDoc (rule : String) (detail : List String) : Nested (parseDoc rule detail) := by
  have each : Nested (detail.flatMap fun text => [.plain s!"/// {text}", .plain "///"]) :=
    nested_flatMap fun _ _ => nested_iff.mpr rfl
  rw [nested_iff]
  simp [parseDoc, each]

@[simp] theorem nested_kindGuard (kind : String) : Nested (kindGuard kind) :=
  nested_iff.mpr rfl

theorem nested_takeLine (step : Step s.size) : Nested [takeLine s step] := by
  unfold takeLine
  split <;> exact nested_iff.mpr rfl

@[simp] theorem nested_takeLines (steps : List (Step s.size)) : Nested (takeLines s steps) := by
  cases steps with
  | nil => exact nested_iff.mpr rfl
  | cons first rest =>
      have each : Nested ((first :: rest).map (takeLine s)) := nested_map _ (nested_takeLine s)
      exact .plain _ (each.append (nested_iff.mpr rfl))

theorem nested_dispatchLines (type : String) (alternative : s.Id) :
    Nested (dispatchLines s type alternative) :=
  nested_iff.mpr rfl

theorem nested_noAlternativeLines (rule : String) : Nested (noAlternativeLines rule) :=
  nested_iff.mpr rfl

theorem nested_lines {f : Function} (doc : Nested f.doc) (body : Nested f.body) :
    Nested f.lines := by
  rw [nested_iff]
  simp [Function.lines, doc, body]

/-- Functions with a blank line between them. -/
def spacedFunctions : List Function → List Line
  | [] => []
  | first :: rest => first.lines ++ rest.flatMap fun f => .blank :: f.lines

theorem nested_spacedFunctions {functions : List Function}
    (h : ∀ f ∈ functions, Nested f.doc ∧ Nested f.body) : Nested (spacedFunctions functions) := by
  cases functions with
  | nil => exact .nil
  | cons first rest =>
      obtain ⟨here, later⟩ := List.forall_mem_cons.mp h
      exact (nested_lines here.1 here.2).append
        (nested_flatMap fun f hf => .blank (nested_lines (later f hf).1 (later f hf).2))

theorem nested_shapeFunctions (id : s.Id) (root : String) (steps : List (Step s.size)) :
    ∀ f ∈ shapeFunctions s id root steps, Nested f.doc ∧ Nested f.body := by
  simp only [shapeFunctions, List.forall_mem_cons, List.not_mem_nil, false_implies, implies_true,
    and_true]
  refine ⟨⟨nested_testDoc _, nested_iff.mpr rfl⟩, ⟨nested_parseDoc _ _, ?_⟩,
    nested_makeDoc _, nested_iff.mpr rfl⟩
  rw [nested_iff]
  simp

theorem nested_delegateFunctions (id target : s.Id) :
    ∀ f ∈ delegateFunctions s id target, Nested f.doc ∧ Nested f.body := by
  simp only [delegateFunctions, List.forall_mem_cons, List.not_mem_nil, false_implies, implies_true,
    and_true]
  exact ⟨⟨nested_testDoc _, nested_iff.mpr rfl⟩, ⟨nested_parseDoc _ _, nested_iff.mpr rfl⟩,
    nested_makeDoc _, nested_iff.mpr rfl⟩

theorem nested_choiceFunctions (id : s.Id) (alternatives : List s.Id) :
    ∀ f ∈ choiceFunctions s id alternatives, Nested f.doc ∧ Nested f.body := by
  have dispatch : Nested (alternatives.flatMap (dispatchLines s (typeName s id))) :=
    nested_flatMap fun alternative _ => nested_dispatchLines s _ alternative
  simp only [choiceFunctions, List.forall_mem_cons, List.not_mem_nil, false_implies, implies_true,
    and_true]
  exact ⟨⟨nested_testDoc _, nested_iff.mpr rfl⟩,
    nested_parseDoc _ _, dispatch.append (nested_noAlternativeLines _)⟩

theorem nested_ruleFunctions (id : s.Id) :
    ∀ f ∈ ruleFunctions s id, Nested f.doc ∧ Nested f.body := by
  unfold ruleFunctions
  cases s.plan id with
  | shape root steps => exact nested_shapeFunctions s id root steps
  | delegate target => exact nested_delegateFunctions s id target
  | choice alternatives => exact nested_choiceFunctions s id alternatives

theorem nested_functions : ∀ f ∈ functions s, Nested f.doc ∧ Nested f.body :=
  List.forall_mem_flatMap.mpr fun id _ => nested_ruleFunctions s id

theorem nested_flatMap_functions {some : List Function} (h : some ⊆ functions s) :
    Nested (some.flatMap fun f => .blank :: f.lines) := by
  refine nested_flatMap fun f hf => .blank ?_
  obtain ⟨doc, body⟩ := nested_functions s f (h hf)
  exact nested_lines doc body

theorem nested_parserPreamble : Nested (parserPreamble s) := by
  rw [nested_iff, parserPreamble]
  split <;> split <;> simp [useRuntime, useTokens]

theorem nested_parserLines : Nested (parserLines s) :=
  (nested_parserPreamble s).append (nested_flatMap_functions s (List.Subset.refl _))

theorem nested_modLines : Nested (modLines s) := by
  have modules : Nested (s.ids.map fun id => .plain s!"mod {fieldIdent (s.name id)};") :=
    nested_map _ fun _ => nested_iff.mpr rfl
  have types : Nested (s.ids.map fun id =>
      .plain s!"pub use {fieldIdent (s.name id)}::{typeName s id};") :=
    nested_map _ fun _ => nested_iff.mpr rfl
  rw [nested_iff, modLines]
  split <;> simp [modules, types]

/-! ### Passages -/

/-- A passage of generated code, by what it is written for. -/
inductive Passage where
  | header (summary : String)
  | types (names : List String)
  | accessors (type : String) (steps : List (Step s.size))
  | unparseStep (rule : String) (step : Step s.size)
  | capabilities (type : String) (names : List String)
  | shape (id : s.Id) (root : String) (steps : List (Step s.size))
  | delegate (id target : s.Id)
  | capability (id : s.Id) (alternatives : List s.Id)
  | testDoc (rule : String)
  | parseDoc (rule : String) (detail : List String)
  | takeStep (step : Step s.size)
  | shapeFunctions (id : s.Id) (root : String) (steps : List (Step s.size))
  | delegateFunctions (id target : s.Id)
  | choiceFunctions (id : s.Id) (alternatives : List s.Id)
  | parser
  | modules

variable {s}

def Passage.lines : Passage s → List Line
  | header summary => Code.header summary
  | types names => useTypes names
  | accessors type steps => accessorBlock type ((steps.filter isAbsentable).map (·.field))
  | unparseStep rule step => Code.unparseStep rule step
  | capabilities type names => capabilityLines type names
  | shape id root steps => shapeLines s id root steps
  | delegate id target => delegateLines s id target
  | capability id alternatives => capabilityUnitLines s id alternatives
  | testDoc rule => Code.testDoc rule
  | parseDoc rule detail => Code.parseDoc rule detail
  | takeStep step => [takeLine s step]
  | shapeFunctions id root steps => spacedFunctions (Code.shapeFunctions s id root steps)
  | delegateFunctions id target => spacedFunctions (Code.delegateFunctions s id target)
  | choiceFunctions id alternatives => spacedFunctions (Code.choiceFunctions s id alternatives)
  | parser => parserLines s
  | modules => modLines s

theorem Passage.nested (passage : Passage s) : Nested passage.lines := by
  cases passage with
  | header summary => exact nested_header summary
  | types names => exact nested_useTypes names
  | accessors type steps => exact nested_accessorBlock type _
  | unparseStep rule step => exact nested_unparseStep rule step
  | capabilities type names => exact nested_capabilityLines type names
  | shape id root steps => exact nested_shapeLines s id root steps
  | delegate id target => exact nested_delegateLines s id target
  | capability id alternatives => exact nested_capabilityUnitLines s id alternatives
  | testDoc rule => exact nested_testDoc rule
  | parseDoc rule detail => exact nested_parseDoc rule detail
  | takeStep step => exact nested_takeLine s step
  | shapeFunctions id root steps =>
      exact nested_spacedFunctions (nested_shapeFunctions s id root steps)
  | delegateFunctions id target =>
      exact nested_spacedFunctions (nested_delegateFunctions s id target)
  | choiceFunctions id alternatives =>
      exact nested_spacedFunctions (nested_choiceFunctions s id alternatives)
  | parser => exact nested_parserLines s
  | modules => exact nested_modLines s

/-- The passage that is the whole file of a rule. -/
def rulePassage (id : s.Id) : Passage s :=
  match s.plan id with
  | .shape root steps => .shape id root steps
  | .delegate target => .delegate id target
  | .choice alternatives => .capability id alternatives

theorem lines_rulePassage (id : s.Id) : (rulePassage id).lines = ruleLines s id := by
  unfold rulePassage ruleLines
  cases s.plan id <;> rfl

/-- The units of a package, each with its name and the passage that is all of it. -/
def unitPassages (s : Shapes) : List (String × Passage s) :=
  s.ids.map (fun id => (unitName (s.name id), rulePassage id)) ++
    [(parserUnit, .parser), (modUnit, .modules)]

theorem units_eq_map_unitPassages (s : Shapes) :
    units s =
      (unitPassages s).map fun unit => ⟨unit.1, (Sheet.empty.writeAll unit.2.lines).text⟩ := by
  have rule (id : s.Id) : ruleUnit s id =
      ⟨unitName (s.name id), (Sheet.empty.writeAll (rulePassage id).lines).text⟩ := by
    rw [ruleUnit, Sheet.layout_eq_text_writeAll, lines_rulePassage]
  rw [units, unitPassages, List.map_append, List.map_map, Sheet.layout_eq_text_writeAll,
    Sheet.layout_eq_text_writeAll]
  congr 1
  exact List.map_congr_left fun id _ => rule id

/-- Blocks nest in every passage: wherever it is written, it closes blocks only while some are open,
and it ends at the depth it began at. Every unit is a passage on an empty sheet, on which nothing is
open in the end. -/
theorem blocks_nest (s : Shapes) :
    (∀ passage : Passage s, Nested passage.lines ∧ ∀ sheet : Sheet, sheet.Steady passage.lines) ∧
    units s =
      (unitPassages s).map (fun unit => ⟨unit.1, (Sheet.empty.writeAll unit.2.lines).text⟩) ∧
    ∀ unit ∈ unitPassages s, Sheet.empty.ClosesOpen unit.2.lines ∧
      (Sheet.empty.writeAll unit.2.lines).depth = 0 := by
  have steady (passage : Passage s) (sheet : Sheet) : sheet.Steady passage.lines :=
    nested_iff_steady.mp passage.nested sheet
  refine ⟨fun passage => ⟨passage.nested, steady passage⟩, units_eq_map_unitPassages s, ?_⟩
  intro unit _
  exact ⟨(steady unit.2 .empty).closes, (steady unit.2 .empty).returns⟩

theorem blocks_nest_statements :
    (parserUnit, Passage.parser) ∈ unitPassages statementShapes ∧
      Sheet.empty.ClosesOpen (parserLines statementShapes) ∧
      (Sheet.empty.writeAll (parserLines statementShapes)).depth = 0 := by
  have mem : (parserUnit, Passage.parser) ∈ unitPassages statementShapes := by simp [unitPassages]
  exact ⟨mem, (blocks_nest statementShapes).2.2 _ mem⟩

end TreeShape.Code
