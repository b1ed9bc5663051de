import TreeShape.Proofs.Bindings
import TreeShape.Proofs.Emission

/-!
The locals of generated functions. A function that reads a node has a local for each field, and the
lines after it can no longer call a function of that name. No local is one of the variables that the
function has for itself, but a field may be called as a function is.
-/

namespace TreeShape

namespace Code

/-- Whether a line binds a local that is none of those that a function has for itself. -/
def Line.readsField (line : Line) : Bool :=
  line.local?.any (!ownLocals.contains ·)

def Function.fieldLines (f : Function) : List Line :=
  f.body.filter Line.readsField

/-- A field is read into a local by whose name the line of a later field means something else. -/
def Function.Captures (f : Function) (name : String) : Prop :=
  ∃ line later, [line, later].Sublist f.fieldLines ∧ line.local? = some name ∧ name ∈ later.refers

theorem not_readsField_of_local? {line : Line} (h : line.local? = none) :
    ¬line.readsField = true := by
  simp [Line.readsField, h]

section

variable {s : Shapes} (lawful : s.Lawful)
include lawful

theorem filter_takeLines {steps : List (Step s.size)}
    (valid : ∀ step ∈ steps, Text.Identifier step.field ∧
      ∀ kind ∈ stepKinds step, Text.Identifier kind) :
    (takeLines s steps).filter Line.readsField = steps.map (takeLine s) := by
  have own : ¬Line.readsField (.plain "let rest = tree.children();") = true := by decide
  have each : ∀ line ∈ steps.map (takeLine s), line.readsField = true := by
    rw [List.forall_mem_map]
    intro step hs
    rw [Line.readsField, local?_takeLine lawful (valid step hs).1 (valid step hs).2]
    simpa using localIdent_not_mem_ownLocals step.field
  cases steps with
  | nil => exact List.filter_cons_of_neg (not_readsField_of_local? (by decide))
  | cons first rest =>
      change (_ :: (first :: rest).map (takeLine s) ++ [_]).filter _ = _
      rw [List.cons_append, List.filter_cons_of_neg own, List.filter_append,
        List.filter_eq_self.mpr each,
        List.filter_cons_of_neg (not_readsField_of_local? (by decide)), List.filter_nil,
        List.append_nil]

/-- The lines of the function that reads a rule bind locals where they read a field, in order. -/
theorem exists_function_of_shape {id : s.Id} {root : String} {steps : List (Step s.size)}
    (hp : s.plan id = .shape root steps) :
    ∃ f ∈ ruleFunctions s id, f.name = parseName s id ∧ f.fieldLines = steps.map (takeLine s) := by
  have takes := filter_takeLines lawful (identifiers_of_shape lawful hp).2
  have guard : (kindGuard (kindConstant root)).filter Line.readsField = [] :=
    List.filter_eq_nil_iff.mpr fun line hl => not_readsField_of_local? (local?_kindGuard _ line hl)
  have rule : ¬Line.readsField (.plain s!"const RULE: &str = {Text.quote (s.name id)};") = true :=
    not_readsField_of_local? (boundLocal?_of_append (by decide) (by decide))
  have result (literal : String) : ¬Line.readsField (.plain s!"Ok({literal})") = true :=
    not_readsField_of_local? (boundLocal?_of_append (by decide) (by decide))
  have blank : ¬Line.readsField .blank = true := not_readsField_of_local? (by decide)
  unfold ruleFunctions
  rw [hp]
  refine ⟨_, List.mem_cons_of_mem _ List.mem_cons_self, rfl, ?_⟩
  simp only [Function.fieldLines, List.filter_append, takes, guard, List.filter_nil,
    List.filter_cons_of_neg blank, List.filter_cons_of_neg rule, List.nil_append,
    List.filter_cons_of_neg (result _), List.append_nil]

end

theorem mem_stepReads_iff {s : Shapes} {step : Step s.size} {name : String} (h : name ∉ ownLocals) :
    name ∈ stepReads s step ↔ name ∈ stepCalls s step := by
  have other : name ≠ "tree" ∧ name ≠ "rest" := by simpa [ownLocals] using h
  cases step with
  | text field optional => simp [stepReads, stepCalls, other]
  | child field accept quantifier => simp [stepReads, stepCalls, other]

/-- A local is called as a function is exactly if the field is, in small letters. -/
theorem localIdent_eq_iff {field name : String} (h : isReader name = true) :
    localIdent field = name ↔ snakeCase field = name := by
  have quiet : ∀ word ∈ keywords ++ reserved ++ ownLocals, isReader word = false :=
    List.all_iff_forall_prop.mp (by decide)
  have longer : ∀ word ∈ ["tree_value", "rest_value"] ++ reserved.map (· ++ "_"),
      isReader word = false :=
    List.all_iff_forall_prop.mp (by decide)
  constructor
  · intro same
    subst same
    obtain own | same := localIdent_eq_or field
    · simp [longer _ (List.mem_append_left _ own)] at h
    · rw [same] at h ⊢
      unfold fieldIdent identifier at h ⊢
      split at h
      · rw [isReader_of_head? (by simp) (by simp)] at h
        cases h
      · next keyword =>
        rw [if_neg keyword]
        unfold unreserved at h ⊢
        split at h
        · next word =>
          have word : snakeCase field ++ "_" ∈ reserved.map (· ++ "_") :=
            List.mem_map_of_mem (by simpa using word)
          simp [longer _ (List.mem_append_right _ word)] at h
        · next word => rw [if_neg word]
  · intro same
    subst same
    have free {words : List String} (hw : words ⊆ keywords ++ reserved ++ ownLocals) :
        ¬words.contains (snakeCase field) = true := by
      rw [List.contains_iff_mem]
      intro hf
      simp [quiet _ (hw hf)] at h
    have ident : fieldIdent field = snakeCase field := by
      rw [fieldIdent, identifier, if_neg (free (by simp)), unreserved, if_neg (free (by simp))]
    rw [localIdent, ident, if_neg (free (by simp))]

theorem mem_stepCalls_iff {s : Shapes} {item : Item} {step : Step s.size}
    (resolved : s.Resolves item step) {name : String} :
    name ∈ stepCalls s step ↔ ∃ rule, item.target = .rule rule ∧
      (name = "can_parse_" ++ unitName rule ∨ name = "parse_" ++ unitName rule) := by
  cases resolved with
  | text target => simp [stepCalls, target]
  | token target => simp [stepCalls, acceptCalls, target]
  | rule target =>
      simp [stepCalls, acceptCalls, target]
      rfl

/-- A function is in the file that the package has for all of them. -/
theorem exists_lines_of_mem {s : Shapes} {f : Function} (hf : f ∈ functions s) :
    ∃ before after, parserLines s = before ++ f.lines ++ after := by
  obtain ⟨first, others, all⟩ := List.append_of_mem hf
  have split : (functions s).flatMap (fun f => .blank :: f.lines) =
      first.flatMap (fun f => .blank :: f.lines) ++ [.blank] ++ f.lines ++
        others.flatMap fun f => .blank :: f.lines := by
    simp [all]
  rw [parserLines, split, ← List.append_assoc, ← List.append_assoc]
  exact ⟨_, _, rfl⟩

section

variable {s : Shapes} (lawful : s.Lawful) {id : s.Id} {body : Body}
include lawful

theorem captures_iff_of_shape {root : String} {steps : List (Step s.size)}
    (hp : s.plan id = .shape root steps) {f : Function}
    (lines : f.fieldLines = steps.map (takeLine s)) {name : String} :
    f.Captures name ↔ ∃ step later, [step, later].Sublist steps ∧
      localIdent step.field = name ∧ name ∈ stepCalls s later := by
  obtain ⟨_, valid⟩ := identifiers_of_shape lawful hp
  -- A local is none of the function's own variables, so only calls are left to refer to.
  have refers {step later : Step s.size} (order : [step, later].Sublist steps) :
      localIdent step.field ∈ (takeLine s later).refers ↔
        localIdent step.field ∈ stepCalls s later := by
    have first := valid step (order.subset List.mem_cons_self)
    have second := valid later (order.subset (List.mem_cons_of_mem _ List.mem_cons_self))
    rw [mem_refers_takeLine_iff lawful second.1 second.2 (isLocalName_localIdent first.1),
      mem_stepReads_iff (localIdent_not_mem_ownLocals _)]
  have binds {step later : Step s.size} (order : [step, later].Sublist steps) :
      (takeLine s step).local? = some (localIdent step.field) := by
    have first := valid step (order.subset List.mem_cons_self)
    exact local?_takeLine lawful first.1 first.2
  rw [Function.Captures, lines]
  constructor
  · intro ⟨_, _, order, bound, used⟩
    obtain ⟨pair, among, same⟩ := List.sublist_map_iff.mp order
    obtain ⟨step, rest, rfl, rfl, tail⟩ := List.map_eq_cons_iff.mp same.symm
    obtain ⟨later, rfl, rfl⟩ := List.map_eq_singleton_iff.mp tail
    rw [binds among] at bound
    cases bound
    exact ⟨step, later, among, rfl, (refers among).mp used⟩
  · intro ⟨step, later, order, same, called⟩
    subst same
    exact ⟨_, _, order.map (takeLine s), binds order, (refers order).mpr called⟩

theorem captures_iff_of_body {steps : List (Step s.size)}
    (hp : s.plan id = .shape body.root steps) (resolves : List.Forall₂ s.Resolves body.items steps)
    {f : Function} (lines : f.fieldLines = steps.map (takeLine s)) {name : String} :
    f.Captures name ↔ ∃ item later rule, [item, later].Sublist body.items ∧
      later.target = .rule rule ∧ snakeCase item.field = name ∧
      (name = "can_parse_" ++ unitName rule ∨ name = "parse_" ++ unitName rule) := by
  rw [captures_iff_of_shape lawful hp lines]
  constructor
  · intro ⟨step, later, order, bound, called⟩
    obtain ⟨item, laterItem, order, here, after⟩ := exists_pair_of_forall₂ resolves.flip order
    obtain ⟨rule, target, called⟩ := (mem_stepCalls_iff after).mp called
    rw [← Shapes.Resolves.field_eq here] at bound
    exact ⟨item, laterItem, rule, order, target,
      (localIdent_eq_iff (isReader_of_append called)).mp bound, called⟩
  · intro ⟨item, later, rule, order, target, bound, called⟩
    obtain ⟨step, laterStep, order, here, after⟩ := exists_pair_of_forall₂ resolves order
    refine ⟨step, laterStep, order, ?_, (mem_stepCalls_iff after).mpr ⟨rule, target, called⟩⟩
    rw [← Shapes.Resolves.field_eq here]
    exact (localIdent_eq_iff (isReader_of_append called)).mpr bound

end

end Code

namespace Shapes

open Code

/-- The function that reads a rule has a local for each field, in order and none of them one of its
own. A local hides a function that the line of a later field calls exactly if the field is called as
that function is, in small letters. -/
theorem captures_iff {schema : Schema} {s : Shapes} {files : List SourceUnit}
    (h : compile schema = .ok s) (emits : emit s = .ok files) {id : s.Id} {body : Body}
    (has : s.HasBody id body) :
    ∃ f ∈ ruleFunctions s id, f.name = parseName s id ∧
      (∃ before after, ⟨parserUnit, layout (before ++ f.lines ++ after)⟩ ∈ files) ∧
      f.fieldLines.map Line.local? = body.items.map (fun item => some (localIdent item.field)) ∧
      (∀ item ∈ body.items, localIdent item.field ≠ "tree" ∧ localIdent item.field ≠ "rest") ∧
      ∀ name, f.Captures name ↔ ∃ item later rule, [item, later].Sublist body.items ∧
        later.target = .rule rule ∧ snakeCase item.field = name ∧
        (name = "can_parse_" ++ unitName rule ∨ name = "parse_" ++ unitName rule) := by
  have lawful := (lawful_of_compile h).2
  obtain ⟨steps, hp, resolves⟩ := lawful.shape_of_body has
  obtain ⟨f, hf, name, lines⟩ := exists_function_of_shape lawful hp
  obtain ⟨before, after, all⟩ := exists_lines_of_mem (mem_functions hf)
  refine ⟨f, hf, name, ⟨before, after, ?_⟩, ?_, ?_, ?_⟩
  · rw [← (emit_eq_ok_iff.mp emits).2, units, ← all]
    simp
  · obtain ⟨_, valid⟩ := identifiers_of_shape lawful hp
    have each : ∀ step ∈ steps, (takeLine s step).local? = some (localIdent step.field) :=
      fun step hs => local?_takeLine lawful (valid step hs).1 (valid step hs).2
    calc f.fieldLines.map Line.local?
        = steps.map fun step => (takeLine s step).local? := by rw [lines, List.map_map]; rfl
      _ = steps.map fun step => some (localIdent step.field) := List.map_congr_left each
      _ = (steps.map (·.field)).map fun field => some (localIdent field) := by
          rw [List.map_map]; rfl
      _ = body.items.map fun item => some (localIdent item.field) := by
          rw [← map_field_eq resolves, List.map_map]; rfl
  · intro item _
    simpa [ownLocals] using localIdent_not_mem_ownLocals item.field
  · exact fun name => captures_iff_of_body lawful hp resolves lines

def pairBody : Body :=
  ⟨"PAIR", [.of "parse_expr" (.rule "expr") .one, .of "right" (.rule "expr") .one]⟩

/-- A rule with a field that is called as the function which reads another one. -/
def pairs : Schema where
  package := ["demo"]
  tokenVocab := ["tokens"]
  runtime := "runtime"
  rules := [⟨"pair", .leaf pairBody⟩, ⟨"expr", .leaf ⟨"EXPR", []⟩⟩]

def pairShapes : Shapes where
  schema := pairs
  ancestry := ⟨[]⟩
  plans :=
    [.shape "PAIR" [.child "parse_expr" (.rule ⟨1, by decide⟩) .one,
       .child "right" (.rule ⟨1, by decide⟩) .one],
     .shape "EXPR" []]
  length_plans := rfl

theorem compile_pairs : compile pairs = .ok pairShapes := by
  rfl

theorem emit_pairs : emit pairShapes = .ok (units pairShapes) := by
  rfl

/-- Of two fields, only the first can take a name from the other. -/
theorem captures_iff_pairs :
    ∃ f ∈ ruleFunctions pairShapes ⟨0, by decide⟩,
      f.fieldLines.map Line.local? = [some "parse_expr", some "right"] ∧
      ∀ name, f.Captures name ↔ name = "parse_expr" := by
  have pair : pairShapes.HasBody ⟨0, by decide⟩ pairBody := ⟨rfl, by decide⟩
  obtain ⟨f, hf, _, _, locals, _, captures⟩ := captures_iff compile_pairs emit_pairs pair
  refine ⟨f, hf, locals.trans (by decide), fun name => (captures name).trans ⟨?_, ?_⟩⟩
  · intro ⟨item, later, rule, order, _, same, _⟩
    cases order.eq_of_length rfl
    exact same.symm.trans (by decide)
  · intro same
    rw [same]
    exact ⟨_, _, "expr", List.Sublist.refl _, rfl, by decide, .inr (by decide)⟩

/-- How the fields of `pair` are read. -/
def pairLines : List Line :=
  [.plain ("let (parse_expr, rest) = rt::take_one(RULE, \"parse_expr\", rest, " ++
     "can_parse_expr, |t: &rt::Tree| parse_expr(t).map(Box::new))?;"),
   .plain ("let (right, rest) = rt::take_one(RULE, \"right\", rest, " ++
     "can_parse_expr, |t: &rt::Tree| parse_expr(t).map(Box::new))?;")]

/-- The second line calls a function where a value of that name is in scope. -/
theorem pair_captures :
    compile pairs = .ok pairShapes ∧ emit pairShapes = .ok (units pairShapes) ∧
      ∃ f ∈ ruleFunctions pairShapes ⟨0, by decide⟩, f.name = "parse_pair" ∧
        f.fieldLines = pairLines ∧ f.Captures "parse_expr" := by
  have lawful := (lawful_of_compile compile_pairs).2
  have plan : pairShapes.plan ⟨0, by decide⟩ =
      .shape "PAIR" [.child "parse_expr" (.rule ⟨1, by decide⟩) .one,
        .child "right" (.rule ⟨1, by decide⟩) .one] := rfl
  obtain ⟨f, hf, name, lines⟩ := exists_function_of_shape lawful plan
  refine ⟨compile_pairs, emit_pairs, f, hf, name, lines.trans (by decide), ?_⟩
  apply (captures_iff_of_shape lawful plan lines).mpr
  exact ⟨_, _, List.Sublist.refl _, by decide, by decide⟩

end Shapes
end TreeShape
