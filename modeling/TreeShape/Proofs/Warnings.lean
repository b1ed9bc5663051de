import TreeShape.Proofs.Compiling
import TreeShape.Proofs.Mentions
import TreeShape.Proofs.Overlaps

/-!
What the warnings of overlaps tell. They are logged as texts, but names are identifiers and the
texts put them in quotes, so each text tells which overlap it is of. An overlap is warned of
exactly if an alternative is never taken for a kind that it accepts.
-/

namespace TreeShape

namespace Text

variable {isMark : Char → Bool}

theorem eq_of_splitAtMarks {text piece : List Char} (h : splitAtMarks isMark text = [piece]) :
    piece = text := by
  induction text generalizing piece with
  | nil =>
      cases h
      rfl
  | cons c rest ih =>
      obtain ⟨first, others, hs⟩ := List.exists_cons_of_ne_nil (splitAtMarks_ne_nil isMark rest)
      simp only [splitAtMarks, hs] at h
      split at h
      · cases h
      · cases h
        rw [ih hs]

theorem length_le_flatMap_splitAtMarks (isMark : Char → Bool) (texts : List (List Char)) :
    texts.length ≤ (texts.flatMap (splitAtMarks isMark)).length := by
  induction texts with
  | nil => exact Nat.le_refl 0
  | cons text rest ih =>
      have some := List.length_pos_iff.mpr (splitAtMarks_ne_nil isMark text)
      simp only [List.flatMap_cons, List.length_append, List.length_cons]
      omega

/-- Texts that have no more pieces than they are have no marks. -/
theorem flatMap_splitAtMarks_eq_self {texts : List (List Char)}
    (h : (texts.flatMap (splitAtMarks isMark)).length ≤ texts.length) :
    texts.flatMap (splitAtMarks isMark) = texts := by
  induction texts with
  | nil => rfl
  | cons text rest ih =>
      have some := List.length_pos_iff.mpr (splitAtMarks_ne_nil isMark text)
      have others := length_le_flatMap_splitAtMarks isMark rest
      simp only [List.flatMap_cons, List.length_append, List.length_cons] at h
      obtain ⟨piece, hp⟩ := List.length_eq_one_iff.mp
        (show (splitAtMarks isMark text).length = 1 by omega)
      rw [List.flatMap_cons, hp, eq_of_splitAtMarks hp, ih (by omega)]
      rfl

def isQuote (c : Char) : Bool :=
  c == '\''

theorem Identifier.unquoted {name : String} (h : Identifier name) :
    name.toList.any isQuote = false := by
  rw [List.any_eq_false]
  intro c hc quote
  have part := h.isIdentifierPart c hc
  rw [beq_iff_eq.mp quote] at part
  cases part

end Text

namespace Warning

def names : Warning → List String
  | noAlternatives rule | unreferenced rule => [rule]
  | overlap ⟨rule, earlier, later, kind⟩ => [rule, earlier, later, kind]

/-- What stands before, between and after the quotes of the text. -/
def parts : Warning → List String
  | noAlternatives rule => ["rule ", rule, " has no alternatives and will never match"]
  | overlap ⟨rule, earlier, later, kind⟩ =>
    ["rule ", rule, ": alternatives ", earlier, " and ", later, " both accept ", kind, "; ",
      earlier, " wins"]
  | unreferenced rule => ["unreferenced rule ", rule, ""]

theorem toList_message (warning : Warning) :
    warning.message.toList = ['\''].intercalate (warning.parts.map String.toList) := by
  cases warning with
  | noAlternatives rule =>
      change ("rule '" ++ rule ++ "' has no alternatives and will never match").toList = _
      simp only [String.toList_append, List.append_assoc]
      rfl
  | overlap overlap =>
      obtain ⟨rule, earlier, later, kind⟩ := overlap
      change (("rule '" ++ rule ++ "': alternatives '" ++ earlier ++ "' and '" ++ later ++
        "' both accept '" ++ kind ++ "'; ") ++ ("'" ++ earlier ++ "' wins")).toList = _
      simp only [String.toList_append, List.append_assoc]
      rfl
  | unreferenced rule =>
      change ("unreferenced rule '" ++ rule ++ "'").toList = _
      simp only [String.toList_append, List.append_assoc]
      rfl

theorem splitAtMarks_message (warning : Warning) :
    Text.splitAtMarks Text.isQuote warning.message.toList =
      (warning.parts.map String.toList).flatMap (Text.splitAtMarks Text.isQuote) := by
  have some : warning.parts.map String.toList ≠ [] := by
    cases warning <;> exact List.cons_ne_nil _ _
  rw [toList_message, Text.splitAtMarks_intercalate rfl some]

theorem unquoted_parts {warning : Warning} (h : ∀ name ∈ warning.names, Text.Identifier name) :
    ∀ part ∈ warning.parts, part.toList.any Text.isQuote = false := by
  have plain : ∀ name ∈ warning.names, name.toList.any Text.isQuote = false :=
    fun name hn => (h name hn).unquoted
  cases warning with
  | noAlternatives rule | unreferenced rule =>
      simp only [names, List.forall_mem_cons] at plain
      simp only [parts, List.forall_mem_cons]
      exact ⟨rfl, plain.1, rfl, plain.2⟩
  | overlap overlap =>
      obtain ⟨rule, earlier, later, kind⟩ := overlap
      simp only [names, List.forall_mem_cons] at plain
      obtain ⟨hr, he, hl, hk, none⟩ := plain
      simp only [parts, List.forall_mem_cons]
      exact ⟨rfl, hr, rfl, he, rfl, hl, rfl, hk, rfl, he, rfl, none⟩

theorem eq_overlap_of_parts {overlap : Overlap} {warning : Warning}
    (h : (Warning.overlap overlap).parts = warning.parts) : warning = .overlap overlap := by
  obtain ⟨rule, earlier, later, kind⟩ := overlap
  cases warning with
  | noAlternatives name | unreferenced name => simp [parts] at h
  | overlap other =>
      obtain ⟨rule', earlier', later', kind'⟩ := other
      simp only [parts, List.cons.injEq] at h
      obtain ⟨-, rfl, -, rfl, -, rfl, -, rfl, -⟩ := h
      rfl

/-- No warning about identifiers reads like one of an overlap that it is not of, whatever the names
are that the overlap is said to have. -/
theorem eq_overlap_of_message {overlap : Overlap} {warning : Warning}
    (names : ∀ name ∈ warning.names, Text.Identifier name)
    (h : (Warning.overlap overlap).message = warning.message) : warning = .overlap overlap := by
  have pieces : ((Warning.overlap overlap).parts.map String.toList).flatMap
      (Text.splitAtMarks Text.isQuote) = warning.parts.map String.toList := by
    rw [← splitAtMarks_message, h, splitAtMarks_message,
      Text.flatMap_splitAtMarks_of_unmarked (unquoted_parts names)]
  -- An overlap has the most parts, so that its names leave no room for quotes of their own.
  have most : warning.parts.length ≤ (Warning.overlap overlap).parts.length := by
    cases warning <;> simp [parts]
  have same : (Warning.overlap overlap).parts.map String.toList =
      warning.parts.map String.toList := by
    rw [← pieces, Text.flatMap_splitAtMarks_eq_self (by simpa [pieces] using most)]
  exact eq_overlap_of_parts (List.map_injective_iff.mpr (fun _ _ => String.toList_injective) same)

end Warning

namespace Schema

/-- The overlap is warned of when the schema is validated. -/
def WarnsOf (schema : Schema) (overlap : Overlap) : Prop :=
  ⟨.warn, (Warning.overlap overlap).message⟩ ∈ schema.validate.log

end Schema

namespace Shapes

variable {s : Shapes}

namespace Lawful

variable (lawful : s.Lawful)
include lawful

theorem identifier_of_accepts {id : s.Id} {kind : String} (h : s.accepts id kind = true) :
    Text.Identifier kind := by
  induction id using lawful.rule_induction with
  | shape id root steps hp =>
      obtain ⟨body, has, rfl, _⟩ := lawful.body_of_shape hp
      rw [(lawful.accepts_shape_iff hp).mp h]
      exact ((lawful.body_wellFormed has).root has.2).1
  | delegate id target hp ih => exact ih ((lawful.accepts_delegate_iff hp).mp h)
  | choice id alternatives hp ih =>
      obtain ⟨alternative, hm, ha⟩ := (lawful.accepts_choice_iff hp).mp h
      exact ih alternative hm ha

theorem identifier_of_admits {kind name : String} (h : s.Admits kind name) :
    Text.Identifier name ∧ Text.Identifier kind := by
  obtain ⟨id, rfl, accepts⟩ := h
  exact ⟨lawful.identifier_name id, lawful.identifier_of_accepts accepts⟩

/-- What a schema's warnings name are its rules and the kinds that they accept. -/
theorem identifier_of_mem_warnings {warning : Warning} (hw : warning ∈ s.schema.warnings) :
    ∀ name ∈ warning.names, Text.Identifier name := by
  have checked := lawful.checked
  have distinct := (Schema.check_eq_ok_iff.mp checked).1
  simp only [Schema.warnings, checked, distinct, List.mem_append, List.mem_map] at hw
  rcases hw with (⟨rule, hollow, rfl⟩ | ⟨overlap, hm, rfl⟩) | ⟨rule, hu, rfl⟩
  · obtain ⟨rule, hr, rfl⟩ := List.mem_map.mp hollow
    have known := (List.takeWhile_sublist _).subset (List.mem_filter.mp hr).1
    simpa [Warning.names] using lawful.identifier_of_mem (List.mem_map_of_mem known)
  · obtain ⟨rule, hr, h⟩ := List.mem_flatMap.mp hm
    obtain ⟨named, _, ⟨_, later⟩, found⟩ := Schema.mem_overlapsOf_iff.mp h
    obtain ⟨_, _, _, earlier, _⟩ := lawful.find?_rootKinds_iff.mp found
    obtain ⟨he, hk⟩ := lawful.identifier_of_admits earlier
    obtain ⟨hl, _⟩ := lawful.identifier_of_admits (lawful.mem_rootKinds_iff_admits.mp later)
    have ruled := lawful.identifier_of_mem (List.mem_map_of_mem hr)
    simp only [Warning.names, named, List.forall_mem_cons]
    exact ⟨ruled, he, hl, hk, fun _ none => absurd none List.not_mem_nil⟩
  · have known := List.mem_of_mem_drop (List.mem_filter.mp hu).1
    simpa [Warning.names] using lawful.identifier_of_mem known

theorem warnsOf_iff {overlap : Overlap} :
    s.schema.WarnsOf overlap ↔ overlap ∈ s.schema.overlaps := by
  rw [← lawful.overlap_mem_warnings_iff]
  constructor
  · intro h
    obtain ⟨warning, hw, he⟩ := List.mem_map.mp h
    have same := (LogEntry.mk.inj he).2
    rwa [Warning.eq_overlap_of_message (lawful.identifier_of_mem_warnings hw) same.symm] at hw
  · intro h
    exact List.mem_map.mpr ⟨.overlap overlap, h, rfl⟩

/-- A kind is read by the first alternative that accepts it. -/
theorem parse_eq_of_outruns {id : s.Id} {names : List String}
    (form : (s.rule id).form = .alternatives names) {earlier later kind : String}
    (h : s.Outruns names earlier later kind) :
    ∃ first, s.name first = earlier ∧
      ∀ tree : Tree, tree.kind = kind → s.parse tree id = s.parse tree first := by
  obtain ⟨alternatives, hp⟩ := lawful.choice_of_alternatives form
  cases form.symm.trans (lawful.form_of_choice hp)
  have same : (fun name => (s.schema.rootKinds name).contains kind) ∘ s.name =
      (s.accepts · kind) := by
    funext id
    rw [Bool.eq_iff_iff, Function.comp_apply, List.contains_iff_mem, lawful.mem_rootKinds_iff]
  have found := lawful.find?_rootKinds_iff.mpr h.first
  rw [List.find?_map, same] at found
  obtain ⟨first, found, named⟩ := Option.map_eq_some_iff.mp found
  refine ⟨first, named, ?_⟩
  rintro tree rfl
  rw [lawful.parse_eq_plan tree id, hp]
  simp only [found]

end Lawful

/-- The warnings of overlaps say how nodes are dispatched: which alternative accepts a kind first
and is taken for it, and which ones it is never handed to. A rule that none is logged for has at
most one alternative for each node. -/
theorem overlap_warnings_iff_dispatch {schema : Schema} (valid : schema.validate.result = .ok ()) :
    ∃ s, compile schema = .ok s ∧
      (∀ id tree, s.canParse id tree = true ↔ tree.kind ∈ schema.rootKinds (s.name id)) ∧
      ∀ id names, (s.rule id).form = .alternatives names →
        (∀ earlier later kind, schema.WarnsOf ⟨s.name id, earlier, later, kind⟩ ↔
          s.Outruns names earlier later kind) ∧
        (∀ earlier later kind, schema.WarnsOf ⟨s.name id, earlier, later, kind⟩ →
          ∃ first, s.name first = earlier ∧
            ∀ tree : Tree, tree.kind = kind → s.parse tree id = s.parse tree first) ∧
        ((∀ earlier later kind, ¬schema.WarnsOf ⟨s.name id, earlier, later, kind⟩) →
          ∀ tree a b, s.name a ∈ names → s.name b ∈ names →
            s.canParse a tree = true → s.canParse b tree = true → a = b) := by
  obtain ⟨s, hc⟩ := exists_compile_iff.mpr valid
  obtain ⟨rfl, lawful⟩ := lawful_of_compile hc
  refine ⟨s, hc, fun id tree => lawful.mem_rootKinds_iff.symm, ?_⟩
  intro id names form
  have warned : ∀ earlier later kind, s.schema.WarnsOf ⟨s.name id, earlier, later, kind⟩ ↔
      s.Outruns names earlier later kind := by
    intro earlier later kind
    rw [lawful.warnsOf_iff, lawful.mem_overlaps_iff, Rule.alternatives, form]
  refine ⟨warned, ?_, ?_⟩
  · intro earlier later kind h
    exact lawful.parse_eq_of_outruns form ((warned _ _ _).mp h)
  · intro quiet tree a b ha hb accepts accepts'
    by_contra distinct
    obtain ⟨earlier, later, h⟩ := lawful.exists_outruns ha hb accepts accepts' distinct
    exact quiet _ _ _ ((warned _ _ _).mpr h)

end Shapes

/-- Values that may be names in two ways. -/
def values : Schema where
  package := ["demo"]
  tokenVocab := ["tokens"]
  runtime := "runtime"
  rules :=
    [⟨"value", .alternatives ["name", "atom", "name"]⟩,
     ⟨"atom", .alternatives ["number", "name", "unit"]⟩,
     ⟨"name", .leaf ⟨"NAME", [.of "text" .text .one]⟩⟩,
     ⟨"number", .leaf ⟨"NUMBER", [.of "text" .text .one]⟩⟩,
     ⟨"unit", .leaf ⟨"UNIT", []⟩⟩]

def valuePlans : List (Plan 5) :=
  [.choice [2, 1, 2],
   .choice [3, 2, 4],
   .shape "NAME" [.text "text" false],
   .shape "NUMBER" [.text "text" false],
   .shape "UNIT" []]

def valueShapes : Shapes where
  schema := values
  ancestry := ⟨[("name", "value"), ("atom", "value"), ("name", "value"), ("number", "atom"),
    ("name", "atom"), ("unit", "atom")]⟩
  plans := valuePlans
  length_plans := rfl

theorem compile_values : Shapes.compile values = .ok valueShapes := by
  rfl

/-- In `values`, names are never read as atoms, which is warned of; atoms are one thing each. -/
theorem overlap_warnings_iff_dispatch_values :
    values.validate.result = .ok () ∧ values.WarnsOf ⟨"value", "name", "atom", "NAME"⟩ ∧
      (∀ tree : Tree, tree.kind = "NAME" → valueShapes.parse tree ⟨0, by decide⟩ =
        valueShapes.parse tree ⟨2, by decide⟩) ∧
      ∀ tree a b, valueShapes.name a ∈ ["number", "name", "unit"] →
        valueShapes.name b ∈ ["number", "name", "unit"] →
        valueShapes.canParse a tree = true → valueShapes.canParse b tree = true → a = b := by
  have valid : values.validate.result = .ok () := by decide
  obtain ⟨s, hc, _, dispatch⟩ := Shapes.overlap_warnings_iff_dispatch valid
  cases Except.ok.inj (compile_values.symm.trans hc)
  obtain ⟨warned, taken, _⟩ := dispatch ⟨0, by decide⟩ ["name", "atom", "name"] rfl
  have overlap : values.WarnsOf ⟨"value", "name", "atom", "NAME"⟩ := by
    refine (warned "name" "atom" "NAME").mpr ⟨⟨[], _, rfl, ?_, ?_⟩, ?_, ?_, by decide⟩
    · exact ⟨⟨2, by decide⟩, rfl, by decide⟩
    · exact fun _ none => absurd none List.not_mem_nil
    · decide
    · exact ⟨⟨1, by decide⟩, rfl, by decide⟩
  obtain ⟨first, named, same⟩ := taken "name" "atom" "NAME" overlap
  have only : ∀ id, valueShapes.name id = "name" → id = ⟨2, by decide⟩ := by decide
  cases only first named
  obtain ⟨_, _, single⟩ := dispatch ⟨1, by decide⟩ ["number", "name", "unit"] rfl
  refine ⟨valid, overlap, same, single ?_⟩
  intro earlier later kind h
  have overlaps : values.overlaps = [⟨"value", "name", "atom", "NAME"⟩] := by decide
  have found := (Shapes.lawful_of_compile compile_values).2.warnsOf_iff.mp h
  rw [show valueShapes.schema.overlaps = _ from overlaps] at found
  have named : valueShapes.name ⟨1, by decide⟩ = "value" :=
    congrArg Overlap.rule (List.mem_singleton.mp found)
  exact absurd named (by decide)

end TreeShape
