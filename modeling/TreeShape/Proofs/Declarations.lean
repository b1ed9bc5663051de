import TreeShape.Proofs.Functions

/-!
What the lines of generated files say of capabilities: that a type has one, or that one is declared
to extend others. Both are read off the words of a line; all other lines, which is most of them, are
silent.
-/

namespace TreeShape.Code

/-- The parts of a text between spaces. -/
def spaced (text : String) : List String :=
  (Text.splitAtMarks (· == ' ') text.toList).map String.ofList

/-- The words of a line of code, which may be indented. -/
def lineWords (text : String) : List String :=
  spaced (Text.unindented text)

/-- The capability that a line gives, and the type it gives it to. -/
def implementation? (text : String) : Option (String × String) :=
  match lineWords text with
  | [first, capability, third, type, _] =>
    if first = "impl" ∧ third = "for" then some (capability, type) else none
  | _ => none

/-- Whether a word is one of the capabilities that another one extends, and no sign. -/
def isBound (word : String) : Bool :=
  word != "+" && word != "\x7b\x7d"

/-- The capability that a line declares, and those that it extends. -/
def declaration? (text : String) : Option (String × List String) :=
  match lineWords text with
  | first :: second :: name :: bounds =>
    if first = "pub" ∧ second = "trait" then
      some (String.ofList name.toList.dropLast, bounds.filter isBound)
    else none
  | _ => none

/-- What a file gives to types. -/
def implementations (text : String) : List (String × String) :=
  (Text.lines text).filterMap implementation?

/-- What a file declares. -/
def declarations (text : String) : List (String × List String) :=
  (Text.lines text).filterMap declaration?

theorem indifferent_lineWords : Indifferent lineWords := by
  intro depth text
  rw [lineWords, unindented_indented]
  rfl

theorem indifferent_implementation? : Indifferent implementation? := by
  intro depth text
  rw [implementation?, indifferent_lineWords]
  rfl

theorem indifferent_declaration? : Indifferent declaration? := by
  intro depth text
  rw [declaration?, indifferent_lineWords]
  rfl

theorem spaced_append (a b : String) : spaced (a ++ " " ++ b) = spaced a ++ spaced b := by
  have chars : (a ++ " " ++ b).toList = a.toList ++ ' ' :: b.toList := by simp
  rw [spaced, chars, Text.splitAtMarks_append_mark (by decide), List.map_append]
  rfl

theorem spaced_of_single {a : String} (h : ' ' ∉ a.toList) : spaced a = [a] := by
  rw [spaced, Text.splitAtMarks_of_unmarked]
  · simp
  · intro c hc
    simp only [beq_eq_false_iff_ne, ne_eq]
    rintro rfl
    exact h hc

theorem exists_spaced (text : String) : ∃ first rest, spaced text = first :: rest := by
  apply List.exists_cons_of_ne_nil
  simpa [spaced] using Text.splitAtMarks_ne_nil _ _

theorem exists_lineWords (text : String) : ∃ first rest, lineWords text = first :: rest :=
  exists_spaced _

theorem head?_of_spaced {text first : String} {rest : List String} (h : spaced text = first :: rest)
    {c : Char} (hc : first.toList.head? = some c) : text.toList.head? = some c := by
  unfold spaced at h
  cases chars : text.toList with
  | nil =>
      rw [chars] at h
      cases h
      cases hc
  | cons d more =>
      obtain ⟨piece, pieces, hp⟩ :=
        List.exists_cons_of_ne_nil (Text.splitAtMarks_ne_nil (· == ' ') more)
      rw [chars] at h
      simp only [Text.splitAtMarks, hp] at h
      split at h
      · cases h
        cases hc
      · cases h
        simpa using hc

theorem spaced_cons {first text : String} (h : ' ' ∉ first.toList) :
    spaced (first ++ " " ++ text) = first :: spaced text := by
  rw [spaced_append, spaced_of_single h]
  rfl

theorem lineWords_cons {first text : String} (h : ' ' ∉ first.toList) (some : first ≠ "") :
    lineWords (first ++ " " ++ text) = first :: spaced text := by
  have letters : Text.isBlank first = false := by
    rw [Text.isBlank, List.all_eq_false]
    obtain ⟨c, hc⟩ := List.exists_mem_of_ne_nil _ (String.toList_eq_nil_iff.not.mpr some)
    refine ⟨c, hc, ?_⟩
    rw [beq_iff_eq]
    rintro rfl
    exact h hc
  rw [lineWords, Text.unindented_append_of_not_blank (by simp [letters]),
    Text.unindented_append_of_not_blank letters, Text.unindented_of_not_mem h, spaced_cons h]

section

variable {text first second : String} {rest : List String}

theorem implementation?_of_first (words : lineWords text = first :: rest) (h : first ≠ "impl") :
    implementation? text = none := by
  unfold implementation?
  rw [words]
  split
  · next same => exact if_neg fun keywords => h ((List.cons.inj same).1.trans keywords.1)
  · rfl

theorem declaration?_of_first (words : lineWords text = first :: rest) (h : first ≠ "pub") :
    declaration? text = none := by
  unfold declaration?
  rw [words]
  split
  · next same => exact if_neg fun keywords => h ((List.cons.inj same).1.trans keywords.1)
  · rfl

theorem declaration?_of_second (words : lineWords text = first :: second :: rest)
    (h : second ≠ "trait") : declaration? text = none := by
  unfold declaration?
  rw [words]
  split
  · next same =>
    have seconds := (List.cons.inj (List.cons.inj same).2).1
    exact if_neg fun keywords => h (seconds.trans keywords.2)
  · rfl

end

/-- A line that neither gives nor declares a capability. -/
structure Line.Silent (line : Line) : Prop where
  implementation : implementation? line.text = none
  declaration : declaration? line.text = none

theorem silent_of_first {line : Line} {first : String} {rest : List String}
    (words : lineWords line.text = first :: rest) (impl : first ≠ "impl") (pub : first ≠ "pub") :
    line.Silent :=
  ⟨implementation?_of_first words impl, declaration?_of_first words pub⟩

/-- Whatever is public and no type. -/
structure Line.Public (line : Line) (second rest : String) : Prop where
  text : line.text = "pub" ++ " " ++ (second ++ " " ++ rest)
  single : ' ' ∉ second.toList
  struct : second ≠ "struct"
  trait : second ≠ "trait"

theorem Line.Public.lineWords_text {line : Line} {second rest : String}
    (h : line.Public second rest) :
    lineWords line.text = "pub" :: second :: spaced rest := by
  rw [h.text, lineWords_cons (by decide) (by decide), spaced_cons h.single]

/-- A line that may stand in an item: it declares at most a member. -/
inductive Line.Member (line : Line) : Prop
  | inner : line.Inner → line.Member
  | pub {second rest : String} : line.Public second rest → line.Member

/-- A line inside an item starts with none of the words that begin one. -/
theorem Line.Inner.first_ne {line : Line} (h : line.Inner) {first : String} {rest : List String}
    (words : lineWords line.text = first :: rest) {word : String}
    (item : Text.opensWith startsItem word = true) (other : word ≠ "if") : first ≠ word := by
  rintro rfl
  cases h with
  | other h =>
      obtain ⟨c, hc, marked⟩ := (Option.any_eq_true _ _).mp item
      rw [opensItem, Text.begins, Text.opensWith, head?_of_spaced words hc] at h
      exact Bool.false_ne_true (h.symm.trans marked)
  | condition more text =>
      rw [text, lineWords_cons (by decide) (by decide)] at words
      exact other (List.cons.inj words).1.symm

theorem Line.Member.silent {line : Line} (h : line.Member) : line.Silent := by
  cases h with
  | inner h =>
      obtain ⟨first, rest, words⟩ := exists_lineWords line.text
      exact silent_of_first words (h.first_ne words (by decide) (by decide))
        (h.first_ne words (by decide) (by decide))
  | pub h =>
      have words := h.lineWords_text
      exact ⟨implementation?_of_first words (by decide), declaration?_of_second words h.trait⟩

@[simp] theorem Line.Inner.member {line : Line} (h : line.Inner) : line.Member :=
  .inner h

/-- A line that brings names into scope. -/
def Line.Use (line : Line) : Prop :=
  ∃ path, line.text = "use" ++ " " ++ path

theorem Line.Use.silent {line : Line} (h : line.Use) : line.Silent := by
  obtain ⟨path, text⟩ := h
  have words : lineWords line.text = "use" :: spaced path := by
    rw [text, lineWords_cons (by decide) (by decide)]
  exact silent_of_first words (by decide) (by decide)

/-- A block of functions of a type gives it no capability. -/
theorem silent_impl {type : String} (single : ' ' ∉ type.toList) :
    (Line.opening s!"impl {type} \x7b").Silent := by
  have text : s!"impl {type} \x7b" = "impl" ++ " " ++ (type ++ " " ++ "\x7b") := by
    simp [← String.toList_inj, toString]
  have words : lineWords (Line.opening s!"impl {type} \x7b").text = ["impl", type, "\x7b"] := by
    rw [Line.text, text, lineWords_cons (by decide) (by decide), spaced_cons single]
    rfl
  refine ⟨?_, declaration?_of_first words (by decide)⟩
  rw [implementation?, words]

theorem implementation?_of_text {text : String} (capability type last : String)
    (same : text =
      "impl" ++ " " ++ (capability ++ " " ++ ("for" ++ " " ++ (type ++ " " ++ last))))
    (hc : ' ' ∉ capability.toList) (ht : ' ' ∉ type.toList) (hl : ' ' ∉ last.toList) :
    implementation? text = some (capability, type) ∧ declaration? text = none := by
  have words : lineWords text = ["impl", capability, "for", type, last] := by
    rw [same, lineWords_cons (by decide) (by decide), spaced_cons hc, spaced_cons (by decide),
      spaced_cons ht, spaced_of_single hl]
  refine ⟨?_, declaration?_of_first words (by decide)⟩
  rw [implementation?, words]
  rfl

theorem isBound_of_single {bound : String} (h : '+' ∉ bound.toList) (h' : '\x7b' ∉ bound.toList) :
    isBound bound = true := by
  have plus : bound ≠ "+" := by
    rintro rfl
    exact h (by decide)
  have braces : bound ≠ "\x7b\x7d" := by
    rintro rfl
    exact h' (by decide)
  simp [isBound, plus, braces]

theorem spaced_intercalate {bounds : List String} (nonempty : bounds ≠ [])
    (h : ∀ bound ∈ bounds, ' ' ∉ bound.toList ∧ isBound bound = true) :
    (spaced (" + ".intercalate bounds)).filter isBound = bounds := by
  induction bounds with
  | nil => contradiction
  | cons first rest ih =>
      obtain ⟨⟨single, other⟩, later⟩ := List.forall_mem_cons.mp h
      cases rest with
      | nil =>
          rw [String.intercalate_singleton, spaced_of_single single, List.filter_cons_of_pos other]
          rfl
      | cons second rest =>
          have text : " + ".intercalate (first :: second :: rest) =
              first ++ " " ++ ("+" ++ " " ++ " + ".intercalate (second :: rest)) := by
            simp [← String.toList_inj]
          rw [text, spaced_cons single, spaced_cons (by decide), List.filter_cons_of_pos other,
            List.filter_cons_of_neg (by decide), ih (by simp) later]

theorem declaration?_of_text {text name list : String} {bounds : List String}
    (same : text = s!"pub trait {name}: {list} \x7b\x7d")
    (joined : list = " + ".intercalate bounds) (hn : ' ' ∉ name.toList)
    (nonempty : bounds ≠ []) (h : ∀ bound ∈ bounds, ' ' ∉ bound.toList ∧ isBound bound = true) :
    declaration? text = some (name, bounds) ∧ implementation? text = none := by
  have parts : text = "pub" ++ " " ++ ("trait" ++ " " ++ ((name ++ ":") ++ " " ++
      (" + ".intercalate bounds ++ " " ++ "\x7b\x7d"))) := by
    rw [same, joined]
    simp [← String.toList_inj, toString]
  have colon : ' ' ∉ (name ++ ":").toList := by
    rw [String.toList_append, List.mem_append]
    exact fun hc => hc.elim hn (by decide)
  have words : lineWords text =
      "pub" :: "trait" :: (name ++ ":") :: (spaced (" + ".intercalate bounds) ++ ["\x7b\x7d"]) := by
    rw [parts, lineWords_cons (by decide) (by decide), spaced_cons (by decide), spaced_cons colon,
      spaced_append]
    rfl
  refine ⟨?_, implementation?_of_first words (by decide)⟩
  have list : (spaced (" + ".intercalate bounds) ++ ["\x7b\x7d"]).filter isBound = bounds := by
    rw [List.filter_append, spaced_intercalate nonempty h, List.filter_cons_of_neg (by decide),
      List.filter_nil, List.append_nil]
  simp [declaration?, words, list]

/-- No line of a list gives or declares a capability. -/
def Silent (lines : List Line) : Prop :=
  ∀ line ∈ lines, line.Silent

theorem Silent.append {lines more : List Line} (h : Silent lines) (h' : Silent more) :
    Silent (lines ++ more) :=
  List.forall_mem_append.mpr ⟨h, h'⟩

theorem Silent.filterMap_implementation? {lines : List Line} (h : Silent lines) :
    lines.filterMap (implementation? ·.text) = [] :=
  List.filterMap_eq_nil_iff.mpr fun line hl => (h line hl).implementation

theorem Silent.filterMap_declaration? {lines : List Line} (h : Silent lines) :
    lines.filterMap (declaration? ·.text) = [] :=
  List.filterMap_eq_nil_iff.mpr fun line hl => (h line hl).declaration

/-- All lines may stand in an item. -/
def Members (lines : List Line) : Prop :=
  ∀ line ∈ lines, line.Member

theorem Members.silent {lines : List Line} (h : Members lines) : Silent lines :=
  fun line hl => (h line hl).silent

theorem Members.append {lines more : List Line} (h : Members lines) (h' : Members more) :
    Members (lines ++ more) :=
  List.forall_mem_append.mpr ⟨h, h'⟩

theorem members_flatMap {α : Type} {f : α → List Line} {parts : List α}
    (h : ∀ part ∈ parts, Members (f part)) : Members (parts.flatMap f) :=
  List.forall_mem_flatMap.mpr h

theorem members_header (summary : String) : Members (header summary) := by
  simp +decide [Members, header]

theorem members_implementors (names : List String) : Members (implementors names) := by
  unfold implementors
  split <;> simp +decide [Members]

theorem use_useRuntime (schema : Schema) : (useRuntime schema).Use :=
  ⟨s!"{schema.runtime} as rt;", by simp [useRuntime, Line.text, ← String.toList_inj, toString]⟩

theorem use_useTokens (schema : Schema) : (useTokens schema).Use := by
  simp only [useTokens]
  split
  · exact ⟨s!"{tokensPath schema};", by simp [Line.text, ← String.toList_inj, toString]⟩
  · exact ⟨s!"{tokensPath schema} as tokens;", by simp [Line.text, ← String.toList_inj, toString]⟩

theorem use_super (names : String) : (Line.plain s!"use super::{names};").Use :=
  ⟨s!"super::{names};", by simp [Line.text, ← String.toList_inj, toString]⟩

theorem silent_useTypes (names : List String) : Silent (useTypes names) := by
  unfold useTypes
  split
  · exact List.forall_mem_nil _
  · exact List.forall_mem_singleton.mpr (use_super _).silent
  · exact List.forall_mem_singleton.mpr (use_super _).silent

theorem members_accessor (field : String) : Members (accessor field) := by
  have signature : (Line.opening s!"pub fn has_{snakeCase field}(&self) -> bool \x7b").Public "fn"
      s!"has_{snakeCase field}(&self) -> bool \x7b" := by
    refine ⟨?_, by decide, by decide, by decide⟩
    simp [Line.text, ← String.toList_inj, toString]
  simp +decide [Members, accessor, Line.Member.pub signature]

/-- What a type has besides its fields is in one block. -/
theorem members_accessorBlock (type : String) (fields : List String) :
    ∀ line ∈ accessorBlock type fields, line.Member ∨ line = .opening s!"impl {type} \x7b" := by
  cases fields with
  | nil => exact List.forall_mem_nil _
  | cons first rest =>
      have more : Members (rest.flatMap fun field => .blank :: accessor field) :=
        members_flatMap fun field _ =>
          List.forall_mem_cons.mpr ⟨inner_blank.member, members_accessor field⟩
      intro line hl
      simp only [accessorBlock, List.mem_append, List.mem_cons, List.not_mem_nil, or_false] at hl
      obtain (((rfl | rfl) | hl) | hl) | rfl := hl
      · exact .inl inner_blank.member
      · exact .inr rfl
      · exact .inl (members_accessor first line hl)
      · exact .inl (more line hl)
      · exact .inl (inner_closing (by decide)).member

variable {s : Shapes}

theorem mem_names_of_listed (lawful : s.Lawful) {name lister : String}
    (h : s.ancestry.Listed name lister) : lister ∈ s.schema.names := by
  obtain ⟨id, _, _, hn, _⟩ := lawful.listed_iff.mp h
  exact Shapes.mem_names_iff.mpr ⟨id, hn⟩

theorem mem_names_of_mem_transitive (lawful : s.Lawful) {name ancestor : String}
    (h : ancestor ∈ s.ancestry.transitive name) : ancestor ∈ s.schema.names := by
  cases Ancestry.mem_transitive_iff.mp h with
  | single listed | tail _ listed => exact mem_names_of_listed lawful listed

theorem mem_insertName {name other : String} {names : List String} :
    name ∈ insertName other names ↔ name = other ∨ name ∈ names := by
  induction names with
  | nil => simp [insertName]
  | cons first rest ih =>
      simp only [insertName]
      split
      · simp
      · split
        · next he => simp [he]
        · simp only [List.mem_cons, ih]
          exact or_left_comm

theorem mem_sortNames {name : String} {names : List String} :
    name ∈ sortNames names ↔ name ∈ names := by
  induction names with
  | nil => simp [sortNames]
  | cons first rest ih =>
      rw [List.mem_cons, ← ih]
      exact mem_insertName

theorem mem_supertraits {rule bound : String} :
    bound ∈ supertraits s rule ↔
      ∃ lister, s.ancestry.Listed rule lister ∧ typeIdent lister = bound := by
  rw [supertraits, mem_sortNames, List.mem_map]
  rfl

theorem mem_heldTypes {id : s.Id} {steps : List (Step s.size)} {type : String} :
    type ∈ heldTypes s id steps ↔
      ∃ target ∈ steps.filterMap Step.rule?, target ≠ id ∧ typeName s target = type := by
  simp only [heldTypes, List.mem_filterMap]
  constructor
  · rintro ⟨step, hs, held⟩
    split at held
    · next target _ =>
      split at held
      · cases held
      · next other =>
        cases held
        exact ⟨target, ⟨_, hs, rfl⟩, other, rfl⟩
    · cases held
    · cases held
  · rintro ⟨target, ⟨step, hs, rule⟩, other, rfl⟩
    refine ⟨step, hs, ?_⟩
    unfold Step.rule? at rule
    split at rule
    · cases rule
      exact if_neg other
    · cases rule
    · cases rule

theorem members_fieldLines {step : Step s.size} (valid : Text.Identifier step.field) :
    Members (fieldLines s step) := by
  have single : ' ' ∉ (fieldIdent step.field ++ ":").toList := by
    rw [String.toList_append, List.mem_append]
    exact fun h => h.elim (not_mem_fieldIdent valid (by decide) (by decide)) (by decide)
  have other {word : String} (h : ':' ∉ word.toList) : fieldIdent step.field ++ ":" ≠ word := by
    rintro rfl
    simp at h
  have field : (Line.plain s!"pub {fieldIdent step.field}: {fieldType s step},").Public
      (fieldIdent step.field ++ ":") (fieldType s step ++ ",") := by
    refine ⟨?_, single, other (by decide), other (by decide)⟩
    simp [Line.text, ← String.toList_inj, toString]
  simp +decide [Members, fieldLines, Line.Member.pub field]

/-- What a rule that hands on has for a field. -/
theorem members_inner (target : s.Id) :
    Members [.plain s!"/// The `{s.name target}` value.",
      .plain s!"pub {innerField}: {ruleType s target},", .closing "\x7d", .blank] := by
  have field : (Line.plain s!"pub {innerField}: {ruleType s target},").Public "inner:"
      (ruleType s target ++ ",") := by
    refine ⟨?_, by decide, by decide, by decide⟩
    simp [Line.text, innerField, ← String.toList_inj, toString]
  simp +decide [Members, Line.Member.pub field]

theorem members_pushBlock {n : Nat} (rule field : String) (accept : Accept n) {opening : String}
    (h : (Line.opening opening).Inner) : Members (pushBlock rule field accept opening) := by
  simp +decide [Members, pushBlock, h]

theorem members_unparseStep {n : Nat} (rule : String) (step : Step n) :
    Members (unparseStep rule step) := by
  have optional (field : String) :
      (Line.opening s!"if let Some(value) = &self.{fieldIdent field} \x7b").Inner := by
    apply Line.Inner.condition s!"let Some(value) = &self.{fieldIdent field} \x7b"
    simp [Line.text, ← String.toList_inj, toString]
  cases step with
  | text field optional => cases optional <;> simp +decide [Members, unparseStep]
  | child field accept quantifier =>
      cases quantifier with
      | one => simp +decide [Members, unparseStep]
      | optional => exact members_pushBlock _ _ _ (optional field)
      | zeroOrMore => exact members_pushBlock _ _ _ (by simp +decide)
      | oneOrMore => exact members_pushBlock _ _ _ (by simp +decide)

theorem members_unparseBody {n : Nat} (rule root : String) (steps : List (Step n)) :
    Members (unparseBody rule root steps) := by
  cases steps with
  | nil => simp +decide [Members, unparseBody]
  | cons first rest =>
      have first_line :
          Members [Line.plain s!"let mut tree = rt::Tree::new({kindConstant root});"] := by
        simp +decide [Members]
      have fields : Members ((first :: rest).flatMap (unparseStep rule)) :=
        members_flatMap fun step _ => members_unparseStep rule step
      have last : Members [Line.plain "Ok(tree)"] := by simp +decide [Members]
      exact (first_line.append fields).append last

/-- Functions are items that declare nothing but themselves. -/
theorem members_of_mem_functions (lawful : s.Lawful) {f : Function} (hf : f ∈ functions s) :
    Members f.lines := by
  obtain ⟨id, _, hr⟩ := List.mem_flatMap.mp hf
  obtain ⟨doc, body⟩ := inner_of_mem lawful hr
  have signature : (Line.opening s!"pub fn {f.name}({f.parameters}) -> {f.result} \x7b").Public
      "fn" s!"{f.name}({f.parameters}) -> {f.result} \x7b" := by
    refine ⟨?_, by decide, by decide, by decide⟩
    simp [Line.text, ← String.toList_inj, toString]
  intro line hl
  simp only [Function.lines, List.mem_append, List.mem_singleton] at hl
  obtain ((hl | rfl) | hl) | rfl := hl
  · exact (doc line hl).member
  · exact .pub signature
  · exact (body line hl).member
  · exact (inner_closing (by decide)).member

theorem members_functions (lawful : s.Lawful) :
    Members ((functions s).flatMap fun f => .blank :: f.lines) :=
  members_flatMap fun _ hf =>
    List.forall_mem_cons.mpr ⟨inner_blank.member, members_of_mem_functions lawful hf⟩

theorem lineWords_struct {type : String} (single : ' ' ∉ type.toList) :
    lineWords (Line.opening s!"pub struct {type} \x7b").text = ["pub", "struct", type, "\x7b"] := by
  have text : s!"pub struct {type} \x7b" =
      "pub" ++ " " ++ ("struct" ++ " " ++ (type ++ " " ++ "\x7b")) := by
    simp [← String.toList_inj, toString]
  rw [Line.text, text, lineWords_cons (by decide) (by decide), spaced_cons (by decide),
    spaced_cons single]
  rfl

theorem silent_struct {type : String} (single : ' ' ∉ type.toList) :
    (Line.opening s!"pub struct {type} \x7b").Silent :=
  ⟨implementation?_of_first (lineWords_struct single) (by decide),
    declaration?_of_second (lineWords_struct single) (by decide)⟩

theorem silent_accessorBlock {type : String} (single : ' ' ∉ type.toList) (fields : List String) :
    Silent (accessorBlock type fields) := by
  intro line hl
  obtain member | rfl := members_accessorBlock type fields line hl
  · exact member.silent
  · exact silent_impl single

section

variable {type : String} (ht : ' ' ∉ type.toList)
include ht

theorem filterMap_unparseLines {body : List Line} (h : Members body) :
    (unparseLines type body).filterMap (implementation? ·.text) = [("rt::Unparse", type)] ∧
      (unparseLines type body).filterMap (declaration? ·.text) = [] := by
  have first : implementation? (Line.opening s!"impl rt::Unparse for {type} \x7b").text =
        some ("rt::Unparse", type) ∧
      declaration? (Line.opening s!"impl rt::Unparse for {type} \x7b").text = none := by
    apply implementation?_of_text "rt::Unparse" type "\x7b" _ (by decide) ht (by decide)
    simp [Line.text, ← String.toList_inj, toString]
  have second :
      (Line.opening "fn unparse(&self) -> Result<rt::Tree, rt::ShapeMismatch> \x7b").Silent :=
    (inner_opening (by decide)).member.silent
  have last : Silent [Line.closing "\x7d", .closing "\x7d"] := by
    have brace : (Line.closing "\x7d").Silent := (inner_closing (by decide)).member.silent
    simp [Silent, brace]
  simp only [unparseLines, List.filterMap_append, h.silent.filterMap_implementation?,
    h.silent.filterMap_declaration?, last.filterMap_implementation?, last.filterMap_declaration?,
    List.filterMap_cons, first, second.implementation, second.declaration]
  exact ⟨rfl, rfl⟩

theorem filterMap_capabilityLines {names : List String} (h : ∀ name ∈ names, ' ' ∉ name.toList) :
    (capabilityLines type names).filterMap (implementation? ·.text) = names.map (·, type) ∧
      (capabilityLines type names).filterMap (declaration? ·.text) = [] := by
  have each : ∀ name ∈ names,
      implementation? (Line.plain s!"impl {name} for {type} \x7b\x7d").text = some (name, type) ∧
        declaration? (Line.plain s!"impl {name} for {type} \x7b\x7d").text = none := by
    intro name hn
    apply implementation?_of_text name type "\x7b\x7d" _ (h name hn) ht (by decide)
    simp [Line.text, ← String.toList_inj, toString]
  have whole {α : Type} {f : Line → Option α} (blank : f .blank = none) :
      (capabilityLines type names).filterMap f =
        names.filterMap fun name => f (.plain s!"impl {name} for {type} \x7b\x7d") := by
    cases names with
    | nil => rfl
    | cons first rest =>
        change (Line.blank :: (first :: rest).map _).filterMap f = _
        rw [List.filterMap_cons_none blank, List.filterMap_map]
        rfl
  have silent : Line.blank.Silent := inner_blank.member.silent
  rw [whole (f := (implementation? ·.text)) silent.implementation,
    whole (f := (declaration? ·.text)) silent.declaration]
  constructor
  · rw [List.filterMap_congr fun name hn => (each name hn).1]
    exact congrFun List.filterMap_eq_map names
  · exact List.filterMap_eq_nil_iff.mpr fun name hn => (each name hn).2

/-- Where lines are silent but for those at the end that give capabilities. -/
theorem filterMap_concrete {before body : List Line} {names : List String} (hb : Silent before)
    (hu : Members body) (hn : ∀ name ∈ names, ' ' ∉ name.toList) :
    (before ++ unparseLines type body ++ capabilityLines type names).filterMap
          (implementation? ·.text) = ("rt::Unparse", type) :: names.map (·, type) ∧
      (before ++ unparseLines type body ++ capabilityLines type names).filterMap
          (declaration? ·.text) = [] := by
  obtain ⟨first, quiet⟩ := filterMap_unparseLines ht hu
  obtain ⟨more, quiet'⟩ := filterMap_capabilityLines ht hn
  simp only [List.filterMap_append, hb.filterMap_implementation?, hb.filterMap_declaration?, first,
    quiet, more, quiet']
  exact ⟨rfl, rfl⟩

end

/-! ### The files of the package -/

theorem silent_parserPreamble : Silent (parserPreamble s) := by
  have own : Silent
      [.plain "#![allow(clippy::too_many_arguments)]", .blank, useRuntime s.schema] := by
    simp only [Silent, List.forall_mem_cons]
    exact ⟨(inner_plain (by decide)).member.silent, inner_blank.member.silent,
      (use_useRuntime _).silent, List.forall_mem_nil _⟩
  refine (((members_header _).silent.append own).append ?_).append ?_
  · split
    · exact List.forall_mem_singleton.mpr (use_useTokens _).silent
    · exact List.forall_mem_nil _
  · split
    · exact List.forall_mem_nil _
    · exact List.forall_mem_singleton.mpr (use_super _).silent

theorem silent_parserLines (lawful : s.Lawful) : Silent (parserLines s) :=
  silent_parserPreamble.append (members_functions lawful).silent

theorem silent_modLines (s : Shapes) : Silent (modLines s) := by
  have modules : Members (s.ids.map fun id => .plain s!"mod {fieldIdent (s.name id)};") :=
    List.forall_mem_map.mpr fun id _ => by simp +decide
  have parser : (Line.plain s!"pub mod {parserUnit};").Public "mod" s!"{parserUnit};" := by
    refine ⟨?_, by decide, by decide, by decide⟩
    simp [← String.toList_inj, toString]
  have used (id : s.Id) : (Line.plain s!"pub use {fieldIdent (s.name id)}::{typeName s id};").Public
      "use" s!"{fieldIdent (s.name id)}::{typeName s id};" := by
    refine ⟨?_, by decide, by decide, by decide⟩
    simp [← String.toList_inj, toString]
  refine (((((members_header _).append modules).append ?_).append ?_).append ?_).silent
  · exact List.forall_mem_singleton.mpr (.pub parser)
  · split
    · exact List.forall_mem_nil _
    · exact List.forall_mem_singleton.mpr inner_blank.member
  · exact List.forall_mem_map.mpr fun id _ => .pub (used id)

/-! ### Texts -/

theorem implementations_layout {lines : List Line} (h : OneLined lines) :
    implementations (layout lines) = lines.filterMap (implementation? ·.text) :=
  filterMap_lines_layout indifferent_implementation? (by decide) h

theorem declarations_layout {lines : List Line} (h : OneLined lines) :
    declarations (layout lines) = lines.filterMap (declaration? ·.text) :=
  filterMap_lines_layout indifferent_declaration? (by decide) h

end TreeShape.Code
