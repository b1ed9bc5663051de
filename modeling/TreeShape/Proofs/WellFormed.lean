import TreeShape.Proofs.Check
import TreeShape.Proofs.Circles
import TreeShape.Schema.Warning

/-!
Well-formed schemas, said without the passes that check them. Each pass of the check succeeds on
what it should, so together they let through exactly the well-formed ones.
-/

namespace TreeShape

namespace Text

def IsLetter (c : Char) : Prop :=
  ('a' ≤ c ∧ c ≤ 'z') ∨ ('A' ≤ c ∧ c ≤ 'Z')

def IsDigit (c : Char) : Prop :=
  '0' ≤ c ∧ c ≤ '9'

/-- ASCII letters, digits and underscores, the first of which is no digit. -/
def Identifier (name : String) : Prop :=
  ∃ first rest, name.toList = first :: rest ∧ (IsLetter first ∨ first = '_') ∧
    ∀ c ∈ rest, IsLetter c ∨ IsDigit c ∨ c = '_'

theorem isAlpha_iff {c : Char} : c.isAlpha = true ↔ IsLetter c := by
  have upper : c.isUpper = decide ('A' ≤ c ∧ c ≤ 'Z') := rfl
  have lower : c.isLower = (decide ('a' ≤ c) && decide (c ≤ 'z')) := rfl
  have alpha : c.isAlpha = (c.isUpper || c.isLower) := rfl
  simp only [alpha, upper, lower, IsLetter, Bool.or_eq_true, Bool.and_eq_true, decide_eq_true_eq]
  exact or_comm

theorem isDigit_iff {c : Char} : c.isDigit = true ↔ IsDigit c := by
  simp only [Char.isDigit, IsDigit, Bool.and_eq_true, decide_eq_true_eq]
  rfl

theorem isIdentifier_iff {name : String} : isIdentifier name = true ↔ Identifier name := by
  unfold isIdentifier Identifier
  cases name.toList with
  | nil => simp [isIdentifierChars]
  | cons first rest =>
      simp [isIdentifierChars, isIdentifierStart, isIdentifierPart, Char.isAlphanum, isAlpha_iff,
        isDigit_iff, or_assoc]

end Text

structure Item.WellFormed (known : List String) (item : Item) : Prop where
  field : Text.Identifier item.field
  rule : ∀ name, item.target = .rule name → name ∈ known
  token : ∀ kind, item.target = .token kind → Text.Identifier kind ∧ kind ≠ "Self"
  text : item.target = .text → item.quantifier = .one ∨ item.quantifier = .optional
  repeated : item.repeated = true ↔ item.quantifier = .zeroOrMore ∨ item.quantifier = .oneOrMore
  optional : item.repeated = false → (item.optional = true ↔ item.quantifier = .optional)

structure Body.WellFormed (known : List String) (body : Body) : Prop where
  delegate : body.delegates = true → body.root ∈ known ∧ body.items = []
  root : body.delegates = false → Text.Identifier body.root ∧ body.root ≠ "Self"
  items : ∀ item ∈ body.items, item.WellFormed known
  fields : (body.items.map (·.field)).Nodup
  texts : (body.items.filter (·.target = .text)).length ≤ 1

def Rule.WellFormed (known : List String) (rule : Rule) : Prop :=
  match rule.form with
  | .leaf body => body.WellFormed known
  | .alternatives names => ∀ name ∈ names, name ∈ known

/-- What is asked of a schema: that names can be told apart and used, that whatever is named is
there, that the flags of items say what their quantifiers do, and that no node can be handed on in
a circle. -/
structure Schema.WellFormed (schema : Schema) : Prop where
  names : ∀ rule ∈ schema.rules,
    Text.Identifier rule.name ∧ Text.startsUppercase rule.name = false
  distinct : schema.names.Nodup
  rules : ∀ rule ∈ schema.rules, rule.WellFormed schema.names
  acyclic : ∀ name, ¬ Relation.TransGen schema.HandsOn name name

section

variable {known known' : List String} (sub : known ⊆ known')
include sub

theorem Item.WellFormed.mono {item : Item} (h : item.WellFormed known) : item.WellFormed known' :=
  { h with rule := fun name target => sub (h.rule name target) }

theorem Body.WellFormed.mono {body : Body} (h : body.WellFormed known) : body.WellFormed known' :=
  { h with
    delegate := fun delegates => ⟨sub (h.delegate delegates).1, (h.delegate delegates).2⟩
    items := fun item hi => (h.items item hi).mono sub }

theorem Rule.WellFormed.mono {rule : Rule} (h : rule.WellFormed known) :
    rule.WellFormed known' := by
  unfold Rule.WellFormed at h ⊢
  cases form : rule.form with
  | leaf body =>
      simp only [form] at h
      exact Body.WellFormed.mono sub h
  | alternatives names =>
      simp only [form] at h
      exact fun name hn => sub (h name hn)

end

theorem isRuleName_iff {name : String} :
    isRuleName name = true ↔ Text.Identifier name ∧ Text.startsUppercase name = false := by
  simp [isRuleName, Text.isIdentifier_iff]

theorem isTokenKind_iff {kind : String} :
    isTokenKind kind = true ↔ Text.Identifier kind ∧ kind ≠ "Self" := by
  simp [isTokenKind, Text.isIdentifier_iff]

theorem Item.conflict?_eq_none_iff {item : Item} :
    item.conflict? = none ↔
      (item.repeated = true ↔ item.quantifier = .zeroOrMore ∨ item.quantifier = .oneOrMore) ∧
        (item.repeated = false → (item.optional = true ↔ item.quantifier = .optional)) := by
  unfold conflict?
  cases item.quantifier <;> cases item.repeated <;> cases item.optional <;>
    simp [Quantifier.repeats]

theorem Item.wellFormed_iff {known : List String} {item : Item} :
    item.WellFormed known ↔
      Text.isIdentifier item.field = true ∧ item.TargetOk known ∧ item.conflict? = none := by
  have repeats : item.quantifier.repeats = false ↔
      item.quantifier = .one ∨ item.quantifier = .optional := by
    cases item.quantifier <;> decide
  rw [Text.isIdentifier_iff, conflict?_eq_none_iff]
  constructor
  · intro h
    refine ⟨h.field, ?_, h.repeated, h.optional⟩
    unfold TargetOk
    split
    · next name target => exact h.rule name target
    · next kind target => exact isTokenKind_iff.mpr (h.token kind target)
    · next target => exact repeats.mpr (h.text target)
  · intro ⟨field, target, repeated, optional⟩
    unfold TargetOk at target
    refine ⟨field, ?_, ?_, ?_, repeated, optional⟩
    · intro name hn
      simpa [hn] using target
    · intro kind hk
      simpa [hk, isTokenKind_iff] using target
    · intro ht
      exact repeats.mp (by simpa [ht] using target)

private theorem checkBody_delegate {known : List String} {rule : String} {body : Body}
    (delegates : body.delegates = true) :
    checkBody known rule body = .ok () ↔ body.WellFormed known := by
  rw [checkBody, if_pos delegates]
  constructor
  · intro h
    split at h
    · cases h
    · next known =>
      split at h
      · cases h
      · next empty =>
        have empty : body.items = [] := by simpa using empty
        refine ⟨fun _ => ⟨by simpa using known, empty⟩, ?_, ?_, ?_, ?_⟩
        · intro direct
          simp [delegates] at direct
        all_goals simp [empty]
  · intro h
    obtain ⟨known, empty⟩ := h.delegate delegates
    simp [known, empty]

private theorem checkBody_direct {known : List String} {rule : String} {body : Body}
    (direct : body.delegates = false) :
    checkBody known rule body = .ok () ↔ body.WellFormed known := by
  have texts : body.items.countP (·.capturesText) =
      (body.items.filter (·.target = .text)).length :=
    List.countP_eq_length_filter
  rw [checkBody, direct, if_neg Bool.false_ne_true]
  by_cases kind : isTokenKind body.root = true
  · simp only [kind, Bool.not_true, Bool.false_eq_true, if_false, checkItems_eq_ok_iff, texts]
    constructor
    · intro h
      obtain ⟨items, fields, single⟩ := h
      refine ⟨by simp [direct], fun _ => isTokenKind_iff.mp kind, ?_, fields, single⟩
      intro item hi
      exact Item.wellFormed_iff.mpr ⟨(items item hi).1, (items item hi).2.2⟩
    · intro h
      refine ⟨fun item hi => ?_, h.fields, h.texts⟩
      obtain ⟨field, target⟩ := Item.wellFormed_iff.mp (h.items item hi)
      exact ⟨field, List.not_mem_nil, target⟩
  · simp only [kind, Bool.not_false, if_true, reduceCtorEq, false_iff]
    intro h
    exact kind (isTokenKind_iff.mpr (h.root direct))

theorem checkRule_eq_ok_iff {known : List String} {rule : Rule} :
    checkRule known rule = .ok () ↔ rule.WellFormed known := by
  unfold checkRule Rule.WellFormed
  cases rule.form with
  | leaf body =>
      cases form : body.delegates with
      | true => exact checkBody_delegate form
      | false => exact checkBody_direct form
  | alternatives names => exact checkAlternatives_eq_ok_iff

namespace Schema

variable {schema : Schema}

/-- Nodes are only handed on to rules that are there. -/
theorem HandsOn.next_mem {name next : String} (h : schema.HandsOn name next)
    (rules : ∀ rule ∈ schema.rules, rule.WellFormed schema.names) : next ∈ schema.names := by
  cases h with
  | @alternative rule names _ hr form hn =>
      have h := rules rule hr
      simp only [Rule.WellFormed, form] at h
      exact h next hn
  | @delegate rule body hr form delegates =>
      have h := rules rule hr
      simp only [Rule.WellFormed, form] at h
      exact (h.delegate delegates).1

theorem acyclic_of_check (h : schema.check = .ok ()) (name : String) :
    ¬ Relation.TransGen schema.HandsOn name name := by
  obtain ⟨names, rules, cycles⟩ := check_eq_ok_iff.mp h
  have known : ∀ {name next}, schema.HandsOn name next → next ∈ schema.names :=
    fun hn => hn.next_mem fun rule hr => checkRule_eq_ok_iff.mp (rules rule hr)
  exact (checkCycles_eq_ok_iff (checkNames_eq_ok_iff.mp names).2 known).mp cycles name

/-- The order of declaration makes no difference to the check. -/
theorem check_of_perm {schema' : Schema} (perm : schema.rules.Perm schema'.rules)
    (h : schema.check = .ok ()) : schema'.check = .ok () := by
  obtain ⟨names, rules, _⟩ := check_eq_ok_iff.mp h
  obtain ⟨names, distinct⟩ := checkNames_eq_ok_iff.mp names
  have permNames : schema.names.Perm schema'.names := perm.map _
  have rules' : ∀ rule ∈ schema'.rules, rule.WellFormed schema'.names := by
    intro rule hr
    have h := checkRule_eq_ok_iff.mp (rules rule (perm.mem_iff.mpr hr))
    exact h.mono permNames.subset
  have distinct' : schema'.names.Nodup := permNames.nodup distinct
  apply check_eq_ok_iff.mpr
  refine ⟨checkNames_eq_ok_iff.mpr ⟨fun rule hr => ?_, distinct'⟩, fun rule hr => ?_, ?_⟩
  · exact names rule (perm.mem_iff.mpr hr)
  · exact checkRule_eq_ok_iff.mpr (rules' rule hr)
  · apply (checkCycles_eq_ok_iff distinct' fun hn => hn.next_mem rules').mpr
    intro name circle
    exact acyclic_of_check h name (circle.lift id fun _ _ hn => hn.mono perm.symm.subset)

/-- Validating a schema succeeds exactly if the schema is well formed. -/
theorem validate_iff_wellFormed (schema : Schema) :
    schema.validate.result = .ok () ↔ schema.WellFormed := by
  change schema.check = .ok () ↔ _
  rw [check_eq_ok_iff, checkNames_eq_ok_iff]
  simp only [isRuleName_iff, checkRule_eq_ok_iff, List.not_mem_nil, not_false_eq_true, and_true]
  constructor
  · intro ⟨⟨names, distinct⟩, rules, cycles⟩
    refine ⟨names, distinct, rules, ?_⟩
    exact (checkCycles_eq_ok_iff distinct fun h => h.next_mem rules).mp cycles
  · intro h
    refine ⟨⟨h.names, h.distinct⟩, h.rules, ?_⟩
    exact (checkCycles_eq_ok_iff h.distinct fun hn => hn.next_mem h.rules).mpr h.acyclic

/-- Where nothing else is wrong with a schema, a circle is told exactly if a node can be handed on
in one. What is then told begins and ends with the same rule, names no other rule twice, and goes
from each rule to one that it hands on to. -/
theorem validate_tells_circles (schema : Schema) (names : checkNames [] schema.rules = .ok ())
    (rules : checkRules schema.names schema.rules = .ok ()) :
    ((∃ path, schema.validate.result = .error (.cycle path)) ↔
      ∃ name, Relation.TransGen schema.HandsOn name name) ∧
    ∀ fault, schema.validate.result = .error fault → ∃ path, fault = .cycle path ∧
      2 ≤ path.length ∧ path.head? = path.getLast? ∧ path.dropLast.Nodup ∧
      path.IsChain schema.HandsOn := by
  have last : schema.validate.result = schema.checkCycles := by
    change schema.check = _
    rw [check, names, rules]
    rfl
  have distinct := (checkNames_eq_ok_iff.mp names).2
  have known : ∀ {name next}, schema.HandsOn name next → next ∈ schema.names := fun hn =>
    hn.next_mem fun rule hr => checkRule_eq_ok_iff.mp (checkRules_eq_ok_iff.mp rules rule hr)
  have acyclic := checkCycles_eq_ok_iff distinct known
  rw [last]
  refine ⟨⟨?_, ?_⟩, ?_⟩
  · intro h
    obtain ⟨path, told⟩ := h
    by_contra none
    have ok := acyclic.mpr fun name circle => none ⟨name, circle⟩
    rw [ok] at told
    cases told
  · intro h
    obtain ⟨name, circle⟩ := h
    cases result : schema.checkCycles with
    | ok _ => exact absurd circle (acyclic.mp result name)
    | error fault =>
        obtain ⟨path, rfl, _⟩ := isCircle_of_checkCycles result
        exact ⟨path, rfl⟩
  · intro fault told
    obtain ⟨path, rfl, circle⟩ := isCircle_of_checkCycles told
    obtain ⟨length, ends, others⟩ := circle.closed
    obtain ⟨_, _, _, _, chain⟩ := circle
    refine ⟨path, rfl, length, ends, others, ?_⟩
    exact chain.imp fun _ _ hn => (mem_successors_iff distinct).mp hn

/-- A circle through an alternative and a delegation, which begins behind the first rule. -/
def circular : Schema where
  package := []
  tokenVocab := []
  runtime := "runtime"
  rules :=
    [⟨"entry", .alternatives ["ident", "group"]⟩,
     ⟨"ident", .leaf ⟨"IDENT", []⟩⟩,
     ⟨"group", .leaf ⟨"inner", []⟩⟩,
     ⟨"inner", .alternatives ["ident", "group"]⟩]

theorem validate_tells_circles_circular :
    circular.validate.result = .error (.cycle ["group", "inner", "group"]) ∧
      (∃ name, Relation.TransGen circular.HandsOn name name) ∧
      List.IsChain circular.HandsOn ["group", "inner", "group"] := by
  have told : circular.validate.result = .error (.cycle ["group", "inner", "group"]) := by rfl
  obtain ⟨told_iff, genuine⟩ := validate_tells_circles circular (by rfl) (by rfl)
  obtain ⟨path, same, _, _, _, chain⟩ := genuine _ told
  cases same
  exact ⟨told, told_iff.mp ⟨_, told⟩, chain⟩

end Schema

end TreeShape
