import Mathlib.Data.Bool.AllAny
import TreeShape.Code.Naming
import TreeShape.Proofs.WellFormed

/-!
What the identifiers of generated code are made of. Files have small names, whatever the rules are
called, so a raw identifier is never the name of a file, and names that meet as identifiers of
modules meet as names of files too.
-/

namespace TreeShape

namespace Text

theorem Identifier.isIdentifierPart {name : String} (h : Identifier name) :
    ∀ c ∈ name.toList, isIdentifierPart c = true := by
  have h := isIdentifier_iff.mpr h
  unfold isIdentifier at h
  cases chars : name.toList with
  | nil => simp [chars, isIdentifierChars] at h
  | cons first rest =>
      simp only [chars, isIdentifierChars, Bool.and_eq_true, List.all_eq_true] at h
      intro c hc
      obtain rfl | hc := List.mem_cons.mp hc
      · have start := h.1
        simp only [isIdentifierStart, Text.isIdentifierPart, Char.isAlphanum, Bool.or_eq_true] at *
        exact start.imp_left .inl
      · exact h.2 c hc

theorem Identifier.toList_ne_nil {name : String} (h : Identifier name) : name.toList ≠ [] := by
  obtain ⟨first, rest, chars, _⟩ := h
  simp [chars]

end Text

namespace Code

/-- Small letters, digits and underscores. -/
def IsSmall (c : Char) : Prop :=
  ('a' ≤ c ∧ c ≤ 'z') ∨ Text.IsDigit c ∨ c = '_'

instance : DecidablePred IsSmall :=
  fun c => inferInstanceAs (Decidable (_ ∨ ('0' ≤ c ∧ c ≤ '9') ∨ _))

theorem toLower_of_isUpper {c : Char} (h : c.isUpper = true) :
    'a' ≤ c.toLower ∧ c.toLower ≤ 'z' := by
  have upper : c.isUpper = decide (c.val ≥ 'A'.val ∧ c.val ≤ 'Z'.val) := rfl
  rw [upper, decide_eq_true_eq] at h
  have code : c.toLower.val = c.val + ('a'.val - 'A'.val) := congrArg Char.val (dif_pos h)
  simp only [Char.le_def, code]
  obtain ⟨low, high⟩ := h
  simp [UInt32.le_iff_toNat_le] at *
  omega

theorem isSmall_toLower {c : Char} (h : c.isUpper = true) : IsSmall c.toLower :=
  .inl (toLower_of_isUpper h)

/-- Capitals are the only characters of identifiers that are not small. -/
theorem isIdentifierPart_iff {c : Char} :
    Text.isIdentifierPart c = true ↔ c.isUpper = true ∨ IsSmall c := by
  have lower : c.isLower = (decide ('a' ≤ c) && decide (c ≤ 'z')) := rfl
  have digit : c.isDigit = (decide ('0' ≤ c) && decide (c ≤ '9')) := rfl
  have alpha : c.isAlpha = (c.isUpper || c.isLower) := rfl
  simp only [Text.isIdentifierPart, Char.isAlphanum, alpha, lower, digit, Bool.or_eq_true,
    Bool.and_eq_true, decide_eq_true_eq, beq_iff_eq, or_assoc]
  rfl

theorem isSmall_snakeChars {cs : List Char} (h : ∀ c ∈ cs, Text.isIdentifierPart c = true)
    (previous : Option Char) : ∀ c ∈ snakeChars previous cs, IsSmall c := by
  induction cs generalizing previous with
  | nil => simp [snakeChars]
  | cons c rest ih =>
      have part := h c List.mem_cons_self
      have later := ih (fun c hc => h c (List.mem_cons_of_mem _ hc)) (some c)
      simp only [snakeChars]
      split
      · next upper =>
        have small := isSmall_toLower upper
        split
        · exact List.forall_mem_cons.mpr
            ⟨by decide, List.forall_mem_cons.mpr ⟨small, later⟩⟩
        · exact List.forall_mem_cons.mpr ⟨small, later⟩
      · next upper =>
        have small := (isIdentifierPart_iff.mp part).resolve_left upper
        exact List.forall_mem_cons.mpr ⟨small, later⟩

theorem snakeChars_ne_nil {cs : List Char} (h : cs ≠ []) (previous : Option Char) :
    snakeChars previous cs ≠ [] := by
  cases cs with
  | nil => contradiction
  | cons c rest =>
      simp only [snakeChars]
      split
      · split <;> simp
      · simp

theorem toList_unreserved (name : String) :
    (unreserved name).toList = name.toList ∨ (unreserved name).toList = name.toList ++ ['_'] := by
  unfold unreserved
  split
  · exact .inr String.toList_append
  · exact .inl rfl

section

variable {name : String} (valid : Text.Identifier name)
include valid

theorem isSmall_snakeCase : ∀ c ∈ (snakeCase name).toList, IsSmall c := by
  rw [snakeCase, String.toList_ofList]
  exact isSmall_snakeChars valid.isIdentifierPart none

theorem isSmall_unitName : ∀ c ∈ (unitName name).toList, IsSmall c := by
  intro c hc
  obtain h | h := toList_unreserved (snakeCase name)
  · exact isSmall_snakeCase valid c (h ▸ hc)
  · rw [unitName, h, List.mem_append, List.mem_singleton] at hc
    obtain hc | rfl := hc
    · exact isSmall_snakeCase valid c hc
    · decide

theorem unitName_ne_empty : unitName name ≠ "" := by
  have h := snakeChars_ne_nil valid.toList_ne_nil none
  intro he
  have empty : (unitName name).toList = [] := by rw [he]; rfl
  obtain same | longer := toList_unreserved (snakeCase name)
  · rw [unitName, same, snakeCase, String.toList_ofList] at empty
    exact h empty
  · rw [unitName, longer] at empty
    simp at empty

theorem raw_ne_unitName (text : String) : "r#" ++ text ≠ unitName name := by
  intro h
  have hash : '#' ∈ (unitName name).toList := by
    rw [← h, String.toList_append]
    exact List.mem_append_left _ (by decide)
  exact absurd (isSmall_unitName valid '#' hash) (by decide)

end

/-- Raw identifiers aside, modules are called as their files. -/
theorem fieldIdent_eq_or (name : String) :
    fieldIdent name = unitName name ∨
      snakeCase name ∈ keywords ∧ fieldIdent name = "r#" ++ snakeCase name := by
  unfold fieldIdent identifier unitName
  split
  · next h => exact .inr ⟨by simpa using h, rfl⟩
  · exact .inl rfl

theorem unitName_eq_of_fieldIdent_eq {name other : String} (valid : Text.Identifier name)
    (valid' : Text.Identifier other) (h : fieldIdent name = fieldIdent other) :
    unitName name = unitName other := by
  obtain he | ⟨-, he⟩ := fieldIdent_eq_or name <;>
    obtain he' | ⟨-, he'⟩ := fieldIdent_eq_or other <;> rw [he, he'] at h
  · exact h
  · exact absurd h.symm (raw_ne_unitName valid _)
  · exact absurd h (raw_ne_unitName valid' _)
  · have : snakeCase name = snakeCase other := by simpa using h
    rw [unitName, unitName, this]

theorem localIdent_eq_or (field : String) :
    localIdent field ∈ ["tree_value", "rest_value"] ∨ localIdent field = fieldIdent field := by
  unfold localIdent
  split
  · next h =>
    obtain h | h : fieldIdent field = "tree" ∨ fieldIdent field = "rest" := by
      simpa [ownLocals] using h
    all_goals rw [h]; exact .inl (by decide)
  · exact .inr rfl

/-- Variables that hold fields are none of those that a function has for itself. -/
theorem localIdent_not_mem_ownLocals (field : String) : localIdent field ∉ ownLocals := by
  unfold localIdent
  split
  · next h =>
    obtain h | h : fieldIdent field = "tree" ∨ fieldIdent field = "rest" := by
      simpa [ownLocals] using h
    all_goals rw [h]; decide
  · next h => simpa using h

theorem isLower_of_isUpper {c : Char} (h : c.isUpper = true) : c.isLower = false := by
  have upper : c.isUpper = decide ('A'.val ≤ c.val ∧ c.val ≤ 'Z'.val) := rfl
  have lower : c.isLower = (decide ('a'.val ≤ c.val) && decide (c.val ≤ 'z'.val)) := rfl
  rw [upper, decide_eq_true_eq] at h
  rw [lower, ← Bool.decide_and, decide_eq_false_iff_not]
  simp [UInt32.le_iff_toNat_le] at h ⊢
  omega

/-- A small letter gets its capital, and nothing else changes. -/
theorem toUpper_eq_or (c : Char) :
    c.toUpper.isUpper = true ∨ c.toUpper = c ∧ c.isLower = false := by
  have lower : c.isLower = (decide ('a'.val ≤ c.val) && decide (c.val ≤ 'z'.val)) := rfl
  rw [lower, ← Bool.decide_and, decide_eq_false_iff_not]
  by_cases h : 'a'.val ≤ c.val ∧ c.val ≤ 'z'.val
  · have code : c.toUpper.val = c.val + ('A'.val - 'a'.val) := by
      have capital : c.toUpper = ⟨c.val + ('A'.val - 'a'.val), _⟩ := dif_pos h
      rw [capital]
    have upper : c.toUpper.isUpper = decide ('A'.val ≤ c.toUpper.val ∧ c.toUpper.val ≤ 'Z'.val) :=
      rfl
    refine .inl ?_
    rw [upper, code, decide_eq_true_eq]
    simp [UInt32.le_iff_toNat_le] at h ⊢
    omega
  · exact .inr ⟨dif_neg h, h⟩

theorem isIdentifierPart_camelChars {cs : List Char}
    (h : ∀ c ∈ cs, Text.isIdentifierPart c = true) (capital : Bool) :
    ∀ c ∈ camelChars capital cs, Text.isIdentifierPart c = true := by
  induction cs generalizing capital with
  | nil => simp [camelChars]
  | cons c rest ih =>
      obtain ⟨here, later⟩ := List.forall_mem_cons.mp h
      simp only [camelChars]
      split
      · exact ih later true
      · refine List.forall_mem_cons.mpr ⟨?_, ih later false⟩
        split
        · obtain upper | ⟨same, _⟩ := toUpper_eq_or c
          · exact isIdentifierPart_iff.mpr (.inl upper)
          · rwa [same]
        · exact here

/-- No type starts with a small letter. -/
theorem isLower_of_head?_camelChars {cs : List Char} {c : Char}
    (h : (camelChars true cs).head? = some c) : c.isLower = false := by
  induction cs with
  | nil => cases h
  | cons first rest ih =>
      simp only [camelChars] at h
      split at h
      · exact ih h
      · have head : first.toUpper = c := by simpa using h
        rw [← head]
        obtain upper | ⟨same, lower⟩ := toUpper_eq_or first
        · exact isLower_of_isUpper upper
        · rwa [same]

/-- Identifiers hold what names do, and a hash where they are raw. -/
theorem not_mem_identifier {name : String} (h : ∀ c ∈ name.toList, Text.isIdentifierPart c = true)
    {c : Char} (part : Text.isIdentifierPart c = false) (hash : c ≠ '#') :
    c ∉ (identifier name).toList := by
  have outside : c ∉ name.toList := fun hc => by simp [h c hc] at part
  have other {d : Char} (hd : Text.isIdentifierPart d = true) : c ≠ d := by
    rintro rfl
    simp [hd] at part
  unfold identifier
  split
  · rw [String.toList_append, List.mem_append]
    intro hc
    obtain hc | hc := hc
    · obtain rfl | rfl : c = 'r' ∨ c = '#' := by simpa using hc
      · exact other (by decide) rfl
      · exact hash rfl
    · exact outside hc
  · obtain same | longer := toList_unreserved name
    · rwa [same]
    · rw [longer, List.mem_append, List.mem_singleton]
      exact fun hc => hc.elim outside (other (by decide))

theorem not_mem_typeIdent {name : String} (valid : Text.Identifier name) {c : Char}
    (part : Text.isIdentifierPart c = false) (hash : c ≠ '#') : c ∉ (typeIdent name).toList := by
  apply not_mem_identifier _ part hash
  rw [upperCamelCase, String.toList_ofList]
  exact isIdentifierPart_camelChars valid.isIdentifierPart true

theorem not_mem_fieldIdent {name : String} (valid : Text.Identifier name) {c : Char}
    (part : Text.isIdentifierPart c = false) (hash : c ≠ '#') : c ∉ (fieldIdent name).toList := by
  apply not_mem_identifier _ part hash
  intro d hd
  exact isIdentifierPart_iff.mpr (.inr (isSmall_snakeCase valid d hd))

end Code
end TreeShape
