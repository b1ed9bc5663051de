import TreeShape.Proofs.Naming

/-!
The names that fields have in generated code. In small letters a name is an identifier, which small
letters change no further. What is written for it is either a raw keyword or an identifier without
a meaning of its own. Two fields meet there where their small letters do, and otherwise only where
one of them is put out of the way of a word and the other one is in its place.
-/

namespace TreeShape.Code

theorem isUpper_of_isSmall {c : Char} (h : IsSmall c) : c.isUpper = false := by
  have upper : c.isUpper = decide ('A'.val ≤ c.val ∧ c.val ≤ 'Z'.val) := rfl
  rw [upper, decide_eq_false_iff_not]
  simp only [IsSmall, Text.IsDigit, Char.le_def, UInt32.le_iff_toNat_le] at h ⊢
  obtain h | h | rfl := h
  · simp at h ⊢
    omega
  · simp at h ⊢
    omega
  · decide

theorem toLower_of_isUpper_eq_false {c : Char} (h : c.isUpper = false) : c.toLower = c := by
  have upper : c.isUpper = decide ('A'.val ≤ c.val ∧ c.val ≤ 'Z'.val) := rfl
  rw [upper, decide_eq_false_iff_not] at h
  exact dif_neg h

theorem toLower_ne_underscore {c : Char} (h : c.isUpper = true) : c.toLower ≠ '_' := by
  intro same
  have letter := (toLower_of_isUpper h).1
  rw [same] at letter
  exact absurd letter (by decide)

/-- Only capitals are changed. -/
theorem snakeChars_eq_self {cs : List Char} (small : ∀ c ∈ cs, c.isUpper = false)
    (previous : Option Char) : snakeChars previous cs = cs := by
  induction cs generalizing previous with
  | nil => rfl
  | cons c rest ih =>
      obtain ⟨here, later⟩ := List.forall_mem_cons.mp small
      simp only [snakeChars, here, Bool.false_eq_true, if_false, ih later]

/-- Letters and digits are kept in order. -/
theorem filter_snakeChars (cs : List Char) (previous : Option Char) :
    (snakeChars previous cs).filter (· != '_') = (cs.filter (· != '_')).map Char.toLower := by
  induction cs generalizing previous with
  | nil => rfl
  | cons c rest ih =>
      by_cases upper : c.isUpper = true
      · have lower := toLower_ne_underscore upper
        have capital : c ≠ '_' := by
          intro h
          rw [h] at upper
          cases upper
        simp only [snakeChars, upper, if_true]
        split <;> simp [lower, capital, ih]
      · have same := toLower_of_isUpper_eq_false (eq_false_of_ne_true upper)
        by_cases underscore : c = '_'
        · simp [snakeChars, underscore, ih]
        · simp [snakeChars, upper, underscore, ih, same]

/-- The first character is at no boundary between words, so nothing is put before it. -/
theorem head?_snakeChars (c : Char) (rest : List Char) :
    (snakeChars none (c :: rest)).head? = some c.toLower := by
  by_cases upper : c.isUpper = true
  · have first : beginsWord none rest.head? = false := rfl
    simp only [snakeChars, upper, first, Bool.false_eq_true, if_true, if_false, List.head?_cons]
  · have same := toLower_of_isUpper_eq_false (eq_false_of_ne_true upper)
    simp only [snakeChars, upper, Bool.false_eq_true, if_false, List.head?_cons, same]

theorem isIdentifierStart_toLower {c : Char} (h : Text.isIdentifierStart c = true) :
    Text.isIdentifierStart c.toLower = true := by
  by_cases upper : c.isUpper = true
  · have letter : Text.IsLetter c.toLower := .inl (toLower_of_isUpper upper)
    rw [Text.isIdentifierStart, Text.isAlpha_iff.mpr letter, Bool.true_or]
  · rwa [toLower_of_isUpper_eq_false (eq_false_of_ne_true upper)]

section

variable {name : String} (valid : Text.Identifier name)
include valid

theorem identifier_snakeCase : Text.Identifier (snakeCase name) := by
  apply Text.isIdentifier_iff.mp
  have h := Text.isIdentifier_iff.mpr valid
  cases chars : name.toList with
  | nil => simp [Text.isIdentifier, chars, Text.isIdentifierChars] at h
  | cons c rest =>
      simp only [Text.isIdentifier, chars, Text.isIdentifierChars, Bool.and_eq_true] at h
      obtain ⟨more, small⟩ := List.head?_eq_some_iff.mp (head?_snakeChars c rest)
      have parts : ∀ d ∈ c.toLower :: more, Text.isIdentifierPart d = true := by
        intro d hd
        rw [← small, ← chars] at hd
        exact isIdentifierPart_iff.mpr (.inr (isSmall_snakeChars valid.isIdentifierPart none d hd))
      rw [Text.isIdentifier, snakeCase, String.toList_ofList, chars, small, Text.isIdentifierChars,
        isIdentifierStart_toLower h.1, Bool.true_and]
      exact List.all_eq_true.mpr (List.forall_mem_cons.mp parts).2

theorem snakeCase_snakeCase : snakeCase (snakeCase name) = snakeCase name := by
  have small : ∀ c ∈ (snakeCase name).toList, c.isUpper = false :=
    fun c hc => isUpper_of_isSmall (isSmall_snakeCase valid c hc)
  rw [snakeCase, snakeChars_eq_self small none, String.ofList_toList]

end

/-! ### Words that are put out of the way -/

/-- One of some words, and what it is put out of their way to. -/
def Displaces (words : List String) (ending word other : String) : Prop :=
  word ∈ words ∧ other = word ++ ending

private theorem displaced_eq_iff {words : List String} {ending : String}
    (free : ∀ word ∈ words, word ++ ending ∉ words) (word other : String) :
    (if words.contains word then word ++ ending else word) =
        (if words.contains other then other ++ ending else other) ↔
      word = other ∨ Displaces words ending word other ∨ Displaces words ending other word := by
  simp only [List.contains_iff_mem]
  constructor
  · intro h
    by_cases hw : word ∈ words
    · by_cases ho : other ∈ words
      · rw [if_pos hw, if_pos ho] at h
        exact .inl (by simpa using h)
      · rw [if_pos hw, if_neg ho] at h
        exact .inr (.inl ⟨hw, h.symm⟩)
    · by_cases ho : other ∈ words
      · rw [if_neg hw, if_pos ho] at h
        exact .inr (.inr ⟨ho, h⟩)
      · rw [if_neg hw, if_neg ho] at h
        exact .inl h
  · intro h
    obtain rfl | ⟨hw, rfl⟩ | ⟨ho, rfl⟩ := h
    · rfl
    · rw [if_pos hw, if_neg (free word hw)]
    · rw [if_pos ho, if_neg (free other ho)]

theorem localIdent_eq_localIdent_iff (name other : String) :
    localIdent name = localIdent other ↔ fieldIdent name = fieldIdent other ∨
      Displaces ownLocals "_value" (fieldIdent name) (fieldIdent other) ∨
      Displaces ownLocals "_value" (fieldIdent other) (fieldIdent name) :=
  displaced_eq_iff (List.all_iff_forall_prop.mp (by decide)) _ _

theorem unitName_eq_unitName_iff (name other : String) :
    unitName name = unitName other ↔ snakeCase name = snakeCase other ∨
      Displaces reserved "_" (snakeCase name) (snakeCase other) ∨
      Displaces reserved "_" (snakeCase other) (snakeCase name) :=
  displaced_eq_iff (List.all_iff_forall_prop.mp (by decide)) _ _

/-- A word that is put out of the way of a reserved one is written as it is. -/
theorem identifier_of_displaces {word other : String} (h : Displaces reserved "_" word other) :
    identifier word = identifier other := by
  have same : ∀ word ∈ reserved, identifier word = identifier (word ++ "_") :=
    List.all_iff_forall_prop.mp (by decide)
  obtain ⟨hw, rfl⟩ := h
  exact same word hw

section

variable {name : String} (valid : Text.Identifier name)
include valid

theorem fieldIdent_eq_fieldIdent_iff {other : String} (valid' : Text.Identifier other) :
    fieldIdent name = fieldIdent other ↔ snakeCase name = snakeCase other ∨
      Displaces reserved "_" (snakeCase name) (snakeCase other) ∨
      Displaces reserved "_" (snakeCase other) (snakeCase name) := by
  constructor
  · intro h
    exact (unitName_eq_unitName_iff name other).mp (unitName_eq_of_fieldIdent_eq valid valid' h)
  · intro h
    obtain same | displaces | displaces := h
    · rw [fieldIdent, fieldIdent, same]
    · exact identifier_of_displaces displaces
    · exact (identifier_of_displaces displaces).symm

/-- A field is written as a raw keyword or as a word without a meaning of its own. -/
theorem fieldIdent_eq_raw_or :
    (∃ word ∈ keywords, fieldIdent name = "r#" ++ word) ∨
      Text.Identifier (fieldIdent name) ∧ fieldIdent name ∉ keywords ++ reserved := by
  have displaced : ∀ word ∈ reserved,
      Text.isIdentifier (word ++ "_") = true ∧ word ++ "_" ∉ keywords ++ reserved :=
    List.all_iff_forall_prop.mp (by decide)
  by_cases keyword : snakeCase name ∈ keywords
  · refine .inl ⟨snakeCase name, keyword, ?_⟩
    rw [fieldIdent, identifier, if_pos (by simpa using keyword)]
  · have plain : fieldIdent name = unreserved (snakeCase name) := if_neg (by simpa using keyword)
    refine .inr ?_
    rw [plain]
    by_cases word : snakeCase name ∈ reserved
    · obtain ⟨usable, free⟩ := displaced _ word
      rw [unreserved, if_pos (by simpa using word)]
      exact ⟨Text.isIdentifier_iff.mp usable, free⟩
    · rw [unreserved, if_neg (by simpa using word), List.mem_append]
      exact ⟨identifier_snakeCase valid, not_or.mpr ⟨keyword, word⟩⟩

/-- In small letters the name of a field is an identifier with the same letters and digits, which
small letters change no further. The field is written as a raw keyword or as an identifier without a
meaning of its own, and its local is none that a function has for itself. Fields with the same small
letters are written alike, and others only where one of them is put out of the way of a word. -/
theorem fieldIdent_usable :
    (Text.Identifier (snakeCase name) ∧ (∀ c ∈ (snakeCase name).toList, IsSmall c) ∧
      snakeCase (snakeCase name) = snakeCase name ∧
      (snakeCase name).toList.filter (· != '_') =
        (name.toList.filter (· != '_')).map Char.toLower) ∧
    ((∃ word ∈ keywords, fieldIdent name = "r#" ++ word) ∨
      Text.Identifier (fieldIdent name) ∧ fieldIdent name ∉ keywords ++ reserved) ∧
    localIdent name ∉ ["tree", "rest"] ∧
    ∀ other, Text.Identifier other →
      (fieldIdent name = fieldIdent other ↔ snakeCase name = snakeCase other ∨
        Displaces reserved "_" (snakeCase name) (snakeCase other) ∨
        Displaces reserved "_" (snakeCase other) (snakeCase name)) ∧
      (localIdent name = localIdent other ↔ fieldIdent name = fieldIdent other ∨
        Displaces ownLocals "_value" (fieldIdent name) (fieldIdent other) ∨
        Displaces ownLocals "_value" (fieldIdent other) (fieldIdent name)) := by
  refine ⟨⟨identifier_snakeCase valid, isSmall_snakeCase valid, snakeCase_snakeCase valid, ?_⟩,
    fieldIdent_eq_raw_or valid, localIdent_not_mem_ownLocals name, ?_⟩
  · rw [snakeCase, String.toList_ofList]
    exact filter_snakeChars name.toList none
  · intro other valid'
    exact ⟨fieldIdent_eq_fieldIdent_iff valid valid', localIdent_eq_localIdent_iff name other⟩

end

theorem fieldIdent_usable_tree :
    Text.Identifier "Tree" ∧ Text.Identifier (snakeCase "Tree") ∧ localIdent "Tree" ≠ "tree" ∧
      Text.Identifier "treeValue" ∧ localIdent "Tree" = localIdent "treeValue" := by
  have valid : Text.Identifier "Tree" := Text.isIdentifier_iff.mp (by decide)
  have valid' : Text.Identifier "treeValue" := Text.isIdentifier_iff.mp (by decide)
  obtain ⟨⟨small, _⟩, _, other, meets⟩ := fieldIdent_usable valid
  have displaces : Displaces ownLocals "_value" (fieldIdent "Tree") (fieldIdent "treeValue") :=
    ⟨by decide, by decide⟩
  exact ⟨valid, small, fun same => other (same ▸ List.mem_cons_self), valid',
    (meets "treeValue" valid').2.mpr (.inr (.inl displaces))⟩

end TreeShape.Code
