import Mathlib.Data.List.TakeWhile
import TreeShape.Proofs.Naming

/-!
Which names of rules make names of types. A type is called by the words of a rule without their
underscores, so that it starts with the first character that is none: a capital where that is a
letter. Where it is a digit, or there is none, nothing can be called so.
-/

namespace TreeShape

/-- A name that a rule may have. -/
def Accepted (name : String) : Prop :=
  ∃ schema : Schema, schema.validate.result = .ok () ∧ name ∈ schema.names

/-- One rule, for nodes of a kind without fields. -/
def loneRule (name : String) : Schema :=
  ⟨["demo"], ["tokens"], "runtime", [⟨name, .leaf ⟨"KIND", []⟩⟩]⟩

theorem check_loneRule {name : String} (good : isRuleName name = true) :
    (loneRule name).check = .ok () := by
  have still {a b : String} : ¬ (loneRule name).HandsOn a b := by
    rw [Schema.handsOn_iff]
    rintro ⟨rule, hr, _, hs⟩
    cases List.mem_singleton.mp hr
    have none : Rule.successors ⟨name, .leaf ⟨"KIND", []⟩⟩ = [] := rfl
    simp [none] at hs
  have distinct : (loneRule name).names.Nodup := List.nodup_singleton name
  refine Schema.check_eq_ok_iff.mpr ⟨checkNames_eq_ok_iff.mpr ⟨?_, distinct⟩, ?_, ?_⟩
  · exact List.forall_mem_singleton.mpr ⟨good, List.not_mem_nil⟩
  · exact List.forall_mem_singleton.mpr rfl
  · refine (Schema.checkCycles_eq_ok_iff distinct fun h => absurd h still).mpr fun _ circle => ?_
    obtain ⟨_, h, _⟩ := Relation.TransGen.head'_iff.mp circle
    exact still h

theorem accepted_iff {name : String} :
    Accepted name ↔ Text.Identifier name ∧ Text.startsUppercase name = false := by
  rw [← isRuleName_iff]
  constructor
  · intro ⟨schema, valid, hn⟩
    have valid : schema.check = .ok () := valid
    obtain ⟨rule, hr, rfl⟩ := List.mem_map.mp hn
    exact ((checkNames_eq_ok_iff.mp (Schema.check_eq_ok_iff.mp valid).1).1 rule hr).1
  · intro good
    exact ⟨loneRule name, check_loneRule good, List.mem_cons_self⟩

namespace Text

theorem IsDigit.not_isLetter {c : Char} (h : IsDigit c) : ¬ IsLetter c := by
  simp only [IsDigit, IsLetter, Char.le_def, UInt32.le_iff_toNat_le] at *
  simp at *
  omega

end Text

namespace Code

/-- A word that a type can be called. -/
def IsTypeName (word : String) : Prop :=
  Text.Identifier word ∧ word ∉ keywords ∧ word ∉ reserved

/-- What follows the underscores that a name starts with. -/
def afterUnderscores (name : String) : List Char :=
  name.toList.dropWhile (· == '_')

theorem camelChars_dropWhile (cs : List Char) :
    camelChars true (cs.dropWhile (· == '_')) = camelChars true cs := by
  induction cs with
  | nil => rfl
  | cons c rest ih =>
      rw [List.dropWhile_cons]
      split
      · next underscore => simp [camelChars, ih, eq_of_beq underscore]
      · rfl

theorem ne_of_head?_afterUnderscores {name : String} {first : Char}
    (h : (afterUnderscores name).head? = some first) : first ≠ '_' := by
  have head := List.head?_dropWhile_not (· == '_') name.toList
  rw [← afterUnderscores, h] at head
  simpa using head

theorem camelChars_of_afterUnderscores {name : String} {first : Char} {rest : List Char}
    (h : afterUnderscores name = first :: rest) :
    camelChars true name.toList = first.toUpper :: camelChars false rest := by
  have other : first ≠ '_' := ne_of_head?_afterUnderscores (by rw [h]; rfl)
  rw [← camelChars_dropWhile, ← afterUnderscores, h]
  simp [camelChars, other]

theorem toUpper_of_isLower_eq_false {c : Char} (h : c.isLower = false) : c.toUpper = c := by
  have lower : c.isLower = (decide ('a'.val ≤ c.val) && decide (c.val ≤ 'z'.val)) := rfl
  rw [lower, ← Bool.decide_and, decide_eq_false_iff_not] at h
  exact dif_neg h

theorem underscore_not_mem_camelChars (capital : Bool) (cs : List Char) :
    '_' ∉ camelChars capital cs := by
  induction cs generalizing capital with
  | nil => simp [camelChars]
  | cons c rest ih =>
      simp only [camelChars]
      split
      · exact ih true
      · next other =>
        refine List.not_mem_cons_of_ne_of_not_mem (Ne.symm ?_) (ih false)
        split
        · obtain upper | ⟨same, _⟩ := toUpper_eq_or c
          · intro h
            rw [h] at upper
            cases upper
          · rwa [same]
        · exact other

theorem startsLower_ne_upperCamelCase {name word : String}
    (lower : word.toList.head?.any Char.isLower = true) : upperCamelCase name ≠ word := by
  rintro rfl
  obtain ⟨c, head, lower⟩ := (Option.any_eq_true _ _).mp lower
  rw [upperCamelCase, String.toList_ofList] at head
  simp [isLower_of_head?_camelChars head] at lower

/-- The only word that is kept apart from a type is `Self`. -/
theorem typeIdent_eq_or (name : String) :
    typeIdent name = upperCamelCase name ∧ upperCamelCase name ∉ keywords ++ reserved ∨
      upperCamelCase name = "Self" ∧ typeIdent name = "Self_" := by
  have keywords_lower : ∀ word ∈ keywords, word.toList.head?.any Char.isLower = true :=
    List.all_iff_forall_prop.mp (by decide)
  have free : upperCamelCase name ∉ keywords :=
    fun h => startsLower_ne_upperCamelCase (keywords_lower _ h) rfl
  unfold typeIdent identifier unreserved
  rw [if_neg (by simpa using free)]
  split
  · next h =>
    have word : upperCamelCase name ∈ reserved := by simpa using h
    simp only [reserved, List.mem_cons, List.not_mem_nil, or_false] at word
    obtain h | h | h | h | h := word
    · exact absurd h (startsLower_ne_upperCamelCase (by decide))
    · exact absurd h (startsLower_ne_upperCamelCase (by decide))
    · exact .inr ⟨h, by rw [h]; rfl⟩
    · exact absurd h (startsLower_ne_upperCamelCase (by decide))
    · have mem : '_' ∈ (upperCamelCase name).toList := by simp [h]
      rw [upperCamelCase, String.toList_ofList] at mem
      exact absurd mem (underscore_not_mem_camelChars _ _)
  · next h =>
    refine .inl ⟨rfl, ?_⟩
    rw [List.mem_append]
    exact not_or.mpr ⟨free, by simpa using h⟩

theorem typeIdent_not_mem (name : String) : typeIdent name ∉ keywords ++ reserved := by
  obtain ⟨same, free⟩ | ⟨_, same⟩ := typeIdent_eq_or name
  · rwa [same]
  · rw [same]
    decide

theorem head?_typeIdent (name : String) :
    (typeIdent name).toList.head? = (afterUnderscores name).head?.map Char.toUpper := by
  have camel : (upperCamelCase name).toList.head? =
      (afterUnderscores name).head?.map Char.toUpper := by
    rw [upperCamelCase, String.toList_ofList]
    cases h : afterUnderscores name with
    | nil =>
        rw [← camelChars_dropWhile, ← afterUnderscores, h]
        rfl
    | cons first rest =>
        rw [camelChars_of_afterUnderscores h]
        rfl
  obtain ⟨same, _⟩ | ⟨word, same⟩ := typeIdent_eq_or name
  · rw [same, camel]
  · rw [same, ← camel, word]
    rfl

theorem exists_head?_of_head?_typeIdent {name : String} {capital : Char}
    (h : (typeIdent name).toList.head? = some capital) :
    ∃ first, (afterUnderscores name).head? = some first ∧ first.toUpper = capital :=
  Option.map_eq_some_iff.mp (head?_typeIdent name ▸ h)

theorem isLower_of_head?_typeIdent {name : String} {c : Char}
    (h : (typeIdent name).toList.head? = some c) : c.isLower = false := by
  obtain ⟨first, _, rfl⟩ := exists_head?_of_head?_typeIdent h
  obtain upper | ⟨same, lower⟩ := toUpper_eq_or first
  · exact isLower_of_isUpper upper
  · rwa [same]

theorem isLetter_toUpper {c : Char} (h : Text.IsLetter c) : Text.IsLetter c.toUpper := by
  obtain upper | ⟨same, _⟩ := toUpper_eq_or c
  · exact .inr (of_decide_eq_true upper)
  · rwa [same]

theorem toUpper_of_isDigit {c : Char} (h : Text.IsDigit c) : c.toUpper = c := by
  apply toUpper_of_isLower_eq_false
  by_contra lower
  have alpha : c.isAlpha = (c.isUpper || c.isLower) := rfl
  exact h.not_isLetter (Text.isAlpha_iff.mp (by simp [alpha, eq_true_of_ne_false lower]))

section

variable {name : String} (valid : Text.Identifier name)
include valid

theorem isIdentifierPart_typeIdent :
    ∀ c ∈ (typeIdent name).toList, Text.isIdentifierPart c = true := by
  obtain ⟨same, _⟩ | ⟨_, same⟩ := typeIdent_eq_or name
  · rw [same, upperCamelCase, String.toList_ofList]
    exact isIdentifierPart_camelChars valid.isIdentifierPart true
  · rw [same]
    exact List.all_iff_forall_prop.mp (by decide)

theorem isLetter_or_isDigit {first : Char} (h : (afterUnderscores name).head? = some first) :
    Text.IsLetter first ∨ Text.IsDigit first := by
  have mem : first ∈ name.toList :=
    (List.dropWhile_sublist (· == '_')).subset (List.mem_of_mem_head? h)
  have part := valid.isIdentifierPart first mem
  simp only [Text.isIdentifierPart, Char.isAlphanum, Bool.or_eq_true, Text.isAlpha_iff,
    Text.isDigit_iff, beq_iff_eq] at part
  exact part.resolve_right (ne_of_head?_afterUnderscores h)

/-- Where a letter comes first, the type is called properly. -/
theorem isTypeName_of_isLetter {first : Char} (h : (afterUnderscores name).head? = some first)
    (letter : Text.IsLetter first) : IsTypeName (typeIdent name) := by
  refine ⟨Text.isIdentifier_iff.mp ?_, ?_⟩
  · have head := head?_typeIdent name
    rw [h, Option.map_some] at head
    obtain ⟨rest, chars⟩ := List.head?_eq_some_iff.mp head
    have parts := isIdentifierPart_typeIdent valid
    rw [chars, List.forall_mem_cons] at parts
    rw [Text.isIdentifier, chars, Text.isIdentifierChars, Text.isIdentifierStart,
      Text.isAlpha_iff.mpr (isLetter_toUpper letter), Bool.true_or, Bool.true_and]
    exact List.all_eq_true.mpr parts.2
  · simpa using typeIdent_not_mem name

end

theorem typeIdent_eq_empty_iff (name : String) :
    typeIdent name = "" ↔ ∀ c ∈ name.toList, c = '_' := by
  rw [← String.toList_eq_nil_iff, ← List.head?_eq_none_iff, head?_typeIdent,
    Option.map_eq_none_iff, List.head?_eq_none_iff, afterUnderscores, List.dropWhile_eq_nil_iff]
  simp

/-- The type of a rule can be called so exactly if its name has a letter before any digit. If not,
it starts with that digit, or all of the name is underscores and none of it is left. -/
theorem isTypeName_typeIdent_iff (name : String) :
    (Accepted name ↔ Text.Identifier name ∧ Text.startsUppercase name = false) ∧
    (Accepted name →
      (IsTypeName (typeIdent name) ↔
        ∃ first, (afterUnderscores name).head? = some first ∧ Text.IsLetter first) ∧
      typeIdent name ∉ keywords ++ reserved ∧
      (∀ c ∈ (typeIdent name).toList, Text.isIdentifierPart c = true) ∧
      (typeIdent name = "" ↔ ∀ c ∈ name.toList, c = '_') ∧
      (¬ IsTypeName (typeIdent name) → typeIdent name ≠ "" →
        ∃ digit, (typeIdent name).toList.head? = some digit ∧ Text.IsDigit digit)) := by
  refine ⟨accepted_iff, fun accepted => ?_⟩
  have valid := (accepted_iff.mp accepted).1
  refine ⟨⟨fun usable => ?_, ?_⟩, typeIdent_not_mem name, isIdentifierPart_typeIdent valid,
    typeIdent_eq_empty_iff name, fun unusable some => ?_⟩
  · obtain ⟨⟨capital, rest, chars, start, _⟩, _⟩ := usable
    obtain ⟨first, head, rfl⟩ := exists_head?_of_head?_typeIdent (by rw [chars, List.head?_cons])
    refine ⟨first, head, (isLetter_or_isDigit valid head).resolve_right fun digit => ?_⟩
    rw [toUpper_of_isDigit digit] at start
    exact start.elim digit.not_isLetter (ne_of_head?_afterUnderscores head)
  · intro ⟨first, head, letter⟩
    exact isTypeName_of_isLetter valid head letter
  · have begun : (typeIdent name).toList ≠ [] := by simpa using some
    obtain ⟨capital, _, chars⟩ := List.exists_cons_of_ne_nil begun
    obtain ⟨first, head, rfl⟩ := exists_head?_of_head?_typeIdent (by rw [chars, List.head?_cons])
    have digit := (isLetter_or_isDigit valid head).resolve_left fun letter =>
      unusable (isTypeName_of_isLetter valid head letter)
    rw [chars, List.head?_cons, toUpper_of_isDigit digit]
    exact ⟨first, rfl, digit⟩

theorem isTypeName_typeIdent_self :
    Accepted "__self" ∧ typeIdent "__self" = "Self_" ∧ IsTypeName (typeIdent "__self") := by
  have accepted : Accepted "__self" := ⟨loneRule "__self", rfl, List.mem_cons_self⟩
  have h := (isTypeName_typeIdent_iff "__self").2 accepted
  exact ⟨accepted, by decide, h.1.mpr ⟨'s', by decide, .inl (by decide)⟩⟩

/-- Rules may be called by underscores alone, or by an underscore before a digit, but no type can be
called by what that leaves. -/
theorem typeIdent_underscore :
    Accepted "_1A" ∧ typeIdent "_1A" = "1A" ∧ ¬ IsTypeName (typeIdent "_1A") ∧
      Accepted "_" ∧ typeIdent "_" = "" ∧ ¬ IsTypeName (typeIdent "_") := by
  have digit : typeIdent "_1A" = "1A" := by decide
  have empty : typeIdent "_" = "" := by decide
  refine ⟨⟨loneRule "_1A", rfl, List.mem_cons_self⟩, digit, ?_,
    ⟨loneRule "_", rfl, List.mem_cons_self⟩, empty, ?_⟩
  · intro ⟨valid, _⟩
    rw [digit, ← Text.isIdentifier_iff] at valid
    cases valid
  · intro ⟨valid, _⟩
    rw [empty, ← Text.isIdentifier_iff] at valid
    cases valid

/-- The name is the word, but for the case of its first letter and for underscores around it. -/
def SpelledAs (word name : String) : Prop :=
  ∃ before first rest after, first.toUpper :: rest = word.toList ∧
    name.toList = List.replicate before '_' ++ first :: rest ++ List.replicate after '_'

theorem camelChars_replicate_append (n : Nat) (cs : List Char) :
    camelChars true (List.replicate n '_' ++ cs) = camelChars true cs := by
  induction n with
  | zero => rfl
  | succ n ih => exact ih

theorem camelChars_eq_nil_iff {capital : Bool} {cs : List Char} :
    camelChars capital cs = [] ↔ ∀ c ∈ cs, c = '_' := by
  induction cs generalizing capital with
  | nil => simp [camelChars]
  | cons c rest ih =>
      simp only [camelChars, List.forall_mem_cons]
      split
      · next underscore => simp [underscore, ih]
      · next other => simp [other]

/-- Only underscores at its end are lost of a word without capitals. -/
theorem camelChars_false_eq_iff {cs word : List Char} (lower : ∀ c ∈ word, c.isLower = true) :
    camelChars false cs = word ↔ ∃ after, cs = word ++ List.replicate after '_' := by
  induction cs generalizing word with
  | nil =>
      constructor
      · rintro rfl
        exact ⟨0, rfl⟩
      · rintro ⟨after, h⟩
        exact (List.append_eq_nil_iff.mp h.symm).1.symm
  | cons c rest ih =>
      simp only [camelChars]
      split
      · next underscore =>
        -- what follows starts with no small letter, so that all of the word is before it
        cases word with
        | nil =>
            rw [camelChars_eq_nil_iff, underscore]
            constructor
            · intro all
              refine ⟨rest.length + 1, ?_⟩
              exact congrArg ('_' :: ·) (List.eq_replicate_of_mem all)
            · rintro ⟨after, h⟩ c hc
              exact List.eq_of_mem_replicate (h ▸ List.mem_cons_of_mem _ hc)
        | cons d word =>
            have small := lower d List.mem_cons_self
            constructor
            · intro h
              have head : (camelChars true rest).head? = some d := by rw [h, List.head?_cons]
              simp [isLower_of_head?_camelChars head] at small
            · rintro ⟨after, h⟩
              cases (List.cons.inj h).1.symm.trans underscore
              cases small
      · next other =>
        cases word with
        | nil =>
            constructor
            · intro h
              cases h
            · rintro ⟨after, h⟩
              exact absurd (List.eq_of_mem_replicate (h ▸ List.mem_cons_self)) other
        | cons d word =>
            simp only [Bool.false_eq_true, if_false, List.cons_append, List.cons.injEq,
              ih (List.forall_mem_cons.mp lower).2, exists_and_left]

theorem upperCamelCase_eq_iff {name word : String} {capital : Char} {small : List Char}
    (chars : word.toList = capital :: small) (upper : capital ≠ '_')
    (lower : ∀ c ∈ small, c.isLower = true) :
    upperCamelCase name = word ↔ SpelledAs word name := by
  rw [← String.toList_inj, upperCamelCase, String.toList_ofList]
  constructor
  · intro h
    cases leading : afterUnderscores name with
    | nil =>
        rw [← camelChars_dropWhile, ← afterUnderscores, leading, chars] at h
        cases h
    | cons first more =>
        rw [camelChars_of_afterUnderscores leading, chars, List.cons.injEq,
          camelChars_false_eq_iff lower] at h
        obtain ⟨same, after, rfl⟩ := h
        have underscores : ∀ c ∈ name.toList.takeWhile (· == '_'), c = '_' := by
          intro c hc
          simpa using List.mem_takeWhile_imp hc
        refine ⟨(name.toList.takeWhile (· == '_')).length, first, small, after, ?_, ?_⟩
        · rw [same, chars]
        · rw [List.append_assoc, List.cons_append, ← List.eq_replicate_of_mem underscores,
            ← leading, afterUnderscores, List.takeWhile_append_dropWhile]
  · rintro ⟨before, first, rest, after, same, spelled⟩
    rw [chars, List.cons.injEq] at same
    obtain ⟨rfl, rfl⟩ := same
    have other : first ≠ '_' := by
      rintro rfl
      exact upper rfl
    rw [spelled, List.append_assoc, camelChars_replicate_append, chars, List.cons_append]
    simp only [camelChars, other, if_false, if_true, List.cons.injEq, true_and]
    exact (camelChars_false_eq_iff lower).mpr ⟨after, rfl⟩

end Code
end TreeShape
