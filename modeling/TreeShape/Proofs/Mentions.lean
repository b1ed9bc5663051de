import TreeShape.Proofs.Naming
import TreeShape.Text.Quoted
import TreeShape.Text.Split

/-!
The words of code: what stands between the characters that no identifier has. Where two texts
meet at such a character, the words of both together are those of each.
-/

namespace TreeShape.Text

section

variable {isMark : Char → Bool}

theorem splitAtMarks_ne_nil (isMark : Char → Bool) (text : List Char) :
    splitAtMarks isMark text ≠ [] := by
  cases text with
  | nil => simp [splitAtMarks]
  | cons c rest =>
      simp only [splitAtMarks]
      split
      · simp
      · split <;> simp

theorem splitAtMarks_append_mark {m : Char} (mark : isMark m = true) (a b : List Char) :
    splitAtMarks isMark (a ++ m :: b) = splitAtMarks isMark a ++ splitAtMarks isMark b := by
  induction a with
  | nil =>
      obtain ⟨piece, pieces, h⟩ := List.exists_cons_of_ne_nil (splitAtMarks_ne_nil isMark b)
      simp [splitAtMarks, h, mark]
  | cons c rest ih =>
      obtain ⟨piece, pieces, h⟩ := List.exists_cons_of_ne_nil (splitAtMarks_ne_nil isMark rest)
      rw [h, List.cons_append] at ih
      simp only [List.cons_append, splitAtMarks, ih, h]
      split <;> rfl

/-- The last piece of a text goes on with the first one of what follows it. -/
theorem splitAtMarks_append {a b last first : List Char} {before after : List (List Char)}
    (ha : splitAtMarks isMark a = before ++ [last]) (hb : splitAtMarks isMark b = first :: after) :
    splitAtMarks isMark (a ++ b) = before ++ (last ++ first) :: after := by
  induction a generalizing before last with
  | nil =>
      cases before with
      | nil =>
          cases ha
          exact hb
      | cons piece pieces => simp [splitAtMarks] at ha
  | cons c rest ih =>
      obtain ⟨pieces, piece, hr⟩ := (List.eq_nil_or_concat' (splitAtMarks isMark rest)).resolve_left
        (splitAtMarks_ne_nil isMark rest)
      have whole := ih hr
      -- what comes before the last piece is the same on both sides
      have ends (front : List (List Char)) {piece : List Char}
          (h : front ++ [piece] = before ++ [last]) : front = before ∧ piece = last := by
        obtain ⟨same, single⟩ := List.append_inj' h rfl
        exact ⟨same, (List.cons.inj single).1⟩
      cases pieces with
      | nil =>
          rw [List.nil_append] at hr whole
          simp only [splitAtMarks, hr, List.cons_append, whole] at ha ⊢
          split at ha
          · next mark =>
            obtain ⟨rfl, rfl⟩ := ends [[]] ha
            rw [if_pos mark]
            rfl
          · next mark =>
            obtain ⟨rfl, rfl⟩ := ends [] ha
            rw [if_neg mark]
            rfl
      | cons next pieces =>
          rw [List.cons_append] at hr whole
          simp only [splitAtMarks, hr, List.cons_append, whole] at ha ⊢
          split at ha
          · next mark =>
            obtain ⟨rfl, rfl⟩ := ends ([] :: next :: pieces) ha
            rw [if_pos mark]
            rfl
          · next mark =>
            obtain ⟨rfl, rfl⟩ := ends ((c :: next) :: pieces) ha
            rw [if_neg mark]
            rfl

theorem splitAtMarks_of_unmarked {text : List Char} (h : ∀ c ∈ text, isMark c = false) :
    splitAtMarks isMark text = [text] := by
  induction text with
  | nil => rfl
  | cons c rest ih =>
      have here := h c List.mem_cons_self
      simp [splitAtMarks, ih fun c hc => h c (List.mem_cons_of_mem _ hc), here]

theorem unmarked_of_mem_splitAtMarks {text piece : List Char}
    (h : piece ∈ splitAtMarks isMark text) : ∀ c ∈ piece, isMark c = false := by
  induction text generalizing piece with
  | nil =>
      cases List.mem_singleton.mp h
      simp
  | cons c rest ih =>
      obtain ⟨first, others, hs⟩ := List.exists_cons_of_ne_nil (splitAtMarks_ne_nil isMark rest)
      simp only [splitAtMarks, hs] at h
      rw [hs] at ih
      split at h
      · obtain rfl | h := List.mem_cons.mp h
        · simp
        · exact ih h
      · next unmarked =>
        obtain rfl | h := List.mem_cons.mp h
        · exact List.forall_mem_cons.mpr
            ⟨Bool.eq_false_iff.mpr unmarked, ih List.mem_cons_self⟩
        · exact ih (List.mem_cons_of_mem _ h)

theorem splitAtMarks_intercalate {m : Char} (mark : isMark m = true) {texts : List (List Char)}
    (some : texts ≠ []) :
    splitAtMarks isMark ([m].intercalate texts) = texts.flatMap (splitAtMarks isMark) := by
  induction texts with
  | nil => exact absurd rfl some
  | cons text rest ih =>
      cases rest with
      | nil => simp
      | cons next rest =>
          rw [List.intercalate_cons_cons, List.append_assoc, List.singleton_append,
            splitAtMarks_append_mark mark, ih (List.cons_ne_nil _ _)]
          rfl

theorem flatMap_splitAtMarks_of_unmarked {texts : List String}
    (h : ∀ text ∈ texts, text.toList.any isMark = false) :
    (texts.map String.toList).flatMap (splitAtMarks isMark) = texts.map String.toList := by
  induction texts with
  | nil => rfl
  | cons text rest ih =>
      have plain : ∀ c ∈ text.toList, isMark c = false := by
        intro c hc
        exact Bool.eq_false_iff.mpr (List.any_eq_false.mp (h text List.mem_cons_self) c hc)
      rw [List.map_cons, List.flatMap_cons, splitAtMarks_of_unmarked plain,
        ih fun text ht => h text (List.mem_cons_of_mem _ ht)]
      rfl

end

section

variable {β : Type} {isMark : Char → Bool} {a b c : String}

def opensWith (isMark : Char → Bool) (text : String) : Bool :=
  text.toList.head?.any isMark

def closesWith (isMark : Char → Bool) (text : String) : Bool :=
  text.toList.getLast?.any isMark

@[simp] theorem opensWith_append (isMark : Char → Bool) (a b : String) :
    opensWith isMark (a ++ b) = (opensWith isMark a || (a == "" && opensWith isMark b)) := by
  unfold opensWith
  rw [String.toList_append]
  cases h : a.toList with
  | nil =>
      have empty : a = "" := String.toList_inj.mp h
      simp [empty]
  | cons c rest =>
      have nonempty : (a == "") = false := by
        rw [beq_eq_false_iff_ne]
        rintro rfl
        cases h
      simp [nonempty]

/-- What is read off a text piece by piece, each of them between marks. -/
structure Piecewise (isMark : Char → Bool) (read : String → List β) : Prop where
  empty : read "" = []
  append_mark : ∀ {m : Char}, isMark m = true → ∀ a b : List Char,
    read (String.ofList (a ++ m :: b)) = read (String.ofList a) ++ read (String.ofList b)

theorem closesWith_append (h : closesWith isMark b = true) : closesWith isMark (a ++ b) = true := by
  obtain ⟨m, hm, mark⟩ := (Option.any_eq_true _ _).mp h
  have last : (a ++ b).toList.getLast? = some m := by
    rw [String.toList_append, List.getLast?_append, hm, Option.some_or]
  rw [closesWith, last]
  exact mark

namespace Piecewise

variable {read : String → List β} (piecewise : Piecewise isMark read)
include piecewise

theorem append_of_opensWith (h : opensWith isMark b = true) : read (a ++ b) = read a ++ read b := by
  obtain ⟨m, hm, mark⟩ := (Option.any_eq_true _ _).mp h
  obtain ⟨rest, hb⟩ := List.head?_eq_some_iff.mp hm
  have whole : a ++ b = String.ofList (a.toList ++ m :: rest) := by
    rw [← hb, ← String.toList_append, String.ofList_toList]
  have right : b = String.ofList ([] ++ m :: rest) := by
    rw [List.nil_append, ← hb, String.ofList_toList]
  have none : read (String.ofList []) = [] := piecewise.empty
  rw [whole, piecewise.append_mark mark, right, piecewise.append_mark mark, String.ofList_toList,
    none, List.nil_append]

theorem append_of_closesWith (h : closesWith isMark a = true) :
    read (a ++ b) = read a ++ read b := by
  obtain ⟨m, hm, mark⟩ := (Option.any_eq_true _ _).mp h
  obtain ⟨front, ha⟩ := List.getLast?_eq_some_iff.mp hm
  have whole : a ++ b = String.ofList (front ++ m :: b.toList) := by
    rw [List.append_cons, ← ha, ← String.toList_append, String.ofList_toList]
  have left : a = String.ofList (front ++ m :: []) := by
    rw [← ha, String.ofList_toList]
  have none : read (String.ofList []) = [] := piecewise.empty
  rw [whole, piecewise.append_mark mark, left, piecewise.append_mark mark, String.ofList_toList,
    none, List.append_nil]

end Piecewise

end

section

variable {c : Char}

def Lacks (c : Char) (text : String) : Prop :=
  c ∉ text.toList

instance (c : Char) (text : String) : Decidable (Lacks c text) :=
  inferInstanceAs (Decidable (c ∉ text.toList))

@[simp] theorem lacks_append {a b : String} : Lacks c (a ++ b) ↔ Lacks c a ∧ Lacks c b := by
  simp [Lacks]

@[simp] theorem lacks_of_all {text : String} (h : text.toList.all (· != c) = true) :
    Lacks c text := by
  intro hc
  simpa using List.all_eq_true.mp h c hc

theorem lacks_intercalate {between : String} (h : Lacks c between) {texts : List String}
    (each : ∀ text ∈ texts, Lacks c text) : Lacks c (between.intercalate texts) := by
  induction texts with
  | nil => simp [Lacks]
  | cons first rest ih =>
      obtain ⟨here, later⟩ := List.forall_mem_cons.mp each
      cases rest with
      | nil => simpa using here
      | cons next rest =>
          rw [String.intercalate_cons_cons, lacks_append, lacks_append]
          exact ⟨⟨here, h⟩, ih later⟩

theorem mem_of_mem_splitAtMarks {isMark : Char → Bool} {text piece : List Char}
    (h : piece ∈ splitAtMarks isMark text) : piece ⊆ text := by
  induction text generalizing piece with
  | nil =>
      cases List.mem_singleton.mp h
      exact List.Subset.refl _
  | cons d rest ih =>
      obtain ⟨first, others, hs⟩ := List.exists_cons_of_ne_nil (splitAtMarks_ne_nil isMark rest)
      simp only [splitAtMarks, hs] at h
      rw [hs] at ih
      split at h
      · obtain rfl | h := List.mem_cons.mp h
        · exact List.nil_subset _
        · exact List.subset_cons_of_subset _ (ih h)
      · obtain rfl | h := List.mem_cons.mp h
        · exact List.cons_subset_cons _ (ih List.mem_cons_self)
        · exact List.subset_cons_of_subset _ (ih (List.mem_cons_of_mem _ h))

end

def isBreak (c : Char) : Bool :=
  !isIdentifierPart c

def codeWords (text : String) : List String :=
  (splitAtMarks isBreak text.toList).map String.ofList

end TreeShape.Text

namespace TreeShape.Code

open Text (codeWords isBreak opensWith closesWith)

/-- Whether a word is of the form of a function that tests or reads. -/
def isReader (word : String) : Bool :=
  "can_parse_".toList.isPrefixOf word.toList || "parse_".toList.isPrefixOf word.toList

/-- Every word of the text that could be a function to test or read is one of the names. -/
def Said (names : List String) (text : String) : Prop :=
  ∀ word ∈ codeWords text, isReader word = true → word ∈ names

variable {names : List String} {a b c : String}

@[simp] theorem said_of_codeWords (h : (codeWords a).all (!isReader ·) = true) : Said names a := by
  intro word hw reader
  have := List.all_eq_true.mp h word hw
  simp [reader] at this

theorem said_of_identifier (h : ∀ c ∈ a.toList, Text.isIdentifierPart c = true)
    (hn : isReader a = true → a ∈ names) : Said names a := by
  have whole : codeWords a = [a] := by
    rw [codeWords, Text.splitAtMarks_of_unmarked fun c hc => by simp [isBreak, h c hc]]
    simp
  intro word hw
  rw [whole, List.mem_singleton] at hw
  exact hw ▸ hn

theorem said_iff : Said names a ↔ (codeWords a).filter isReader ⊆ names := by
  simp [Said, List.subset_def]

theorem piecewise_readers :
    Text.Piecewise isBreak fun text => (codeWords text).filter isReader where
  empty := by decide
  append_mark mark a b := by
    simp only [codeWords, String.toList_ofList, Text.splitAtMarks_append_mark mark,
      List.map_append, List.filter_append]

@[simp] theorem said_append_of_opensWith (h : opensWith isBreak b = true) :
    Said names (a ++ b) ↔ Said names a ∧ Said names b := by
  rw [said_iff, piecewise_readers.append_of_opensWith h, List.append_subset, said_iff, said_iff]

@[simp] theorem said_append_of_closesWith (h : closesWith isBreak a = true) :
    Said names (a ++ b) ↔ Said names a ∧ Said names b := by
  rw [said_iff, piecewise_readers.append_of_closesWith h, List.append_subset, said_iff, said_iff]

@[simp] theorem said_between (h : closesWith isBreak b = true) :
    Said names (a ++ b ++ c) ↔ Said names (a ++ b) ∧ Said names c :=
  said_append_of_closesWith (Text.closesWith_append h)

/-- A list of texts with something between them that is apart from each. -/
theorem said_intercalate {parts : List String} (opens : opensWith isBreak b = true)
    (closes : closesWith isBreak b = true) (quiet : Said names b)
    (h : ∀ part ∈ parts, Said names part) : Said names (b.intercalate parts) := by
  induction parts with
  | nil =>
      rw [String.intercalate_nil]
      exact said_of_codeWords (by decide)
  | cons first rest ih =>
      obtain ⟨first_said, rest_said⟩ := List.forall_mem_cons.mp h
      cases rest with
      | nil => simpa using first_said
      | cons second rest =>
          rw [String.intercalate_cons_cons, said_between closes, said_append_of_opensWith opens]
          exact ⟨⟨first_said, quiet⟩, ih rest_said⟩

end TreeShape.Code
