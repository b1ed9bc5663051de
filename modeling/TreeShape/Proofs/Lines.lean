import Mathlib.Data.List.TakeWhile
import TreeShape.Proofs.Blocks
import TreeShape.Proofs.Mentions

/-!
The lines of a text. Where no line of a file holds a line feed, the text of the file has these lines
and no others, each behind the spaces of its depth. So what is read off the text, spaces at the
beginning of lines aside, is what is read off the lines.
-/

namespace TreeShape

namespace Text

def isLineFeed (c : Char) : Bool :=
  c == '\n'

/-- The lines of a text, which are one more than its line feeds. -/
def lines (text : String) : List String :=
  (splitAtMarks isLineFeed text.toList).map String.ofList

/-- The text without the spaces that it begins with. -/
def unindented (text : String) : String :=
  String.ofList (text.toList.dropWhile (· == ' '))

theorem lines_of_lacks {text : String} (h : Lacks '\n' text) : lines text = [text] := by
  have unmarked : ∀ c ∈ text.toList, isLineFeed c = false := by
    intro c hc
    rw [isLineFeed, beq_eq_false_iff_ne]
    rintro rfl
    exact h hc
  rw [lines, splitAtMarks_of_unmarked unmarked, List.map_singleton, String.ofList_toList]

theorem lines_append_feed (a b : String) : lines (a ++ "\n" ++ b) = lines a ++ lines b := by
  have chars : (a ++ "\n" ++ b).toList = a.toList ++ '\n' :: b.toList := by simp
  rw [lines, chars, splitAtMarks_append_mark rfl, List.map_append]
  rfl

theorem lines_join (texts : List String) :
    lines (String.join (texts.map (· ++ "\n"))) = texts.flatMap lines ++ [""] := by
  induction texts with
  | nil => rfl
  | cons first rest ih =>
      have join : String.join ((first :: rest).map (· ++ "\n")) =
          first ++ "\n" ++ String.join (rest.map (· ++ "\n")) := by
        simp
      rw [join, lines_append_feed, ih, List.flatMap_cons, List.append_assoc]

def isBlank (text : String) : Bool :=
  text.toList.all (· == ' ')

@[simp] theorem isBlank_append (a b : String) : isBlank (a ++ b) = (isBlank a && isBlank b) := by
  rw [isBlank, String.toList_append, List.all_append]
  rfl

theorem unindented_append_of_blank {a b : String} (blank : isBlank a = true) :
    unindented (a ++ b) = unindented b := by
  rw [unindented, String.toList_append, List.dropWhile_append_of_pos]
  · rfl
  · exact List.all_eq_true.mp blank

theorem dropWhile_ne_nil {a : String} (h : isBlank a = false) :
    a.toList.dropWhile (· == ' ') ≠ [] := by
  rw [Ne, List.dropWhile_eq_nil_iff]
  intro blank
  exact Bool.false_ne_true (h.symm.trans (List.all_eq_true.mpr blank))

theorem unindented_append_of_not_blank {a b : String} (h : isBlank a = false) :
    unindented (a ++ b) = unindented a ++ b := by
  have some := List.isEmpty_eq_false_iff.mpr (dropWhile_ne_nil h)
  rw [unindented, String.toList_append, List.dropWhile_append, some]
  simp [unindented]

theorem unindented_of_opensWith {text : String} (h : opensWith (· == ' ') text = false) :
    unindented text = text := by
  have kept : text.toList.dropWhile (· == ' ') = text.toList := by
    cases chars : text.toList with
    | nil => rfl
    | cons c rest =>
        apply List.dropWhile_cons_of_neg
        rw [opensWith, chars, List.head?_cons, Option.any_some] at h
        simp [h]
  rw [unindented, kept, String.ofList_toList]

theorem unindented_of_not_mem {text : String} (h : ' ' ∉ text.toList) : unindented text = text := by
  apply unindented_of_opensWith
  rw [opensWith, Option.any_eq_false]
  intro c head
  rw [beq_eq_false_iff_ne]
  rintro rfl
  exact h (List.mem_of_head? head)

/-- Whether the first character of a text that is no space is a mark. -/
def begins (isMark : Char → Bool) (text : String) : Bool :=
  opensWith isMark (unindented text)

@[simp] theorem begins_append (isMark : Char → Bool) (a b : String) :
    begins isMark (a ++ b) = (begins isMark a || (isBlank a && begins isMark b)) := by
  unfold begins
  cases h : isBlank a with
  | true =>
      have none : unindented a = "" := by
        rw [unindented, List.dropWhile_eq_nil_iff.mpr (List.all_eq_true.mp h), String.ofList_nil]
      have quiet : opensWith isMark "" = false := rfl
      rw [unindented_append_of_blank h, none, quiet, Bool.false_or, Bool.true_and]
  | false =>
      have some : (unindented a == "") = false := by
        rw [beq_eq_false_iff_ne]
        intro none
        have chars := congrArg String.toList none
        rw [unindented, String.toList_ofList] at chars
        exact dropWhile_ne_nil h chars
      rw [unindented_append_of_not_blank h, opensWith_append, some, Bool.false_and, Bool.false_and]

theorem Piecewise.append_of_blank {β : Type} {isMark : Char → Bool} {read : String → List β}
    (piecewise : Piecewise isMark read) (space : isMark ' ' = true) {a b : String}
    (blank : isBlank a = true) : read (a ++ b) = read b := by
  -- each space is a mark, and there is nothing before it
  have each : ∀ spaces : List Char, spaces.all (· == ' ') = true →
      read (String.ofList (spaces ++ b.toList)) = read b := by
    intro spaces
    induction spaces with
    | nil => simp
    | cons c rest ih =>
        intro all
        obtain ⟨first, later⟩ := Bool.and_eq_true_iff.mp all
        have none : read (String.ofList []) = [] := piecewise.empty
        have front := piecewise.append_mark space [] (rest ++ b.toList)
        rw [beq_iff_eq.mp first, List.cons_append]
        rw [List.nil_append, none, List.nil_append, ih later] at front
        exact front
  have whole := each a.toList blank
  rwa [← String.toList_append, String.ofList_toList] at whole

end Text

namespace Code

def Line.text : Line → String
  | .plain text | .opening text | .closing text => text
  | .blank => ""

@[simp] theorem text_plain (text : String) : (Line.plain text).text = text := rfl
@[simp] theorem text_opening (text : String) : (Line.opening text).text = text := rfl
@[simp] theorem text_closing (text : String) : (Line.closing text).text = text := rfl
@[simp] theorem text_blank : Line.blank.text = "" := rfl

/-- Lines that are lines of the text too. -/
def OneLined (lines : List Line) : Prop :=
  ∀ line ∈ lines, Text.Lacks '\n' line.text

instance (lines : List Line) : Decidable (OneLined lines) :=
  inferInstanceAs (Decidable (∀ line ∈ lines, _))

theorem OneLined.append {lines more : List Line} (h : OneLined lines) (h' : OneLined more) :
    OneLined (lines ++ more) :=
  List.forall_mem_append.mpr ⟨h, h'⟩

theorem oneLined_flatMap {α : Type} {f : α → List Line} {parts : List α}
    (h : ∀ part ∈ parts, OneLined (f part)) : OneLined (parts.flatMap f) :=
  List.forall_mem_flatMap.mpr h

/-- The spaces that a text is behind at a depth. -/
def indentation (depth : Nat) : String :=
  String.join (List.replicate depth "    ")

theorem isBlank_indentation (depth : Nat) : Text.isBlank (indentation depth) = true := by
  induction depth with
  | zero => rfl
  | succ depth ih =>
      have deeper : indentation (depth + 1) = "    " ++ indentation depth := by
        simp [indentation, List.replicate_succ]
      rw [deeper, Text.isBlank_append, ih]
      rfl

theorem indented_eq (depth : Nat) (text : String) :
    indented depth text = if text.isEmpty then "" else indentation depth ++ text :=
  rfl

theorem indented_zero (text : String) : indented 0 text = text := by
  rw [indented_eq]
  split
  · next empty => exact (String.isEmpty_iff.mp empty).symm
  · simp [indentation]

@[simp] theorem unindented_indented (depth : Nat) (text : String) :
    Text.unindented (indented depth text) = Text.unindented text := by
  rw [indented_eq]
  split
  · next empty => rw [String.isEmpty_iff.mp empty]
  · exact Text.unindented_append_of_blank (isBlank_indentation depth)

theorem lacks_indented {text : String} (h : Text.Lacks '\n' text) (depth : Nat) :
    Text.Lacks '\n' (indented depth text) := by
  rw [indented_eq]
  split
  · decide
  · refine Text.lacks_append.mpr ⟨fun feed => ?_, h⟩
    have blank := List.all_eq_true.mp (isBlank_indentation depth) _ feed
    exact absurd blank (by decide)

theorem lacks_of_mem_layoutFrom {lines : List Line} (h : OneLined lines) {depth : Nat} :
    ∀ text ∈ layoutFrom depth lines, Text.Lacks '\n' text := by
  induction lines generalizing depth with
  | nil => exact List.forall_mem_nil _
  | cons line rest ih =>
      obtain ⟨here, later⟩ := List.forall_mem_cons.mp h
      cases line with
      | plain text | opening text | closing text =>
          exact List.forall_mem_cons.mpr ⟨lacks_indented here _, ih later⟩
      | blank => exact List.forall_mem_cons.mpr ⟨by decide, ih later⟩

/-- The text of a file has the lines of the file, and an empty one after the last line feed. -/
theorem lines_layout {lines : List Line} (h : OneLined lines) :
    Text.lines (layout lines) = layoutFrom 0 lines ++ [""] := by
  have each : ∀ text ∈ layoutFrom 0 lines, Text.lines text = [text] :=
    fun text ht => Text.lines_of_lacks (lacks_of_mem_layoutFrom h text ht)
  rw [layout, Text.lines_join, List.flatMap_congr each]
  simp

section

variable {β : Type}

/-- What is read off a line as if it were not indented. -/
def Indifferent (read : String → β) : Prop :=
  ∀ depth text, read (indented depth text) = read text

/-- What is read off the pieces between spaces and other marks does not depend on the depth. -/
theorem indifferent_of_piecewise {isMark : Char → Bool} {read : String → List β}
    (piecewise : Text.Piecewise isMark read) (space : isMark ' ' = true) : Indifferent read := by
  intro depth text
  rw [indented_eq]
  split
  · next empty => rw [String.isEmpty_iff.mp empty]
  · exact piecewise.append_of_blank space (isBlank_indentation depth)

theorem map_layoutFrom {read : String → β} (h : Indifferent read) (depth : Nat)
    (lines : List Line) :
    (layoutFrom depth lines).map read = lines.map fun line => read line.text := by
  induction lines generalizing depth with
  | nil => rfl
  | cons line rest ih =>
      cases line with
      | plain text | opening text | closing text =>
          simp only [layoutFrom, List.map_cons, h _ text, ih, Line.text]
      | blank => simp only [layoutFrom, List.map_cons, ih, Line.text]

theorem flatMap_layoutFrom {read : String → List β} (h : Indifferent read) (depth : Nat)
    (lines : List Line) :
    (layoutFrom depth lines).flatMap read = lines.flatMap fun line => read line.text := by
  rw [List.flatMap_def, map_layoutFrom h, List.flatMap_def]

theorem flatMap_lines_layout {read : String → List β} (h : Indifferent read) (blank : read "" = [])
    {lines : List Line} (oneLined : OneLined lines) :
    (Text.lines (layout lines)).flatMap read = lines.flatMap fun line => read line.text := by
  rw [lines_layout oneLined, List.flatMap_append, flatMap_layoutFrom h]
  simp [blank]

theorem filterMap_layoutFrom {read : String → Option β} (h : Indifferent read) (depth : Nat)
    (lines : List Line) :
    (layoutFrom depth lines).filterMap read = lines.filterMap fun line => read line.text := by
  rw [List.filterMap_eq_flatMap_toList, List.filterMap_eq_flatMap_toList]
  exact flatMap_layoutFrom (fun depth text => congrArg Option.toList (h depth text)) depth lines

/-- A text is read line by line, also where the lines of the file are several. -/
theorem filterMap_lines {read : String → Option β} (blank : read "" = none) (lines : List Line) :
    (Text.lines (layout lines)).filterMap read =
      (layoutFrom 0 lines).flatMap fun text => (Text.lines text).filterMap read := by
  rw [layout, Text.lines_join, List.filterMap_append, List.filterMap_flatMap]
  simp [blank]

theorem filterMap_lines_layout {read : String → Option β} (h : Indifferent read)
    (blank : read "" = none) {lines : List Line} (oneLined : OneLined lines) :
    (Text.lines (layout lines)).filterMap read = lines.filterMap fun line => read line.text := by
  rw [lines_layout oneLined, List.filterMap_append, filterMap_layoutFrom h]
  simp [blank]

end

/-- Blocks that nest leave the depth of what follows as it was. -/
theorem layoutFrom_append {lines : List Line} (h : Nested lines) (depth : Nat) (more : List Line) :
    layoutFrom depth (lines ++ more) = layoutFrom depth lines ++ layoutFrom depth more := by
  induction h generalizing depth more with
  | nil => rfl
  | plain text after ih | blank after ih =>
      rw [List.cons_append, layoutFrom, layoutFrom, ih, List.cons_append]
  | block first last inside after inner ih =>
      simp only [List.cons_append, List.append_assoc, layoutFrom, inner, ih, Nat.add_sub_cancel]

/-- Inside a block every line that is not blank is indented. -/
theorem head?_of_mem_layoutFrom {lines : List Line} (h : Nested lines) {depth : Nat} :
    ∀ text ∈ layoutFrom (depth + 1) lines, text = "" ∨ text.toList.head? = some ' ' := by
  have inside (depth : Nat) (text : String) : indented (depth + 1) text = "" ∨
      (indented (depth + 1) text).toList.head? = some ' ' := by
    rw [indented_eq]
    split
    · exact .inl rfl
    · exact .inr (by simp [indentation, List.replicate_succ])
  induction h generalizing depth with
  | nil => exact List.forall_mem_nil _
  | plain text after ih => exact List.forall_mem_cons.mpr ⟨inside depth text, ih⟩
  | blank after ih => exact List.forall_mem_cons.mpr ⟨.inl rfl, ih⟩
  | block first last nested after inner ih =>
      rw [layoutFrom, layoutFrom_append nested, layoutFrom, Nat.add_sub_cancel]
      refine List.forall_mem_cons.mpr ⟨inside depth first, List.forall_mem_append.mpr ⟨inner, ?_⟩⟩
      exact List.forall_mem_cons.mpr ⟨inside depth last, ih⟩

end Code
end TreeShape
