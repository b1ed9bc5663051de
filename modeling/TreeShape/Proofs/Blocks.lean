import TreeShape.Code.Line

/-!
Lines and the blocks they open and close. A file is written line by line onto a sheet that keeps the
depth, where a block that is closed without being open goes unnoticed. Lines whose blocks nest are
those to which this never happens, wherever they are written, and which leave the depth as it was.
-/

namespace TreeShape.Code

/-- A text under way, with the depth at which its next line is written. -/
structure Sheet where
  text : String
  depth : Nat

namespace Sheet

def empty : Sheet := ⟨"", 0⟩

/-- Adds a line. Where no block is open, closing one leaves the depth at zero. -/
def write (sheet : Sheet) : Line → Sheet
  | .plain text => ⟨sheet.text ++ (indented sheet.depth text ++ "\n"), sheet.depth⟩
  | .blank => ⟨sheet.text ++ "\n", sheet.depth⟩
  | .opening text => ⟨sheet.text ++ (indented sheet.depth text ++ "\n"), sheet.depth + 1⟩
  | .closing text => ⟨sheet.text ++ (indented (sheet.depth - 1) text ++ "\n"), sheet.depth - 1⟩

def writeAll (sheet : Sheet) (lines : List Line) : Sheet :=
  lines.foldl write sheet

/-- Wherever one of the lines closes a block, some block is open. -/
def ClosesOpen (sheet : Sheet) (lines : List Line) : Prop :=
  ∀ before text after, lines = before ++ .closing text :: after →
    0 < (sheet.writeAll before).depth

/-- Lines that close what is open and end at the depth they began at. -/
structure Steady (sheet : Sheet) (lines : List Line) : Prop where
  closes : sheet.ClosesOpen lines
  returns : (sheet.writeAll lines).depth = sheet.depth

variable (sheet : Sheet)

theorem writeAll_cons (line : Line) (rest : List Line) :
    sheet.writeAll (line :: rest) = (sheet.write line).writeAll rest :=
  rfl

theorem text_writeAll (lines : List Line) :
    (sheet.writeAll lines).text =
      sheet.text ++ String.join ((layoutFrom sheet.depth lines).map (· ++ "\n")) := by
  induction lines generalizing sheet with
  | nil => simp [writeAll, layoutFrom]
  | cons line rest ih =>
      rw [writeAll_cons, ih]
      cases line <;> simp [write, layoutFrom, String.append_assoc]

/-- A file is what its lines leave on an empty sheet. -/
theorem layout_eq_text_writeAll (lines : List Line) :
    layout lines = (empty.writeAll lines).text := by
  rw [text_writeAll]
  simp [layout, empty]

theorem closesOpen_cons_iff (line : Line) (rest : List Line) :
    sheet.ClosesOpen (line :: rest) ↔
      (∀ text, line = .closing text → 0 < sheet.depth) ∧ (sheet.write line).ClosesOpen rest := by
  constructor
  · intro h
    refine ⟨fun text same => h [] text rest (by rw [same]; rfl), fun before text after split => ?_⟩
    exact h (line :: before) text after (by rw [split]; rfl)
  · rintro ⟨here, later⟩ before text after split
    cases before with
    | nil => exact here text (List.cons.inj split).1
    | cons first before =>
        obtain ⟨same, split⟩ := List.cons.inj split
        rw [Sheet.writeAll_cons, ← same]
        exact later before text after split

end Sheet

/-- Lines whose blocks nest: between the lines that open and close one, whole blocks are opened and
closed. -/
inductive Nested : List Line → Prop
  | nil : Nested []
  | plain (text : String) {rest : List Line} (after : Nested rest) : Nested (.plain text :: rest)
  | blank {rest : List Line} (after : Nested rest) : Nested (.blank :: rest)
  | block (first last : String) {inner rest : List Line} (inside : Nested inner)
      (after : Nested rest) : Nested (.opening first :: (inner ++ .closing last :: rest))

/-- The depth after some lines, unless they close a block that is not open. -/
@[simp] def depthAfter? : Nat → List Line → Option Nat
  | depth, [] => some depth
  | depth, .plain _ :: rest => depthAfter? depth rest
  | depth, .blank :: rest => depthAfter? depth rest
  | depth, .opening _ :: rest => depthAfter? (depth + 1) rest
  | 0, .closing _ :: _ => none
  | depth + 1, .closing _ :: rest => depthAfter? depth rest

@[simp] theorem depthAfter?_append (depth : Nat) (lines more : List Line) :
    depthAfter? depth (lines ++ more) = (depthAfter? depth lines).bind (depthAfter? · more) := by
  induction lines generalizing depth with
  | nil => rfl
  | cons line rest ih =>
      cases line with
      | plain text | blank => exact ih depth
      | opening text => exact ih (depth + 1)
      | closing text =>
          cases depth with
          | zero => rfl
          | succ depth => exact ih depth

/-- The depth is counted without a loss exactly where every closed block is open. -/
theorem depthAfter?_eq_some_iff (sheet : Sheet) (lines : List Line) (depth : Nat) :
    depthAfter? sheet.depth lines = some depth ↔
      sheet.ClosesOpen lines ∧ (sheet.writeAll lines).depth = depth := by
  induction lines generalizing sheet with
  | nil =>
      have closes : sheet.ClosesOpen [] := fun before text after split => by simp at split
      simp [closes, Sheet.writeAll]
  | cons line rest ih =>
      rw [Sheet.closesOpen_cons_iff, Sheet.writeAll_cons, and_assoc, ← ih]
      obtain ⟨text, start⟩ := sheet
      cases line with
      | plain | blank | opening => simp [Sheet.write]
      | closing =>
          cases start with
          | zero => simp
          | succ start => simp [Sheet.write]

@[simp] theorem Nested.depthAfter?_eq {lines : List Line} (h : Nested lines) (depth : Nat) :
    depthAfter? depth lines = some depth := by
  induction h generalizing depth with
  | nil => rfl
  | plain text after ih => exact ih depth
  | blank after ih => exact ih depth
  | block first last inside after inner ih =>
      rw [depthAfter?, depthAfter?_append, inner]
      exact ih depth

/-- Lines after which nothing is open close the innermost block, after whole blocks inside it. -/
theorem exists_inner {lines : List Line} {depth : Nat}
    (h : depthAfter? (depth + 1) lines = some 0) :
    ∃ inner last rest, lines = inner ++ .closing last :: rest ∧ Nested inner ∧
      depthAfter? depth rest = some 0 := by
  cases lines with
  | nil => cases h
  | cons line lines =>
      cases line with
      | plain text =>
          rw [depthAfter?] at h
          obtain ⟨inner, last, rest, rfl, nested, h⟩ := exists_inner h
          exact ⟨.plain text :: inner, last, rest, rfl, .plain text nested, h⟩
      | blank =>
          rw [depthAfter?] at h
          obtain ⟨inner, last, rest, rfl, nested, h⟩ := exists_inner h
          exact ⟨.blank :: inner, last, rest, rfl, .blank nested, h⟩
      | opening text =>
          rw [depthAfter?] at h
          -- the block that opens here is closed first, and then the one that was open
          obtain ⟨inner, last, lines, rfl, nested, h⟩ := exists_inner h
          obtain ⟨inner', last', rest, rfl, nested', h⟩ := exists_inner h
          refine ⟨.opening text :: (inner ++ .closing last :: inner'), last', rest, by simp, ?_, h⟩
          exact .block text last nested nested'
      | closing text => exact ⟨[], text, lines, rfl, .nil, h⟩
termination_by lines.length

theorem nested_of_depthAfter? {lines : List Line} (h : depthAfter? 0 lines = some 0) :
    Nested lines := by
  cases lines with
  | nil => exact .nil
  | cons line lines =>
      cases line with
      | plain text => exact .plain text (nested_of_depthAfter? h)
      | blank => exact .blank (nested_of_depthAfter? h)
      | opening text =>
          obtain ⟨inner, last, rest, rfl, nested, h⟩ := exists_inner h
          exact .block text last nested (nested_of_depthAfter? h)
      | closing text => cases h
termination_by lines.length

theorem nested_iff {lines : List Line} : Nested lines ↔ depthAfter? 0 lines = some 0 :=
  ⟨fun h => h.depthAfter?_eq 0, nested_of_depthAfter?⟩

instance (lines : List Line) : Decidable (Nested lines) :=
  decidable_of_iff _ nested_iff.symm

/-- As many blocks are closed as opened here, and yet they do not nest. -/
example : ¬ Nested [.closing "\x7d", .opening "\x7b"] := by decide

/-- Lines nest exactly if they are steady wherever they are written. -/
theorem nested_iff_steady {lines : List Line} :
    Nested lines ↔ ∀ sheet : Sheet, sheet.Steady lines := by
  constructor
  · intro h sheet
    obtain ⟨closes, returns⟩ := (depthAfter?_eq_some_iff sheet lines _).mp (h.depthAfter?_eq _)
    exact ⟨closes, returns⟩
  · intro h
    obtain ⟨closes, returns⟩ := h .empty
    exact nested_iff.mpr ((depthAfter?_eq_some_iff .empty lines 0).mpr ⟨closes, returns⟩)

theorem Nested.append {lines more : List Line} (h : Nested lines) (h' : Nested more) :
    Nested (lines ++ more) := by
  rw [nested_iff, depthAfter?_append, h.depthAfter?_eq]
  exact h'.depthAfter?_eq 0

theorem nested_flatMap {α : Type} {f : α → List Line} {parts : List α}
    (h : ∀ part ∈ parts, Nested (f part)) : Nested (parts.flatMap f) := by
  induction parts with
  | nil => exact .nil
  | cons first rest ih =>
      obtain ⟨here, later⟩ := List.forall_mem_cons.mp h
      rw [List.flatMap_cons]
      exact here.append (ih later)

theorem nested_map {α : Type} {f : α → Line} (parts : List α) (h : ∀ part, Nested [f part]) :
    Nested (parts.map f) := by
  rw [List.map_eq_flatMap]
  exact nested_flatMap fun part _ => h part

end TreeShape.Code
