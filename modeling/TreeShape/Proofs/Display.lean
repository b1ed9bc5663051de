import Mathlib.Data.Bool.AllAny
import Mathlib.Data.List.Nodup
import TreeShape.Proofs.Nesting

/-!
Displayed trees can be told apart. What is displayed says where it ends: a kind at the first mark,
a quoted text at the first quote that is not escaped, and a tree before a comma or a parenthesis
that is not its own. So a display is read in one way only, whatever follows it.
-/

namespace TreeShape

namespace Text

section

variable {isMark : Char → Bool} {a b x y : List Char}

/-- Nothing is left, or a mark comes next. -/
def OpensMarked (isMark : Char → Bool) (text : List Char) : Prop :=
  ∀ c ∈ text.head?, isMark c = true

private theorem takeWhile_of_opensMarked (plain : ∀ c ∈ a, isMark c = false)
    (marked : OpensMarked isMark x) : (a ++ x).takeWhile (!isMark ·) = a := by
  rw [List.takeWhile_append_of_pos fun c hc => by simp [plain c hc]]
  cases x with
  | nil => simp
  | cons c rest => simp [marked c rfl]

/-- A text without marks ends at the first mark after it. -/
theorem eq_of_append_eq_of_unmarked (ha : ∀ c ∈ a, isMark c = false)
    (hb : ∀ c ∈ b, isMark c = false) (hx : OpensMarked isMark x) (hy : OpensMarked isMark y)
    (h : a ++ x = b ++ y) : a = b ∧ x = y := by
  have same : a = b := by
    rw [← takeWhile_of_opensMarked ha hx, h, takeWhile_of_opensMarked hb hy]
  subst same
  exact ⟨rfl, List.append_cancel_left h⟩

end

private theorem digitChar_inj {n m : Nat} (hn : n < 16) (hm : m < 16)
    (h : n.digitChar = m.digitChar) : n = m := by
  have distinct : ((List.range 16).map Nat.digitChar).Nodup := by decide
  exact List.inj_on_of_nodup_map distinct (List.mem_range.mpr hn) (List.mem_range.mpr hm) h

private theorem hexadecimal_eq (n : Nat) : Nat.toDigits 16 n =
    if n < 16 then [n.digitChar] else Nat.toDigits 16 (n / 16) ++ [(n % 16).digitChar] :=
  Nat.toDigits_eq_if (by decide)

/-- Numbers with the same hexadecimal digits are the same. -/
theorem hexadecimal_inj {n m : Nat} (h : Nat.toDigits 16 n = Nat.toDigits 16 m) : n = m := by
  induction n using Nat.strongRecOn generalizing m with
  | ind n ih =>
      have below (k : Nat) : k % 16 < 16 := Nat.mod_lt k (by decide)
      have longer (k : Nat) (c d : Char) : [c] ≠ Nat.toDigits 16 k ++ [d] := by
        intro h
        have lengths := congrArg List.length h
        simp [Nat.toDigits_ne_nil] at lengths
      rw [hexadecimal_eq n, hexadecimal_eq m] at h
      split at h <;> split at h
      · next hn hm => exact digitChar_inj hn hm (by simpa using h)
      · exact absurd h (longer _ _ _)
      · exact absurd h.symm (longer _ _ _)
      · next hn _ =>
        obtain ⟨front, last⟩ := List.append_inj' h rfl
        have quotient := ih (n / 16) (by omega) front
        have remainder := digitChar_inj (below n) (below m) (by simpa using last)
        omega

theorem brace_not_mem_hexadecimal (n : Nat) : '\x7d' ∉ Nat.toDigits 16 n := by
  induction n using Nat.strongRecOn with
  | ind n ih =>
      have other (k : Nat) : '\x7d' ≠ k.digitChar := (Nat.digitChar_ne '\x7d' (by decide)).symm
      rw [hexadecimal_eq]
      split
      · simp [other n]
      · rw [List.mem_append, List.mem_singleton]
        exact fun h => h.elim (ih (n / 16) (by omega)) (other _)

/-- The characters that have escapes of their own, each with the letter of its escape. -/
def ownEscapes : List (Char × Char) :=
  [('\x00', '0'), ('\t', 't'), ('\r', 'r'), ('\n', 'n'), ('\\', '\\'), ('"', '"')]

/-- A character stands for itself, has an escape of its own, or is given by its code point. -/
inductive Escaped (c : Char) : List Char → Prop
  | itself : c ≠ '\\' → c ≠ '"' → Escaped c [c]
  | own {letter : Char} : (c, letter) ∈ ownEscapes → Escaped c ['\\', letter]
  | code : Escaped c (escapeCode c)

theorem escaped_escapeChar (c : Char) : Escaped c (escapeChar c) := by
  unfold escapeChar
  split_ifs with nul tab carriage feed slash quote
  iterate 6 exact .own (by simp [ownEscapes, *])
  · exact .itself slash quote
  · exact .code

/-- No escape is the beginning of another one. -/
theorem Escaped.cancel {c d : Char} {escape escape' x y : List Char} (h : Escaped c escape)
    (h' : Escaped d escape') (same : escape ++ x = escape' ++ y) : c = d ∧ x = y := by
  have letters : (ownEscapes.map (·.2)).Nodup := by decide
  have not_u {c : Char} (hu : (c, 'u') ∈ ownEscapes) : False := by
    have : 'u' ∈ ownEscapes.map (·.2) := List.mem_map_of_mem hu
    exact absurd this (by decide)
  cases h with
  | itself slash _ =>
      cases h' with
      | itself => simpa using same
      | own | code => exact absurd (List.cons.inj same).1 slash
  | own hc =>
      cases h' with
      | itself slash _ => exact absurd (List.cons.inj same).1.symm slash
      | own hd =>
          obtain ⟨letter, rest⟩ := List.cons.inj (List.cons.inj same).2
          exact ⟨(Prod.mk.inj (List.inj_on_of_nodup_map letters hc hd letter)).1, rest⟩
      | code =>
          cases (List.cons.inj (List.cons.inj same).2).1
          exact (not_u hc).elim
  | code =>
      cases h' with
      | itself slash _ => exact absurd (List.cons.inj same).1.symm slash
      | own hd =>
          cases (List.cons.inj (List.cons.inj same).2).1
          exact (not_u hd).elim
      | code =>
          -- Both are digits up to a brace.
          have plain (n : Nat) : ∀ c ∈ Nat.toDigits 16 n, (c == '\x7d') = false := by
            intro c hc
            rw [beq_eq_false_iff_ne]
            rintro rfl
            exact brace_not_mem_hexadecimal n hc
          have digits : Nat.toDigits 16 c.toNat ++ '\x7d' :: x =
              Nat.toDigits 16 d.toNat ++ '\x7d' :: y := by
            simpa [escapeCode] using same
          have marked (rest : List Char) : OpensMarked (· == '\x7d') ('\x7d' :: rest) := by
            simp [OpensMarked]
          obtain ⟨same, rest⟩ :=
            eq_of_append_eq_of_unmarked (plain _) (plain _) (marked x) (marked y) digits
          exact ⟨Char.toNat_inj.mp (hexadecimal_inj same), (List.cons.inj rest).2⟩

theorem Escaped.head?_ne {c : Char} {escape : List Char} (h : Escaped c escape) (rest : List Char) :
    (escape ++ rest).head? ≠ some '"' := by
  cases h with
  | itself _ quote => simpa using quote
  | own | code => simp [escapeCode]

/-- A quoted text ends at the first quote in it that is not escaped. -/
theorem quoteChars_cancel {cs ds x y : List Char} (h : quoteChars cs ++ x = quoteChars ds ++ y) :
    cs = ds ∧ x = y := by
  have inside : cs.flatMap escapeChar ++ '"' :: x = ds.flatMap escapeChar ++ '"' :: y := by
    simpa [quoteChars] using h
  clear h
  induction cs generalizing ds with
  | nil =>
      cases ds with
      | nil => exact ⟨rfl, (List.cons.inj inside).2⟩
      | cons d ds =>
          rw [List.flatMap_cons, List.append_assoc] at inside
          have first := (escaped_escapeChar d).head?_ne (ds.flatMap escapeChar ++ '"' :: y)
          rw [← inside] at first
          simp at first
  | cons c cs ih =>
      rw [List.flatMap_cons, List.append_assoc] at inside
      cases ds with
      | nil =>
          have first := (escaped_escapeChar c).head?_ne (cs.flatMap escapeChar ++ '"' :: x)
          rw [inside] at first
          simp at first
      | cons d ds =>
          rw [List.flatMap_cons, List.append_assoc] at inside
          obtain ⟨rfl, later⟩ := (escaped_escapeChar c).cancel (escaped_escapeChar d) inside
          obtain ⟨rfl, after⟩ := ih later
          exact ⟨rfl, after⟩

end Text

namespace Tree

/-- The characters that a display is taken apart by. -/
def marks : List Char :=
  ['"', '(', ')', ',']

/-- No node of the tree, at whatever depth, has a mark in its kind. -/
inductive PlainKinds : Tree → Prop
  | node {kind : String} {text : Option String} {children : List Tree} :
      (∀ mark ∈ marks, mark ∉ kind.toList) → (∀ child ∈ children, PlainKinds child) →
      PlainKinds ⟨kind, text, children⟩

/-- What may follow a tree: nothing, or what stands after a child. -/
def Ends (rest : List Char) : Prop :=
  ∀ c ∈ rest.head?, c = ')' ∨ c = ','

def displayText (text : Option String) : List Char :=
  text.elim [] (Text.quoteChars ·.toList)

def displayChildren : List Tree → List Char
  | [] => []
  | child :: rest => '(' :: (child.display ++ displayRest rest)

theorem display_append (kind : String) (text : Option String) (children : List Tree)
    (rest : List Char) :
    display ⟨kind, text, children⟩ ++ rest =
      kind.toList ++ (displayText text ++ (displayChildren children ++ rest)) := by
  cases children <;> simp [display, displayText, displayChildren]

theorem ends_displayRest (children : List Tree) (rest : List Char) :
    Ends (displayRest children ++ rest) := by
  cases children <;> simp [displayRest, Ends]

theorem head?_displayChildren {children : List Tree} {rest : List Char} (ends : Ends rest) :
    ∀ c ∈ (displayChildren children ++ rest).head?, c = '(' ∨ c = ')' ∨ c = ',' := by
  intro c hc
  cases children with
  | nil => exact .inr (ends c hc)
  | cons child others =>
      left
      simpa [displayChildren, eq_comm] using hc

/-- A kind is always followed by a mark or by nothing. -/
theorem opensMarked_displayText {text : Option String} {children : List Tree} {rest : List Char}
    (ends : Ends rest) :
    Text.OpensMarked marks.contains (displayText text ++ (displayChildren children ++ rest)) := by
  intro c hc
  cases text with
  | some text =>
      have quote : '"' = c := by simpa [displayText, Text.quoteChars] using hc
      rw [← quote]
      decide
  | none =>
      obtain rfl | rfl | rfl := head?_displayChildren ends c hc <;> decide

theorem displayText_cancel {text text' : Option String} {children children' : List Tree}
    {x y : List Char} (hx : Ends x) (hy : Ends y)
    (h : displayText text ++ (displayChildren children ++ x) =
      displayText text' ++ (displayChildren children' ++ y)) :
    text = text' ∧ displayChildren children ++ x = displayChildren children' ++ y := by
  -- A quote cannot be where children or what follows them would begin.
  have differ {text : String} {children : List Tree} {x y : List Char} (ends : Ends y) :
      displayText (some text) ++ x ≠ displayChildren children ++ y := by
    intro h
    have first := @head?_displayChildren children y ends '"'
    rw [← h] at first
    simp [displayText, Text.quoteChars] at first
  cases text with
  | none =>
      cases text' with
      | none => exact ⟨rfl, h⟩
      | some text' => exact absurd h.symm (differ hx)
  | some text =>
      cases text' with
      | none => exact absurd h (differ hy)
      | some text' =>
          obtain ⟨same, rest⟩ := Text.quoteChars_cancel h
          exact ⟨congrArg some (String.toList_inj.mp same), rest⟩

/-- The tree can be read off what begins with its display. -/
def Legible (tree : Tree) : Prop :=
  ∀ {other : Tree} {x y : List Char}, other.PlainKinds → Ends x → Ends y →
    tree.display ++ x = other.display ++ y → tree = other ∧ x = y

theorem displayRest_cancel {children children' : List Tree}
    (legible : ∀ child ∈ children, child.Legible) (plain : ∀ child ∈ children', child.PlainKinds)
    {x y : List Char} (h : displayRest children ++ x = displayRest children' ++ y) :
    children = children' ∧ x = y := by
  induction children generalizing children' with
  | nil =>
      cases children' with
      | nil => exact ⟨rfl, (List.cons.inj h).2⟩
      | cons child' others' => simp [displayRest] at h
  | cons child others ih =>
      cases children' with
      | nil => simp [displayRest] at h
      | cons child' others' =>
          obtain ⟨here, later⟩ := List.forall_mem_cons.mp legible
          obtain ⟨plain, others_plain⟩ := List.forall_mem_cons.mp plain
          have inside : child.display ++ (displayRest others ++ x) =
              child'.display ++ (displayRest others' ++ y) := by
            simpa [displayRest] using h
          obtain ⟨rfl, rest⟩ :=
            here plain (ends_displayRest others x) (ends_displayRest others' y) inside
          obtain ⟨rfl, after⟩ := ih later others_plain rest
          exact ⟨rfl, after⟩

theorem displayChildren_cancel {children children' : List Tree}
    (legible : ∀ child ∈ children, child.Legible) (plain : ∀ child ∈ children', child.PlainKinds)
    {x y : List Char} (hx : Ends x) (hy : Ends y)
    (h : displayChildren children ++ x = displayChildren children' ++ y) :
    children = children' ∧ x = y := by
  have differ {child : Tree} {others : List Tree} {x y : List Char} (ends : Ends x) :
      x ≠ displayChildren (child :: others) ++ y := by
    rintro rfl
    simp [Ends, displayChildren] at ends
  cases children with
  | nil =>
      cases children' with
      | nil => exact ⟨rfl, h⟩
      | cons child' others' => exact absurd h (differ hx)
  | cons child others =>
      cases children' with
      | nil => exact absurd h.symm (differ hy)
      | cons child' others' =>
          -- The first child follows a parenthesis as the others follow a comma.
          apply displayRest_cancel legible plain
          simpa [displayRest, displayChildren] using h

theorem PlainKinds.legible {tree : Tree} (plain : tree.PlainKinds) : tree.Legible := by
  have unmarked {kind : String} (h : ∀ mark ∈ marks, mark ∉ kind.toList) :
      ∀ c ∈ kind.toList, marks.contains c = false := by
    intro c hc
    rw [← Bool.not_eq_true, List.contains_iff_mem]
    exact fun mark => h c mark hc
  induction plain with
  | @node kind text children hk _ ih =>
      intro other x y plain hx hy h
      cases plain with
      | @node kind' text' children' hk' plain =>
          rw [display_append, display_append] at h
          obtain ⟨kinds, h⟩ := Text.eq_of_append_eq_of_unmarked (unmarked hk) (unmarked hk')
            (opensMarked_displayText hx) (opensMarked_displayText hy) h
          obtain ⟨rfl, below⟩ := displayText_cancel hx hy h
          obtain ⟨rfl, rest⟩ := displayChildren_cancel ih plain hx hy below
          rw [String.toList_inj.mp kinds]
          exact ⟨rfl, rest⟩

/-- Trees without marks in their kinds are displayed alike only if they are the same. -/
theorem toString_inj {a b : Tree} (ha : a.PlainKinds) (hb : b.PlainKinds) :
    toString a = toString b ↔ a = b := by
  constructor
  · intro h
    have display : a.display = b.display := String.ofList_injective h
    have ends : Ends [] := by simp [Ends]
    exact (ha.legible hb ends ends (congrArg (· ++ []) display)).1
  · rintro rfl
    rfl

example : toString (⟨"IF", none, [.withText "IDENT" "x", .leaf "BLOCK"]⟩ : Tree) =
    "IF(IDENT\"x\", BLOCK)" := by decide

/-- A control character for its text, and two children. -/
def controlled : Tree :=
  ⟨"CALL", some "\x01", [⟨"", some "", []⟩, ⟨" ", some "), B(", []⟩]⟩

/-- The same but for the text, which spells out how that is escaped, and for the text of the first
child, which is absent and not empty. -/
def spelledOut : Tree :=
  ⟨"CALL", some "\\u\x7b1\x7d", [⟨"", none, []⟩, ⟨" ", some "), B(", []⟩]⟩

theorem toString_controlled_ne :
    controlled.PlainKinds ∧ spelledOut.PlainKinds ∧ toString controlled ≠ toString spelledOut := by
  have plain {kind : String} (h : (marks.all fun mark => decide (mark ∉ kind.toList)) = true) :
      ∀ mark ∈ marks, mark ∉ kind.toList :=
    List.all_iff_forall_prop.mp h
  have bare {kind : String} {text : Option String} (h : ∀ mark ∈ marks, mark ∉ kind.toList) :
      PlainKinds ⟨kind, text, []⟩ :=
    .node h (List.forall_mem_nil _)
  have first : controlled.PlainKinds := .node (plain (by decide))
    (List.forall_mem_cons.mpr ⟨bare (plain (by decide)),
      List.forall_mem_singleton.mpr (bare (plain (by decide)))⟩)
  have second : spelledOut.PlainKinds := .node (plain (by decide))
    (List.forall_mem_cons.mpr ⟨bare (plain (by decide)),
      List.forall_mem_singleton.mpr (bare (plain (by decide)))⟩)
  refine ⟨first, second, fun same => ?_⟩
  exact absurd ((toString_inj first second).mp same) (by decide)

end Tree
end TreeShape
