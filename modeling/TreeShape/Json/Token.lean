/-!
The tokens of JSON text. Numbers are only told apart by size, since no value of a document is one:
a whole number beyond 64 bits is wide, and one beyond 128 bits is no token.
-/

namespace TreeShape.Json

inductive Token where
  | leftBrace
  | rightBrace
  | leftBracket
  | rightBracket
  | colon
  | comma
  | string (value : String)
  | number
  | wideNumber
  | true
  | false
  | null
  /-- Text that is no token; nothing is read beyond it. -/
  | invalid
deriving Repr, DecidableEq

def isBlank (c : Char) : Bool :=
  c == ' ' || c == '\t' || c == '\r' || c == '\n'

/-! ### Strings -/

/-- Splits text after an opening quote at the closing one. -/
def splitString : List Char → Option (List Char × List Char)
  | [] => none
  | '"' :: rest => some ([], rest)
  | '\\' :: c :: rest => (splitString rest).map fun (body, tail) => ('\\' :: c :: body, tail)
  | c :: rest => (splitString rest).map fun (body, tail) => (c :: body, tail)

/-- The character that a backslash before `c` makes of it. -/
def unescape (c : Char) : Char :=
  match c with
  | 'b' => '\x08'
  | 'f' => '\x0c'
  | 'n' => '\n'
  | 'r' => '\r'
  | 't' => '\t'
  | _ => c

def hexDigit? (c : Char) : Option Nat :=
  if c.isDigit then some (c.toNat - '0'.toNat)
  else if 'a' ≤ c ∧ c ≤ 'f' then some (c.toNat - 'a'.toNat + 10)
  else if 'A' ≤ c ∧ c ≤ 'F' then some (c.toNat - 'A'.toNat + 10)
  else none

/-- The value of hexadecimal digits. A plus sign may stand before them. -/
def hexValue? (digits : List Char) : Option Nat :=
  let unsigned := if digits.head? == some '+' then digits.drop 1 else digits
  unsigned.foldlM (fun value c => (hexDigit? c).map (16 * value + ·)) 0

/-- The code points of a string's body, with escaped surrogates still apart. After `\u` come four
characters, one of which may be the sign. -/
def codeUnits : List Char → Option (List Nat)
  | [] => some []
  | '\\' :: 'u' :: a :: b :: c :: d :: rest => do
    return (← hexValue? [a, b, c, d]) :: (← codeUnits rest)
  | '\\' :: c :: rest => if c = 'u' then none else do return (unescape c).toNat :: (← codeUnits rest)
  | c :: rest => do return c.toNat :: (← codeUnits rest)

/-- Joins each pair of surrogates. One that stands alone is no character. -/
def joinSurrogates : List Nat → Option (List Char)
  | [] => some []
  | [unit] => if unit.isValidChar then some [Char.ofNat unit] else none
  | unit :: next :: rest =>
    if unit.isValidChar then (joinSurrogates (next :: rest)).map (Char.ofNat unit :: ·)
    else if 0xd800 ≤ unit ∧ unit < 0xdc00 ∧ 0xdc00 ≤ next ∧ next < 0xe000 then
      (joinSurrogates rest).map
        (Char.ofNat (0x10000 + (unit - 0xd800) * 0x400 + (next - 0xdc00)) :: ·)
    else none

def stringToken (body : List Char) : Token :=
  match codeUnits body >>= joinSurrogates with
  | some cs => .string (String.ofList cs)
  | none => .invalid

/-! ### Numbers -/

def isNegative (cs : List Char) : Bool := cs.head? == some '-'

def dropSign (cs : List Char) : List Char :=
  if isNegative cs then cs.drop 1 else cs

def digitsValue (digits : List Char) : Nat :=
  digits.foldl (fun value c => 10 * value + (c.toNat - '0'.toNat)) 0

/-- A whole number, by whether it fits a word of 64 bits or one of 128; of a negative one, whether
its two's complement does. -/
def wholeToken (negative : Bool) (digits : List Char) : Token :=
  let value := digitsValue digits
  let limit (bits : Nat) := if negative then Nat.pow 2 (bits - 1) + 1 else Nat.pow 2 bits
  if digits.isEmpty then .invalid
  else if value < limit 64 then .number
  else if value < limit 128 then .wideNumber
  else .invalid

/-- The digits after a decimal point, if there is one. -/
def fraction? (cs : List Char) : Option (List Char) :=
  match cs with
  | '.' :: rest => some (rest.takeWhile Char.isDigit)
  | _ => none

def dropFraction (cs : List Char) : List Char :=
  match cs with
  | '.' :: rest => rest.dropWhile Char.isDigit
  | _ => cs

def dropExponentSign (cs : List Char) : List Char :=
  if cs.head? == some '+' || cs.head? == some '-' then cs.drop 1 else cs

/-- The digits of an exponent, if there is one. -/
def exponent? (cs : List Char) : Option (List Char) :=
  if cs.head? == some 'e' || cs.head? == some 'E' then
    some ((dropExponentSign (cs.drop 1)).takeWhile Char.isDigit)
  else none

def dropExponent (cs : List Char) : List Char :=
  if cs.head? == some 'e' || cs.head? == some 'E' then
    (dropExponentSign (cs.drop 1)).dropWhile Char.isDigit
  else cs

/-- The number that `cs` begins with. A fraction needs a digit on one side of its point, and an
exponent needs a digit. -/
def numberToken (cs : List Char) : Token :=
  let whole := (dropSign cs).takeWhile Char.isDigit
  let afterWhole := (dropSign cs).dropWhile Char.isDigit
  match fraction? afterWhole, exponent? (dropFraction afterWhole) with
  | none, none => wholeToken (isNegative cs) whole
  | fraction, exponent =>
    if (whole ++ fraction.getD []).isEmpty || exponent == some [] then .invalid else .number

def afterNumber (cs : List Char) : List Char :=
  dropExponent (dropFraction ((dropSign cs).dropWhile Char.isDigit))

/-! ### Scanning -/

/-- The token that begins with `c`, and the text after it. -/
def lexeme (c : Char) (rest : List Char) : Token × List Char :=
  match c with
  | '\x7b' => (.leftBrace, rest)
  | '\x7d' => (.rightBrace, rest)
  | '[' => (.leftBracket, rest)
  | ']' => (.rightBracket, rest)
  | ':' => (.colon, rest)
  | ',' => (.comma, rest)
  | '"' =>
    match splitString rest with
    | some (body, tail) => (stringToken body, tail)
    | none => (.invalid, [])
  | 't' => if "rue".toList.isPrefixOf rest then (.true, rest.drop 3) else (.invalid, [])
  | 'f' => if "alse".toList.isPrefixOf rest then (.false, rest.drop 4) else (.invalid, [])
  | 'n' => if "ull".toList.isPrefixOf rest then (.null, rest.drop 3) else (.invalid, [])
  | _ => if c == '-' || c.isDigit then (numberToken (c :: rest), afterNumber (c :: rest))
    else (.invalid, [])

theorem length_dropWhile_le {α : Type} (p : α → Bool) (l : List α) :
    (l.dropWhile p).length ≤ l.length :=
  (List.dropWhile_suffix p).length_le

theorem length_splitString {cs body tail : List Char} (h : splitString cs = some (body, tail)) :
    tail.length ≤ cs.length := by
  fun_induction splitString cs generalizing body tail with
  | case1 => simp at h
  | case2 rest => simp_all
  | case3 c rest ih | case4 c rest _ _ ih =>
    obtain ⟨⟨b, t⟩, hs, he⟩ := Option.map_eq_some_iff.1 h
    cases he
    have := ih hs
    simp only [List.length_cons]
    omega

theorem length_dropFraction_le (cs : List Char) : (dropFraction cs).length ≤ cs.length := by
  unfold dropFraction
  split
  · exact Nat.le_succ_of_le (length_dropWhile_le _ _)
  · exact Nat.le_refl _

theorem length_dropExponent_le (cs : List Char) : (dropExponent cs).length ≤ cs.length := by
  unfold dropExponent
  split
  · refine Nat.le_trans (length_dropWhile_le _ _) ?_
    unfold dropExponentSign
    split <;> simp only [List.length_drop] <;> omega
  · exact Nat.le_refl _

theorem length_afterNumber_le (c : Char) (rest : List Char) (h : c == '-' || c.isDigit) :
    (afterNumber (c :: rest)).length ≤ rest.length := by
  refine Nat.le_trans (length_dropExponent_le _) (Nat.le_trans (length_dropFraction_le _) ?_)
  unfold dropSign isNegative
  split
  · exact length_dropWhile_le _ _
  · next hc =>
    have hd : c.isDigit = Bool.true := by simp_all
    simpa [List.dropWhile_cons, hd] using length_dropWhile_le Char.isDigit rest

theorem length_lexeme_le (c : Char) (rest : List Char) :
    (lexeme c rest).2.length ≤ rest.length := by
  unfold lexeme
  split
  case h_7 =>
    split
    · next h => exact length_splitString h
    · exact Nat.zero_le _
  case h_8 | h_9 | h_10 => split <;> simp
  case h_11 =>
    split
    · next h => exact length_afterNumber_le c rest h
    · exact Nat.zero_le _
  all_goals exact Nat.le_refl _

/-- The tokens of a text, up to the first place where there is none. -/
def scan : List Char → List Token
  | [] => []
  | c :: rest =>
    if isBlank c then scan rest
    else
      match (lexeme c rest).1 with
      | .invalid => [.invalid]
      | token => token :: scan (lexeme c rest).2
termination_by cs => cs.length
decreasing_by
  · exact Nat.lt_succ_self _
  · exact Nat.lt_succ_of_le (length_lexeme_le c rest)

end TreeShape.Json
