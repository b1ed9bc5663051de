import TreeShape.Json.Token

/-!
Reading values of expected types off JSON tokens. Separators may be left out: a value may follow a
value without a comma, and a key's value may follow it without a colon. A comma before the first
value is let pass, but each comma has to be followed by a value or a key. `null` stands for the
default of the expected type. Keys that no one asks for are passed over with their values, and only
these may have more than one colon between them.
-/

namespace TreeShape.Json

/-- A value read off the front of a token list, and the tokens after it. -/
structure Taken (α : Type) (ts : List Token) where
  value : α
  rest : List Token
  shorter : rest.length < ts.length

def Reader (α : Type) : Type := (ts : List Token) → Option (Taken α ts)

namespace Reader

variable {α β σ : Type}

def map (f : α → β) (read : Reader α) : Reader β := fun ts =>
  (read ts).map fun t => ⟨f t.value, t.rest, t.shorter⟩

def string : Reader String
  | .string value :: rest => some ⟨value, rest, Nat.lt_succ_self _⟩
  | .null :: rest => some ⟨"", rest, Nat.lt_succ_self _⟩
  | _ => none

/-- A boolean may also be spelled as a string. -/
def bool : Reader Bool
  | .true :: rest | .string "true" :: rest => some ⟨true, rest, Nat.lt_succ_self _⟩
  | .false :: rest | .string "false" :: rest | .null :: rest =>
    some ⟨false, rest, Nat.lt_succ_self _⟩
  | _ => none

/-- One of the strings that `choose` knows. -/
def choice (choose : String → Option α) : Reader α
  | .string value :: rest => (choose value).map (⟨·, rest, Nat.lt_succ_self _⟩)
  | _ => none

def optional (read : Reader α) : Reader (Option α)
  | .null :: rest => some ⟨none, rest, Nat.lt_succ_self _⟩
  | ts => read.map some ts

/-- Drops one token of a sort, if there is one. -/
def dropOne (token : Token) : List Token → List Token
  | [] => []
  | t :: rest => if t = token then rest else t :: rest

theorem length_dropOne_le (token : Token) (ts : List Token) :
    (dropOne token ts).length ≤ ts.length := by
  cases ts with
  | nil => exact Nat.le_refl _
  | cons t rest => simp only [dropOne]; split <;> simp

/-- The elements of a list whose bracket has been opened. -/
def elements (read : Reader α) (ts : List Token) : Option (Taken (List α) ts) :=
  match ts with
  | .rightBracket :: rest => some ⟨[], rest, Nat.lt_succ_self _⟩
  | ts =>
    match read (dropOne .comma ts) with
    | none => none
    | some first =>
      have h : first.rest.length < ts.length :=
        Nat.lt_of_lt_of_le first.shorter (length_dropOne_le _ _)
      (elements read first.rest).map fun others =>
        ⟨first.value :: others.value, others.rest, Nat.lt_trans others.shorter h⟩
termination_by ts.length

def list (read : Reader α) : Reader (List α)
  | .leftBracket :: rest =>
    (elements read rest).map fun t => ⟨t.value, t.rest, Nat.lt_succ_of_lt t.shorter⟩
  | .null :: rest => some ⟨[], rest, Nat.lt_succ_self _⟩
  | _ => none

/-- The tokens after the bracket that closes the `depth` brackets still open. Nothing but brackets
counts here. -/
def close : Nat → List Token → Option (List Token)
  | _, [] | _, .invalid :: _ => none
  | depth, .leftBrace :: rest | depth, .leftBracket :: rest => close (depth + 1) rest
  | 0, .rightBrace :: rest | 0, .rightBracket :: rest => some rest
  | depth + 1, .rightBrace :: rest | depth + 1, .rightBracket :: rest => close depth rest
  | depth, _ :: rest => close depth rest

theorem length_close {depth : Nat} {ts rest : List Token} (h : close depth ts = some rest) :
    rest.length < ts.length := by
  fun_induction close depth ts
  case case1 | case2 => contradiction
  case case5 | case6 => simp_all
  all_goals exact Nat.lt_succ_of_lt (by simp_all)

/-- Passes over a value and any colons before it. A wide number can only be passed over inside a
list or an object. -/
def skip : Reader Unit
  | .colon :: rest => (skip rest).map fun t => ⟨(), t.rest, Nat.lt_succ_of_lt t.shorter⟩
  | .string _ :: rest | .number :: rest | .true :: rest | .false :: rest | .null :: rest =>
    some ⟨(), rest, Nat.lt_succ_self _⟩
  | .leftBrace :: rest | .leftBracket :: rest =>
    match h : close 0 rest with
    | some after => some ⟨(), after, Nat.lt_succ_of_lt (length_close h)⟩
    | none => none
  | _ => none

/-- The entries of an object whose brace has been opened. Each entry changes the state; the keys
met so far are kept beside it. -/
def entries (entry : σ → String → Option (Reader σ)) (state : σ) (keys : List String)
    (ts : List Token) : Option (Taken (σ × List String) ts) :=
  match ts with
  | .rightBrace :: rest => some ⟨(state, keys), rest, Nat.lt_succ_self _⟩
  | ts =>
    match h : dropOne .comma ts with
    | .string key :: afterKey =>
      let read := (entry state key).getD (skip.map fun _ => state)
      match read (dropOne .colon afterKey) with
      | none => none
      | some first =>
        have h : first.rest.length < ts.length := by
          have h₁ := first.shorter
          have h₂ := length_dropOne_le .colon afterKey
          have h₃ := length_dropOne_le .comma ts
          rw [h, List.length_cons] at h₃
          omega
        (entries entry first.value (key :: keys) first.rest).map fun others =>
          ⟨others.value, others.rest, Nat.lt_trans others.shorter h⟩
    | _ => none
termination_by ts.length

/-- An object that has all the required keys. Its value starts as `blank`, and `entry` says how the
value of a known key is read into it; when a key comes again, it is read again. -/
def object (required : List String) (blank : σ) (entry : σ → String → Option (Reader σ)) :
    Reader σ
  | .leftBrace :: rest =>
    match entries entry blank [] rest with
    | none => none
    | some t =>
      if required.all t.value.2.contains then
        some ⟨t.value.1, t.rest, Nat.lt_succ_of_lt t.shorter⟩
      else none
  | _ => none

end Reader
end TreeShape.Json
