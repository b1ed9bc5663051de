import TreeShape.Schema.Basic

/-!
Plans: rules with every name resolved to the position of the rule it names, among `n` rules.
-/

namespace TreeShape

/-- Which children an item takes: those of a kind, or those that a rule accepts. -/
inductive Accept (n : Nat) where
  | token (kind : String)
  | rule (position : Fin n)
deriving Repr, DecidableEq

/-- One item of a resolved body. -/
inductive Step (n : Nat) where
  | text (field : String) (optional : Bool)
  | child (field : String) (accept : Accept n) (quantifier : Quantifier)
deriving Repr, DecidableEq

namespace Step

variable {n : Nat}

def field : Step n → String
  | text field _ | child field _ _ => field

def repeats : Step n → Bool
  | text _ _ => false
  | child _ _ quantifier => quantifier.repeats

end Step

/-- How a rule matches a node. -/
inductive Plan (n : Nat) where
  /-- A node of a kind whose children follow the steps exactly. -/
  | shape (root : String) (steps : List (Step n))
  /-- Whatever another rule matches, wrapped. -/
  | delegate (target : Fin n)
  /-- Whatever the first of these that accepts the node matches. -/
  | choice (alternatives : List (Fin n))
deriving Repr, DecidableEq

/-- The field that holds the node that a delegating rule wraps. -/
def innerField : String := "inner"

namespace Plan

variable {n : Nat}

/-- The names of a node's fields, in order. -/
def fields : Plan n → List String
  | shape _ steps => steps.map (·.field)
  | delegate _ => [innerField]
  | choice _ => []

def isChoice : Plan n → Bool
  | choice _ => true
  | shape _ _ | delegate _ => false

end Plan
end TreeShape
