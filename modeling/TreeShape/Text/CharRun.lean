/-!
Runs of characters: the rows of a table for a Unicode property.
-/

namespace TreeShape.Text

/-- Every `step`th character from `first` to `last`, both included. -/
structure CharRun where
  first : Nat
  last : Nat
  step : Nat
deriving Repr, DecidableEq

def CharRun.contains (run : CharRun) (c : Char) : Bool :=
  run.first ≤ c.toNat && c.toNat ≤ run.last && (c.toNat - run.first) % run.step == 0

end TreeShape.Text
