import TreeShape.Text.Words

/-!
The options of the command and the arguments that give them. The schema and the output directory
are given by position or by name, and a later one given by name takes the place of an earlier one.
-/

namespace TreeShape

structure Options where
  schema : String
  outDir : String
  check : Bool
deriving Repr, DecidableEq

/-- What has a value, in the order of positions. -/
inductive Operand where
  | schema
  | outDir
deriving Repr, DecidableEq

inductive OptionName where
  | check
  | operand (operand : Operand)
deriving Repr, DecidableEq

/-- Long names are known by their words. -/
def OptionName.ofLong? (name : String) : Option OptionName :=
  match Text.words name with
  | ["check"] => some .check
  | ["schema"] => some (.operand .schema)
  | ["out", "dir"] => some (.operand .outDir)
  | _ => none

def OptionName.ofShort? (name : String) : Option OptionName :=
  if name = "c" then some .check else none

inductive Argument where
  /-- A name, which may be unknown, and what stands after an equals sign. -/
  | option (name : Option OptionName) (value : Option String)
  /-- The two hyphens after which all arguments are taken by position. -/
  | positionsOnly
  | position (value : String)
  | empty
deriving Repr, DecidableEq

namespace Argument

def splitValue (text : List Char) : String × Option String :=
  (String.ofList (text.takeWhile (· != '=')),
    (text.dropWhile (· != '=')).tail?.map String.ofList)

def ofText (text : String) : Argument :=
  match text.toList with
  | [] => .empty
  | ['-', '-'] => .positionsOnly
  | '-' :: '-' :: rest => .option (OptionName.ofLong? (splitValue rest).1) (splitValue rest).2
  | '-' :: rest => .option (OptionName.ofShort? (splitValue rest).1) (splitValue rest).2
  | _ => .position text

end Argument

inductive ArgumentFault where
  | invalid
  /-- An argument without any text, which cannot be told to be an option or not. -/
  | empty
deriving Repr, DecidableEq

/-- The options given so far. -/
structure GivenOptions where
  schema : Option String
  outDir : Option String
  check : Bool
deriving Repr, DecidableEq

namespace GivenOptions

def start : GivenOptions := ⟨none, none, false⟩

def set (given : GivenOptions) (operand : Operand) (value : String) : GivenOptions :=
  match operand with
  | .schema => { given with schema := some value }
  | .outDir => { given with outDir := some value }

/-- A position stands for the first operand that is not given yet. -/
def setNext (given : GivenOptions) (value : String) : Except ArgumentFault GivenOptions :=
  if given.schema.isNone then .ok (given.set .schema value)
  else if given.outDir.isNone then .ok (given.set .outDir value)
  else .error .invalid

/-- Takes the arguments in order, up to the first fault. An operand without an equals sign has the
next argument as its value, whatever that looks like; the value of a flag does not count. -/
def take (given : GivenOptions) : List String → Except ArgumentFault GivenOptions
  | [] => .ok given
  | argument :: rest =>
    match Argument.ofText argument with
    | .empty => .error .empty
    | .positionsOnly => rest.foldlM setNext given
    | .position value => do take (← given.setNext value) rest
    | .option none _ => .error .invalid
    | .option (some .check) _ => take { given with check := true } rest
    | .option (some (.operand operand)) (some value) => take (given.set operand value) rest
    | .option (some (.operand operand)) none =>
      match rest with
      | [] => .error .invalid
      | value :: others => take (given.set operand value) others

end GivenOptions

def Options.ofArguments (arguments : List String) : Except ArgumentFault Options := do
  match ← GivenOptions.start.take arguments with
  | ⟨some schema, some outDir, check⟩ => .ok ⟨schema, outDir, check⟩
  | _ => .error .invalid

end TreeShape
