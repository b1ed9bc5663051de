import TreeShape.Command.Options
import TreeShape.Files.Access
import TreeShape.Schema.Source
import TreeShape.Text.Terminal

/-!
The command: reads a schema from a file and writes the package generated from it under a directory,
or only checks that this could be done.
-/

namespace TreeShape

inductive CommandError where
  | arguments (fault : ArgumentFault)
  | files (failure : FileFailure)
  | schema (error : SchemaError)
  | clash (clash : Code.Clash)
deriving Repr, DecidableEq

def CommandError.message : CommandError → String
  | arguments .invalid => "invalid arguments"
  | arguments .empty => "empty argument"
  | files failure => failure.message
  | schema e => e.message
  | clash c => c.message

/-- A compiled schema and the units generated from its text. -/
def generate (text : String) : Logged CommandError (Shapes × List Code.SourceUnit) :=
  match Schema.ofText text with
  | .error e => ⟨[], .error (.schema e)⟩
  | .ok schema =>
    let compiled := Shapes.compileLogged schema
    match compiled.result with
    | .error fault => ⟨compiled.log, .error (.schema (.invalid fault))⟩
    | .ok s =>
      let emitted := Code.emitLogged s
      ⟨compiled.log ++ emitted.log, (emitted.result.mapError .clash).map fun units => (s, units)⟩

namespace Options

variable {m : Type → Type} [Monad m]

/-- What is done with the generated units. -/
def finish (options : Options) (files : FileAccess m) (s : Shapes) (units : List Code.SourceUnit) :
    m (Logged CommandError Unit) := do
  if options.check then
    return ⟨[⟨.info, s!"schema is valid ({units.length} unit(s) would be written)"⟩], .ok ()⟩
  match ← files.writePackage ⟨options.outDir⟩ s.schema.package units with
  | .error failure => return ⟨[], .error (.files failure)⟩
  | .ok directory =>
    return ⟨[⟨.info, s!"wrote {units.length} unit(s) to {directory.text}"⟩], .ok ()⟩

def run (options : Options) (files : FileAccess m) : m (Logged CommandError Unit) := do
  let reading : LogEntry := ⟨.info, s!"reading schema from {options.schema}"⟩
  match ← files.read ⟨options.schema⟩ with
  | .error cause => return ⟨[reading], .error (.files ⟨⟨options.schema⟩, cause⟩)⟩
  | .ok text =>
    let generated := generate text
    match generated.result with
    | .error e => return ⟨reading :: generated.log, .error e⟩
    | .ok (s, units) =>
      let last ← options.finish files s units
      return ⟨reading :: generated.log ++ last.log, last.result⟩

end Options

/-- Runs the command with its arguments. -/
def runCommand {m : Type → Type} [Monad m] (files : FileAccess m) (arguments : List String) :
    m (Logged CommandError Unit) :=
  match Options.ofArguments arguments with
  | .error fault => pure ⟨[], .error (.arguments fault)⟩
  | .ok options => options.run files

/-- The entry that reports an error. An empty argument is not reported. -/
def CommandError.report : CommandError → List LogEntry
  | arguments .empty => []
  | e => [⟨.error, e.message⟩]

/-- What is shown of a log: all but the debugging entries, in text for a terminal. -/
def shownLog (log : List LogEntry) : List LogEntry :=
  (log.filter (·.level != .debug)).map fun entry =>
    { entry with message := Text.forTerminal entry.message }

def exitCode : Except CommandError Unit → UInt32
  | .ok () => 0
  | .error (.arguments .empty) => 101
  | .error _ => 1

end TreeShape
