import TreeShape.Command

/-!
The command line.
-/

namespace TreeShape

/-- The outcome of an action on the file system. -/
def attempt {α : Type} (action : IO α) : IO (Except FileError α) := do
  match ← action.toBaseIO with
  | .ok a => return .ok a
  | .error (.noFileOrDirectory ..) => return .error .notFound
  | .error (.alreadyExists ..) => return .error .alreadyExists
  | .error e => return .error (.other (toString e))

def systemFiles : FileAccess IO where
  read := fun path => attempt (IO.FS.readFile path.text)
  createDirectories := fun path => attempt (IO.FS.createDirAll path.text)
  write := fun path contents => attempt (IO.FS.writeFile path.text contents)

end TreeShape

open TreeShape in
def main (arguments : List String) : IO UInt32 := do
  let outcome ← runCommand systemFiles arguments
  let report := match outcome.result with
    | .ok () => []
    | .error e => e.report
  for entry in shownLog (outcome.log ++ report) do
    IO.eprintln entry.line
  return exitCode outcome.result
