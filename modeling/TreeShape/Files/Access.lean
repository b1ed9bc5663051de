import TreeShape.Code.Package
import TreeShape.Files.Path

/-!
Access to files, and writing the units of a package through it.
-/

namespace TreeShape

inductive FileError where
  | notFound
  | notADirectory
  | isADirectory
  | alreadyExists
  /-- The path has a NUL character. -/
  | invalidPath
  | nameTooLong
  | other (message : String)
deriving Repr, DecidableEq

def FileError.message : FileError → String
  | notFound => "no such file or directory"
  | notADirectory => "not a directory"
  | isADirectory => "is a directory"
  | alreadyExists => "already exists"
  | invalidPath => "invalid path"
  | nameTooLong => "name too long"
  | other message => message

structure FileFailure where
  path : Path
  cause : FileError
deriving Repr, DecidableEq

def FileFailure.message (failure : FileFailure) : String :=
  s!"I/O error on {failure.path.text}: {failure.cause.message}"

structure FileAccess (m : Type → Type) where
  read : Path → m (Except FileError String)
  /-- Makes a directory and those on the way to it. -/
  createDirectories : Path → m (Except FileError Unit)
  /-- Makes a file or replaces its contents. -/
  write : Path → String → m (Except FileError Unit)

def packageDirectory (root : Path) (package : List String) : Path :=
  package.foldl Path.join root

def unitPath (directory : Path) (unit : Code.SourceUnit) : Path :=
  directory.join (unit.name ++ ".rs")

namespace FileAccess

variable {m : Type → Type} [Monad m] (files : FileAccess m)

/-- Writes the units one after the other, up to the first that cannot be. -/
def writeUnits (directory : Path) : List Code.SourceUnit → m (Except FileFailure Unit)
  | [] => pure (.ok ())
  | unit :: rest => do
    match ← files.write (unitPath directory unit) unit.contents with
    | .ok () => writeUnits directory rest
    | .error cause => pure (.error ⟨unitPath directory unit, cause⟩)

/-- Writes the units of a package under a root and gives the directory they are in. -/
def writePackage (root : Path) (package : List String) (units : List Code.SourceUnit) :
    m (Except FileFailure Path) := do
  let directory := packageDirectory root package
  match ← files.createDirectories directory with
  | .error cause => pure (.error ⟨directory, cause⟩)
  | .ok () => do
    match ← files.writeUnits directory units with
    | .error failure => pure (.error failure)
    | .ok () => pure (.ok directory)

end FileAccess
end TreeShape
