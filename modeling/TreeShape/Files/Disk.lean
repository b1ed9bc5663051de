import TreeShape.Files.Access

/-!
A disk as a value: what is at each place, places being the names on the way from the root. Relative
paths start at the working directory.
-/

namespace TreeShape

inductive DiskEntry where
  | file (contents : String)
  | directory
deriving Repr, DecidableEq

structure Disk where
  workingDirectory : List String
  entries : List (List String × DiskEntry)
deriving Repr, DecidableEq

namespace Disk

/-- What is at a place. The working directory and those on the way to it are always there. -/
def lookup? (disk : Disk) (place : List String) : Option DiskEntry :=
  if place.isPrefixOf disk.workingDirectory then some .directory else disk.entries.lookup place

def put (disk : Disk) (place : List String) (entry : DiskEntry) : Disk :=
  { disk with entries := (place, entry) :: disk.entries.filter (·.1 != place) }

def checkDirectory (disk : Disk) (place : List String) : Except FileError Unit :=
  match disk.lookup? place with
  | some .directory => .ok ()
  | some (.file _) => .error .notADirectory
  | none => .error .notFound

def checkName (name : String) : Except FileError Unit :=
  if name.utf8ByteSize ≤ 255 then .ok () else .error .nameTooLong

def checkPath (path : Path) : Except FileError Unit :=
  if path.text.toList.contains '\x00' then .error .invalidPath
  else if path.text.utf8ByteSize < 4096 then .ok ()
  else .error .nameTooLong

/-- The place that some pieces of a path lead to. Every place on the way has to be a directory. -/
def walk (disk : Disk) (place : List String) : List String → Except FileError (List String)
  | [] => .ok place
  | piece :: rest => do
    disk.checkDirectory place
    checkName piece
    if piece == "" || piece == "." then disk.walk place rest
    else if piece == ".." then disk.walk place.dropLast rest
    else disk.walk (place ++ [piece]) rest

def start (disk : Disk) (path : Path) : List String :=
  if path.isAbsolute then [] else disk.workingDirectory

def resolve (disk : Disk) (path : Path) : Except FileError (List String) := do
  checkPath path
  disk.walk (disk.start path) path.pieces

def isDirectory (disk : Disk) (path : Path) : Bool :=
  match disk.resolve path with
  | .ok place => disk.lookup? place == some .directory
  | .error _ => false

def read (disk : Disk) (path : Path) : Except FileError String := do
  match disk.lookup? (← disk.resolve path) with
  | some (.file contents) => .ok contents
  | some .directory => .error .isADirectory
  | none => .error .notFound

/-- The pieces of a path without the empty ones at its end, the last one first. -/
def piecesBack (path : Path) : List String :=
  path.pieces.reverse.dropWhile (· == "")

def createDirectory (disk : Disk) (path : Path) : Except FileError Disk := do
  checkPath path
  match piecesBack path with
  | [] => .error (if path.text.isEmpty then .notFound else .alreadyExists)
  | last :: before => do
    let parent ← disk.walk (disk.start path) before.reverse
    disk.checkDirectory parent
    checkName last
    let place := parent ++ [last]
    if last == "." || last == ".." || (disk.lookup? place).isSome then .error .alreadyExists
    else .ok (disk.put place .directory)

/-- Makes the first of some directories, where each is in the next one. Whatever was made stays,
also when it fails. -/
def createWithin (disk : Disk) : List Path → Disk × Except FileError Unit
  | [] => (disk, .ok ())
  | path :: outer =>
    match disk.createDirectory path with
    | .ok disk => (disk, .ok ())
    | .error .notFound =>
      match disk.createWithin outer with
      | (disk, .error e) => (disk, .error e)
      | (disk, .ok ()) =>
        match disk.createDirectory path with
        | .ok disk => (disk, .ok ())
        | .error e => (disk, if disk.isDirectory path then .ok () else .error e)
    | .error e => (disk, if disk.isDirectory path then .ok () else .error e)

def createDirectories (disk : Disk) (path : Path) : Disk × Except FileError Unit :=
  if path.text.isEmpty then (disk, .ok ()) else disk.createWithin path.ancestors

def write (disk : Disk) (path : Path) (contents : String) : Except FileError Disk := do
  let place ← disk.resolve path
  disk.checkDirectory place.dropLast
  match disk.lookup? place with
  | some .directory => .error .isADirectory
  | some (.file _) | none => .ok (disk.put place (.file contents))

/-- How a place is reached from the working directory, if it is in there. -/
def below? (disk : Disk) (place : List String) : Option (List String) :=
  if disk.workingDirectory.isPrefixOf place then
    some (place.drop disk.workingDirectory.length)
  else none

/-- Everything in the working directory, with the contents of the files. The path of a directory
ends in a slash, and paths are in the order of their characters. -/
def listing (disk : Disk) : List (String × Option String) :=
  let named := disk.entries.filterMap fun (place, entry) =>
    (disk.below? place).map fun names =>
      match entry with
      | .file contents => ("/".intercalate names, some contents)
      | .directory => ("/".intercalate names ++ "/", none)
  named.mergeSort fun a b => decide (a.1 ≤ b.1)

def access : FileAccess (StateM Disk) where
  read := fun path => do return (← get).read path
  createDirectories := fun path => modifyGet fun disk =>
    let (disk, result) := disk.createDirectories path
    (result, disk)
  write := fun path contents => modifyGet fun disk =>
    match disk.write path contents with
    | .ok disk => (.ok (), disk)
    | .error e => (.error e, disk)

end Disk
end TreeShape
