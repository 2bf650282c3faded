import SchemaReview.Path.Basic
import SchemaReview.Sequence

/-!
# Path.FileSystem — files and directories

A file system answers three questions about a path: what stands there, what a directory holds and
what the bytes of a file are.  A file tree is a file system given by the list of its files.
-/

namespace SchemaReview

/-- What may stand at a path. -/
inductive EntryKind where
  | file
  | directory
deriving DecidableEq, Repr

/-- A file system whose answers are computed in `m`. -/
structure FileSystem (m : Type → Type) where
  /-- What stands at a path, if anything. -/
  kind? : String → m (Option EntryKind)
  /-- The names in a directory in any order; none when they cannot be listed. -/
  names : String → m (List String)
  /-- The bytes of a file, if it can be read. -/
  contents? : String → m (Option ByteArray)

/-- A directory stands at the path. -/
def FileSystem.isDirectory {m : Type → Type} [Monad m] (fs : FileSystem m) (path : String) :
    m Bool := do
  return (← fs.kind? path) = some .directory

/-- Something stands at the path. -/
def FileSystem.occupied {m : Type → Type} [Monad m] (fs : FileSystem m) (path : String) :
    m Bool := do
  return (← fs.kind? path).isSome

/-! ### File trees -/

/-- Files and directories below a root, each given by the names on the way to it. -/
structure FileTree where
  files : List (List String × ByteArray)
  /-- Directories that exist without a file in them. -/
  directories : List (List String) := []
  /-- Where relative paths start. -/
  workingDirectory : List String := []

namespace FileTree

/-- The tree as it stands in a directory with the given name below the root. -/
def within (directory : String) (t : FileTree) : FileTree where
  files := t.files.map fun f => (directory :: f.1, f.2)
  directories := t.directories.map (directory :: ·)
  workingDirectory := directory :: t.workingDirectory

/-- The names on the way along a path. -/
def namesOf (path : String) : List String :=
  ((Path.pieces path).map String.ofList).filter fun name => !(name.isEmpty || name = ".")

/-- All directories except the root. -/
def allDirectories (t : FileTree) : List (List String) :=
  let within := (t.files.map fun f => f.1.dropLast) ++ t.directories
  within.flatMap fun names => (List.range names.length).map fun i => names.take (i + 1)

/-- What stands at the end of the given names. -/
def kindAt? (t : FileTree) (names : List String) : Option EntryKind :=
  if names = [] ∨ names ∈ t.allDirectories then some .directory
  else if t.files.any fun f => f.1 = names then some .file
  else none

/-- Follows the pieces of a path from a directory.  Every piece but the first starts at a
directory. -/
def follow? (t : FileTree) (names : List String) : List String → Option (List String)
  | [] => some names
  | piece :: pieces =>
    if t.kindAt? names = some .directory then
      if piece.isEmpty || piece = "." then t.follow? names pieces
      else if piece = ".." then t.follow? names.dropLast pieces
      else t.follow? (names ++ [piece]) pieces
    else none

/-- The names on the way to what a path means. -/
def resolve? (t : FileTree) (path : String) : Option (List String) :=
  if path.isEmpty then none
  else t.follow? (if path.startsWith "/" then [] else t.workingDirectory)
    ((Path.pieces path).map String.ofList)

/-- The names in a directory. -/
def namesAt (t : FileTree) (names : List String) : List String :=
  let below := t.files.map (·.1) ++ t.allDirectories
  distinct (below.filterMap fun entry =>
    if entry.dropLast = names then entry.getLast? else none)

/-- The file system that a file tree is. -/
def toFileSystem (t : FileTree) : FileSystem Id where
  kind? path := (t.resolve? path).bind t.kindAt?
  names path := ((t.resolve? path).map t.namesAt).getD []
  contents? path :=
    (t.resolve? path).bind fun names => (t.files.find? fun f => f.1 = names).map (·.2)

end FileTree

end SchemaReview
