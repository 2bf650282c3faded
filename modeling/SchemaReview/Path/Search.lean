import SchemaReview.Path.FileSystem
import SchemaReview.Path.Pattern

/-!
# Path.Search — the paths that match a pattern

Directories are searched from the top down, and the names in each in alphabetical order.  What lies
below a directory comes right after the directory itself.
-/

namespace SchemaReview.FileSystem

open SchemaReview.Path

variable {m : Type → Type} [Monad m] (fs : FileSystem m) (directoriesOnly : Bool)

/-- The path as a match, unless only directories may match. -/
def accept (path : String) : m (List String) := do
  if !directoriesOnly then return [path]
  return if ← fs.isDirectory path then [path] else []

/-- The path means the directory where the search starts. -/
def isStart (path : String) : Bool :=
  match pieces path with
  | first :: rest => first == ['.'] && rest.all fun p => p == ['.'] || p.isEmpty
  | [] => false

/-- The path of something in a directory; the start itself is not named. -/
def below (directory name : String) : String :=
  if isStart directory then name else join directory name

/-- Goes on with the components that are left at a matching path. -/
def proceed (next : String → List Component → m (List String)) (path : String)
    (rest : List Component) : m (List String) :=
  if rest.isEmpty then fs.accept directoriesOnly path else next path rest

/-- The matches at or below a path whose name must match the first component. -/
def visitNamed (next : String → List Component → m (List String)) (path name : String) :
    List Component → m (List String)
  | .name ws :: rest =>
    if matchesName ws name.toList then fs.proceed directoriesOnly next path rest else pure []
  | _ => pure []

/-- The matches at or below a path in a searched directory. -/
def visit (next : String → List Component → m (List String)) (path name : String) :
    List Component → m (List String)
  | .recursive :: rest => do
    let rest := rest.dropWhile (· = .recursive)
    let here ← fs.visitNamed directoriesOnly next path name rest
    if ← fs.isDirectory path then
      let deeper ← next path (.recursive :: rest)
      return (if rest.isEmpty then [path] else here) ++ deeper
    else return here
  | components => fs.visitNamed directoriesOnly next path name components

/-- The matches below a directory.  A component without wildcards is looked up; otherwise the
names of the directory are visited, and before them the directory itself and the one above it when
the component begins with a dot. -/
def searchFrom : Nat → String → List Component → m (List String)
  | 0, _, _ => pure []
  | _ + 1, _, [] => pure []
  | fuel + 1, directory, component :: rest => do
    let next := searchFrom fuel
    let isDirectory ← fs.isDirectory directory
    let literal := match component with
      | .name ws => literal? ws
      | .recursive => none
    match literal with
    | some name =>
      let path := below directory name
      let found ← if name = "." ∨ name = ".." then pure isDirectory else fs.occupied path
      if found then fs.proceed directoriesOnly next path rest else return []
    | none =>
      if !isDirectory then return []
      let special := match component with
        | .name (.char '.' :: ws) =>
          ["..", "."].filter fun (s : String) => matchesName (.char '.' :: ws) s.toList
        | _ => []
      let above ← special.mapM fun s => fs.proceed directoriesOnly next (join directory s) rest
      let names := (← fs.names directory).mergeSort fun a b => decide (a ≤ b)
      let inside ← names.mapM fun name =>
        fs.visit directoriesOnly next (below directory name) name (component :: rest)
      return (above ++ inside).flatten

/-- The greatest length of a path, which bounds how deep a search can go. -/
def longestPath : Nat := 4096

/-- The paths that match a pattern. -/
def search (pattern : PathPattern) : m (List String) :=
  fs.searchFrom pattern.directoriesOnly (longestPath + pattern.components.length)
    (if pattern.absolute then "/" else ".") pattern.components

/-- The paths that an entry of a list of files stands for: itself, or the matches when it is a
pattern.  There are none when the pattern cannot be read. -/
def expand? (entry : String) : m (Option (List String)) :=
  if isPattern entry then
    match PathPattern.ofString? entry with
    | some pattern => do return some (← fs.search pattern)
    | none => pure none
  else pure (some [entry])

end SchemaReview.FileSystem
