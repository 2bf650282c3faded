import SchemaReview.Path.Search
import SchemaReview.Script.Load
import SchemaReview.Settings.Basic

/-!
# Command.Workspace — what a command reads

A workspace gives the settings of a configuration file, the paths that an entry of a list of files
stands for, and the text of a script.  Every file system with a working directory is one.
-/

namespace SchemaReview.Command

/-- What a command reads, in `m`. -/
structure Workspace (m : Type → Type) where
  /-- The settings of the named configuration file, or of the one that applies when none is named;
  the result is missing when the file cannot be read or is invalid. -/
  configuration : Option String → m (Option Settings)
  /-- The paths that an entry of a list of files stands for, if it can be read. -/
  expand : String → m (Option (List String))
  /-- The text of a script. -/
  load : String → m (Except Script.LoadError String)

variable {m : Type → Type} [Monad m]

/-- The name of a configuration file that nobody names. -/
def configurationName : String := "ddlcheck.toml"

/-- The settings of the configuration file at a path. -/
def settingsAt (fs : FileSystem m) (path : String) : m (Option Settings) := do
  let bytes ← fs.contents? path
  return (bytes.bind String.fromUTF8?).bind Settings.ofConfiguration?

/-- The first path at which something stands. -/
def firstOccupied (fs : FileSystem m) : List String → m (Option String)
  | [] => pure none
  | path :: paths => do
    if ← fs.occupied path then return some path
    firstOccupied fs paths

/-- The settings of the nearest configuration file in the working directory or a directory above
it; the default settings when there is none. -/
def nearestSettings (fs : FileSystem m) (workingDirectory : List String) :
    m (Option Settings) := do
  let candidates := (Path.ancestors workingDirectory).map fun d => Path.join d configurationName
  match ← firstOccupied fs candidates with
  | some path => settingsAt fs path
  | none => return some {}

/-- The workspace in a directory of a file system, given by the names on the way to it. -/
def Workspace.ofFileSystem (fs : FileSystem m) (workingDirectory : List String) : Workspace m where
  configuration
    | some path => settingsAt fs path
    | none => nearestSettings fs workingDirectory
  expand := fs.expand?
  load path := do return Script.load path (← fs.contents? path)

end SchemaReview.Command
