import SchemaReview.Catalog.Build
import SchemaReview.Command.Arguments
import SchemaReview.Command.Check
import SchemaReview.Report.Catalog
import SchemaReview.Report.Listing

/-!
# Command.Run — doing what the arguments ask for
-/

namespace SchemaReview.Command

variable {m : Type → Type} [Monad m]

/-- Prints what a function makes of the text of a script. -/
def showScript (w : Workspace m) (path : String) (describe : String → String) : m Outcome := do
  match ← w.load path with
  | .error e => return (Failure.script path e).outcome "" ""
  | .ok text => return { output := describe text }

/-- The report on what a script declares. -/
def describeSchema (json : Bool) (text : String) : String :=
  let catalog := Catalog.ofScript text
  if json then Report.catalogJson catalog else Report.catalog catalog

/-- Does a task. -/
def Task.perform (w : Workspace m) (quiet : Bool) : Task → m Outcome
  | .check given config => Command.check w quiet given config
  | .list => pure { output := Report.detectors }
  | .schema file json => showScript w file (describeSchema json)
  | .scan file => showScript w file Report.scopes

/-- A summary of the subcommands. -/
def usage : String :=
  Report.unlines
    ["Schema-design review for SQL DDL scripts",
      "",
      "Usage: " ++ programName ++ " [-v]... [-q] <COMMAND>",
      "",
      "Commands:",
      "  check [FILES]... [-d ID] [-g GROUP] [--disable ID|CODE] [-f FORMAT] [-c FILE]",
      "  list",
      "  schema FILE [-f FORMAT]",
      "  scan FILE"]

/-- Answers a request. -/
def Request.perform (w : Workspace m) : Request → m Outcome
  | .run quiet task => task.perform w quiet
  | .version name => pure { output := name ++ " " ++ programVersion ++ "\n" }
  | .help => pure { output := usage }
  | .invalid => pure (Failure.usage.outcome "" "")

/-- Runs the program on arguments; `environment` may name a configuration file. -/
def run (w : Workspace m) (environment : Option String) (arguments : List String) : m Outcome :=
  (Request.ofArguments environment arguments).perform w

/-- Runs the program in a file tree. -/
def runInTree (tree : FileTree) (environment : Option String) (arguments : List String) : Outcome :=
  let workspace : Workspace Id :=
    Workspace.ofFileSystem tree.toFileSystem tree.workingDirectory
  Id.run (run workspace environment arguments)

end SchemaReview.Command
