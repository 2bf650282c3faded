import SchemaReview.Command.Run

/-!
# Main — the program

Reads the file system and the environment, runs the command and prints its outcome.
-/

namespace SchemaReview

/-- The result of an action, or nothing when it fails. -/
def attempt {α : Type} (action : IO α) : IO (Option α) := do
  try
    return some (← action)
  catch _ => return none

/-- The file system of the machine. -/
def machineFileSystem : FileSystem IO where
  kind? path := do
    let there := System.mkFilePath [path]
    if ← there.isDir then return some .directory
    return if ← there.pathExists then some .file else none
  names path := do
    let entries ← attempt (System.mkFilePath [path]).readDir
    return ((entries.getD #[]).map (·.fileName)).toList
  contents? path := attempt (IO.FS.readBinFile (System.mkFilePath [path]))

/-- Runs the program on the machine. -/
def runOnMachine (arguments : List String) : IO Command.Outcome := do
  let directory ← IO.currentDir
  let workspace := Command.Workspace.ofFileSystem machineFileSystem
    (FileTree.namesOf directory.toString)
  Command.run workspace (← IO.getEnv "DDLCHECK_CONFIG") arguments

end SchemaReview

/-- Prints the outcome of a run and returns its exit code. -/
def main (arguments : List String) : IO UInt32 := do
  let outcome ← SchemaReview.runOnMachine arguments
  IO.print outcome.output
  IO.eprint outcome.messages
  return outcome.exit.code.toUInt32
