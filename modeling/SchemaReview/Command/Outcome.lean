import SchemaReview.Detector.Basic
import SchemaReview.Script.Load

/-!
# Command.Outcome — what a run prints and how it ends
-/

namespace SchemaReview.Command

/-- How a run ends. -/
inductive Exit where
  /-- Nothing serious was found. -/
  | clean
  /-- A finding is an error. -/
  | defects
  /-- The task could not be done. -/
  | failed
deriving DecidableEq, Repr

/-- The exit code. -/
def Exit.code : Exit → Nat
  | .clean => 0
  | .defects => 1
  | .failed => 2

/-- What a run prints and how it ends. -/
structure Outcome where
  exit : Exit := .clean
  output : String := ""
  /-- What goes to the error stream. -/
  messages : String := ""
deriving DecidableEq, Repr

/-- Why a task cannot be done. -/
inductive Failure where
  /-- The arguments make no sense. -/
  | usage
  /-- The configuration file cannot be read or is invalid. -/
  | configuration
  /-- The selection of detectors is invalid. -/
  | selection (e : SelectionError)
  /-- A path pattern cannot be read. -/
  | pattern (entry : String)
  /-- There are no files to review. -/
  | noFiles
  /-- Every selected detector is disabled. -/
  | noDetectors
  /-- A script has no text. -/
  | script (path : String) (e : Script.LoadError)
deriving DecidableEq, Repr

namespace Failure

/-- The wording of a load error. -/
def loadMessage : Script.LoadError → String
  | .missing => "the file cannot be read"
  | .notArchive => "the file is not a valid .docx document"
  | .noBody => "the document has no " ++ Script.bodyName
  | .damagedBody => Script.bodyName ++ " is damaged"
  | .faultyMarkup _ => Script.bodyName ++ " is malformed"

/-- The wording of a failure. -/
def message : Failure → String
  | usage => "invalid arguments"
  | configuration => "the configuration file cannot be read or is invalid"
  | selection e => e.message
  | pattern entry => "invalid pattern: " ++ entry
  | noFiles => "no files to review"
  | noDetectors => "every selected detector is disabled"
  | script path e => path ++ ": " ++ loadMessage e

/-- The outcome of a failed run that has printed something before. -/
def outcome (f : Failure) (output messages : String) : Outcome :=
  ⟨.failed, output, messages ++ "Error: " ++ f.message ++ "\n"⟩

end Failure

end SchemaReview.Command
