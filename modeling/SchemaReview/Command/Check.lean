import SchemaReview.Command.Outcome
import SchemaReview.Command.Workspace
import SchemaReview.Report.Findings

/-!
# Command.Check — reviewing scripts

The plan of a check is made first: settings, detectors and files.  Then the scripts are read in
order up to the first that cannot be read, and the reports on those before it are printed.
-/

namespace SchemaReview.Command

variable {m : Type → Type} [Monad m]

/-! ### The plan -/

/-- What a check is going to do. -/
structure Plan where
  settings : Settings
  review : Review
  /-- The paths of the scripts. -/
  paths : List String

/-- The format of the reports. -/
def Plan.format (p : Plan) : ReportFormat := p.settings.format.getD .human

/-- The paths that the entries of a list of files stand for. -/
def expandAll (w : Workspace m) : List String → ExceptT Failure m (List String)
  | [] => pure []
  | entry :: entries => do
    match ← ExceptT.lift (w.expand entry) with
    | none => throw (.pattern entry)
    | some paths => return paths ++ (← expandAll w entries)

/-- The plan of a check. -/
def plan (w : Workspace m) (given : Settings) (config : Option String) :
    ExceptT Failure m Plan := do
  match ← ExceptT.lift (w.configuration config) with
  | none => throw .configuration
  | some base =>
    let settings := base.override given
    match settings.review with
    | .error e => throw (.selection e)
    | .ok review =>
      let paths ← expandAll w settings.files
      if paths.isEmpty then throw .noFiles
      if review.detectors.isEmpty then throw .noDetectors
      return ⟨settings, review, paths⟩

/-! ### The scripts -/

/-- A script that has been read. -/
structure LoadedScript where
  path : String
  text : String
deriving DecidableEq, Repr

/-- Reads scripts in order up to the first that cannot be read. -/
def loadScripts (w : Workspace m) : List String → m (List LoadedScript × Option Failure)
  | [] => pure ([], none)
  | path :: paths => do
    match ← w.load path with
    | .error e => return ([], some (.script path e))
    | .ok text =>
      let (scripts, failure) ← loadScripts w paths
      return (⟨path, text⟩ :: scripts, failure)

/-- The findings in a script, without the disabled ones. -/
def Plan.findings (p : Plan) (s : LoadedScript) : List Finding :=
  (p.review.run s.text).filter fun f => !p.settings.isDisabled f

/-- A script with its findings. -/
structure ReviewedScript extends LoadedScript where
  findings : List Finding
deriving DecidableEq, Repr

/-- Reviews a script. -/
def Plan.reviewed (p : Plan) (s : LoadedScript) : ReviewedScript := ⟨s, p.findings s⟩

/-- What the report on a script prints. -/
def ReviewedScript.output (s : ReviewedScript) : ReportFormat → String
  | .human => ""
  | .text => Report.plain s.path s.findings
  | .json => Report.json s.path s.findings
  | .sarif => Report.sarif s.path s.findings

/-- What the report on a script prints to the error stream. -/
def ReviewedScript.messages (s : ReviewedScript) : ReportFormat → String
  | .human => Report.human s.path s.text s.findings
  | .text | .json | .sarif => ""

/-! ### The outcome -/

/-- The number of findings of a severity. -/
def countOf (severity : Severity) (findings : List Finding) : Nat :=
  findings.countP fun f => f.severity = severity

/-- The last line of a human report. -/
def summary (findings : List Finding) (files : Nat) : String :=
  if findings.isEmpty then "No issues found in " ++ toString files ++ " file(s)\n"
  else
    "Found " ++ toString (countOf .error findings) ++ " error(s), " ++
      toString (countOf .warning findings) ++ " warning(s), " ++
      toString (countOf .info findings) ++ " note(s) in " ++ toString files ++ " file(s)\n"

/-- The outcome of a check of which the given scripts were read. -/
def Plan.outcome (p : Plan) (quiet : Bool) (scripts : List LoadedScript)
    (failure : Option Failure) : Outcome :=
  let reviewed := scripts.map p.reviewed
  let output := String.join (reviewed.map (·.output p.format))
  let messages := String.join (reviewed.map (·.messages p.format))
  match failure with
  | some f => f.outcome output messages
  | none =>
    let findings := reviewed.flatMap (·.findings)
    let closing :=
      if quiet ∨ p.format ≠ .human then "" else summary findings p.paths.length
    let exit := if findings.any fun f => f.severity = .error then Exit.defects else .clean
    ⟨exit, output, messages ++ closing⟩

/-- Reviews scripts. -/
def check (w : Workspace m) (quiet : Bool) (given : Settings) (config : Option String) :
    m Outcome := do
  match ← (plan w given config).run with
  | .error f => return f.outcome "" ""
  | .ok p =>
    let (scripts, failure) ← loadScripts w p.paths
    return p.outcome quiet scripts failure

end SchemaReview.Command
