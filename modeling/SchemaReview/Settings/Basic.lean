import SchemaReview.Review
import SchemaReview.Toml.Document

/-!
# Settings.Basic — what to review and how to report it

Settings come from a configuration file and from the command line.  A selection of detectors on
the command line replaces the configured one; disabled entries add up.
-/

namespace SchemaReview

/-- How findings are written. -/
inductive ReportFormat where
  | human
  | text
  | json
  | sarif
deriving DecidableEq, Repr

namespace ReportFormat

/-- All formats. -/
def all : List ReportFormat := [human, text, json, sarif]

/-- The name of a format. -/
def name : ReportFormat → String
  | human => "human"
  | text => "text"
  | json => "json"
  | sarif => "sarif"

/-- The format with the given name. -/
def ofName? (s : String) : Option ReportFormat := all.find? fun f => f.name = s

end ReportFormat

/-- What to review and how to report it. -/
structure Settings where
  /-- Paths and path patterns of the scripts. -/
  files : List String := []
  /-- Names of detectors to run; all when nothing is selected. -/
  detectors : List String := []
  /-- Names of groups to run. -/
  groups : List String := []
  /-- Names of detectors and codes of findings to leave out. -/
  disable : List String := []
  format : Option ReportFormat := none
deriving DecidableEq, Repr

namespace Settings

/-- The strings of an array. -/
def strings? : Option Toml.Value → Option (List String)
  | none => some []
  | some (.array items) => items.mapM fun
    | .string s => some s
    | _ => none
  | some _ => none

/-- A value without content, as may stand behind the name of a format. -/
def isEmptyValue : Toml.Value → Bool
  | .array items => items.isEmpty
  | .tables items => items.isEmpty
  | .table _ entries => entries.isEmpty
  | .inline _ entries => entries.isEmpty
  | _ => false

/-- The format that a value names: a string, or a table whose only key is the name. -/
def format? : Option Toml.Value → Option (Option ReportFormat)
  | none => some none
  | some (.string s) => (ReportFormat.ofName? s).map some
  | some (.inline _ [(name, v)]) =>
    if isEmptyValue v then (ReportFormat.ofName? name).map some else none
  | some (.table _ [(name, v)]) =>
    if isEmptyValue v then (ReportFormat.ofName? name).map some else none
  | some _ => none

/-- The settings in the entries of a document; unknown keys are ignored. -/
def ofEntries? (entries : Toml.Entries) : Option Settings := do
  let files ← strings? (entries.lookup "files")
  let detectors ← strings? (entries.lookup "detectors")
  let groups ← strings? (entries.lookup "groups")
  let disable ← strings? (entries.lookup "disable")
  let format ← format? (entries.lookup "format")
  some ⟨files, detectors, groups, disable, format⟩

/-- The settings in a configuration file. -/
def ofConfiguration? (content : String) : Option Settings :=
  (Toml.document? content.toList).bind ofEntries?

/-- The settings overridden by those of the command line. -/
def override (base given : Settings) : Settings :=
  let selects := !given.detectors.isEmpty || !given.groups.isEmpty
  { files := if given.files.isEmpty then base.files else given.files
    detectors := if selects then given.detectors else base.detectors
    groups := if selects then given.groups else base.groups
    disable := base.disable ++ given.disable
    format := given.format.or base.format }

/-- The detectors named by the settings; every detector when none is named. -/
def selected (s : Settings) : Except SelectionError (List Detector) := do
  let named ← s.detectors.mapM Detector.ofName
  let groups ← s.groups.mapM DetectorGroup.ofName
  let chosen := named ++ groups.flatMap DetectorGroup.detectors
  return if chosen.isEmpty then Detector.all else chosen

/-- The detectors among the disabled entries. -/
def disabledDetectors (s : Settings) : List Detector :=
  s.disable.filterMap fun entry => (Detector.ofName entry).toOption

/-- The review that the settings ask for. -/
def review (s : Settings) : Except SelectionError Review := do
  let chosen ← s.selected
  return Review.ofDetectors (chosen.filter fun d => !s.disabledDetectors.contains d)

/-- The code of the finding is among the disabled entries. -/
def isDisabled (s : Settings) (f : Finding) : Bool :=
  s.disable.any fun entry => Text.equalsIgnoringCase entry.toList f.code.toList

end Settings

end SchemaReview
