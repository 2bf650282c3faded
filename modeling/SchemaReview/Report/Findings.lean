import SchemaReview.Finding.Basic
import SchemaReview.Program
import SchemaReview.Report.Json

/-!
# Report.Findings — the findings of a script as text, JSON and SARIF

The human report shows each finding with its source line and underlines the place.  The plain
report gives the text of each finding.  JSON holds every field, SARIF the fields that code-scanning
tools show.
-/

namespace SchemaReview.Report

/-! ### Human -/

/-- The word for a severity in its colour. -/
def coloured (s : Severity) : String :=
  match s with
  | .error => "\x1b[31m" ++ s.name ++ "\x1b[0m"
  | .warning => "\x1b[33m" ++ s.name ++ "\x1b[0m"
  | .info => "\x1b[34m" ++ s.name ++ "\x1b[0m"

/-- The lines of `t` without their ends, where `line` holds the current one, last character first.
A line ends with a line feed; a carriage return right before it belongs to the end. -/
def shownLinesFrom (line : Text) : Text → List Text
  | [] => if line.isEmpty then [] else [line.reverse]
  | c :: cs =>
    if c = '\n' then
      (if line.head? = some '\r' then line.tail else line).reverse :: shownLinesFrom [] cs
    else shownLinesFrom (c :: line) cs

/-- The lines of a script as they are shown. -/
def shownLines (t : Text) : List Text := shownLinesFrom [] t

/-- The shown line with the given number, counted from one. -/
def shownLine? (t : Text) (number : Nat) : Option Text :=
  if number = 0 then none else (shownLines t)[number - 1]?

/-- The number of spaces before the underline. -/
def underlineStart (span : Span) : Nat := max span.column 1 - 1

/-- The length of the underline: the length of the span as far as the line reaches, at least
one. -/
def underlineLength (span : Span) (line : Text) : Nat :=
  max (min span.length (line.byteSize - underlineStart span)) 1

/-- The lines that show the place of a finding. -/
def excerpt (span : Span) (line : Text) : List String :=
  ["   |",
    alignRight 3 (toString span.line) ++ " | " ++ String.ofList line,
    "   | " ++ spaces (underlineStart span) ++
      String.ofList (List.replicate (underlineLength span line) '^')]

/-- The lines that say where a finding is. -/
def location (file : String) (script : Text) (span : Span) : List String :=
  ("  --> " ++ file ++ ":" ++ toString span.line ++ ":" ++ toString span.column) ::
    match shownLine? script span.line with
    | some line => excerpt span line
    | none => []

/-- The lines of a finding, with a blank line at the end. -/
def humanLines (file : String) (script : Text) (f : Finding) : List String :=
  [coloured f.severity ++ "[" ++ f.code ++ "]: " ++ f.message] ++
    (match f.span with
      | some span => location file script span
      | none => []) ++
    (f.notes.map fun n => "   = note: " ++ n.message) ++
    (match f.help with
      | some help => ["   = help: " ++ help]
      | none => []) ++
    [""]

/-- The human report on a script. -/
def human (file script : String) (findings : List Finding) : String :=
  unlines (findings.flatMap (humanLines file script.toList))

/-! ### Plain -/

/-- The plain report on a script. -/
def plain (file : String) (findings : List Finding) : String :=
  let body :=
    if findings.isEmpty then "No issues found."
    else "\n\n".intercalate (findings.map Finding.render)
  unlines [file ++ ":", body, ""]

/-! ### JSON -/

/-- A span with its fields in alphabetical order. -/
def spanJson (s : Span) : Json :=
  .object [("column", .number s.column), ("length", .number s.length), ("line", .number s.line),
    ("offset", .number s.offset)]

/-- A finding with its fields in alphabetical order. -/
def findingJson (f : Finding) : Json :=
  .object
    [("columns", .ofStrings f.columns),
      ("help", .ofString? f.help),
      ("index", .ofString? f.index),
      ("kind", .string f.kind.tag),
      ("labels", .array (f.notes.map fun n =>
        .object [("message", .string n.message), ("span", spanJson n.span)])),
      ("message", .string f.message),
      ("severity", .string f.severity.name),
      ("span", match f.span with
        | some span => spanJson span
        | none => .null),
      ("table", .ofString? f.table)]

/-- The JSON report on a script. -/
def json (file : String) (findings : List Finding) : String :=
  unlines
    [(Json.object
      [("diagnostics", .array (findings.map findingJson)), ("file", .string file)]).render]

/-! ### SARIF -/

/-- The SARIF level of a severity. -/
def sarifLevel : Severity → String
  | .error => "error"
  | .warning => "warning"
  | .info => "note"

/-- The place of a finding; columns count from one. -/
def sarifLocation (file : String) (span : Option Span) : Json :=
  let artifact := ("artifactLocation", Json.object [("uri", .string file)])
  let region := match span with
    | some s =>
      [("region", Json.object
        [("startColumn", .number (max s.column 1)), ("startLine", .number s.line)])]
    | none => []
  .object [("physicalLocation", .object (artifact :: region))]

/-- A finding as a result. -/
def sarifResult (file : String) (f : Finding) : Json :=
  .object
    [("level", .string (sarifLevel f.severity)),
      ("locations", .array [sarifLocation file f.span]),
      ("message", .object [("text", .string f.render)]),
      ("ruleId", .string f.code)]

/-- The schema that SARIF reports follow. -/
def sarifSchema : String :=
  "https://raw.githubusercontent.com/oasis-tcs/sarif-spec/master/Schemata/sarif-schema-2.1.0.json"

/-- The SARIF report on a script. -/
def sarif (file : String) (findings : List Finding) : String :=
  let tool := Json.object
    [("driver", .object [("name", .string programName), ("version", .string programVersion)])]
  unlines
    [(Json.object
      [("$schema", .string sarifSchema),
        ("runs", .array
          [.object [("results", .array (findings.map (sarifResult file))), ("tool", tool)]]),
        ("version", .string "2.1.0")]).render]

end SchemaReview.Report
