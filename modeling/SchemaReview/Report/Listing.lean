import SchemaReview.Detector.Basic
import SchemaReview.Report.Layout
import SchemaReview.Scope.Basic

/-!
# Report.Listing — the available detectors, and the scopes and items of a script
-/

namespace SchemaReview.Report

/-- A group with its detectors, and a blank line. -/
def groupLines (g : DetectorGroup) : List String :=
  [g.title ++ " (" ++ g.name ++ ")"] ++
    (g.detectors.map fun d => "  " ++ alignLeft 32 d.id ++ " " ++ d.description) ++ [""]

/-- The available detectors by group. -/
def detectors : String := unlines (DetectorGroup.all.flatMap groupLines)

/-- A line number in front of a text. -/
def numbered (line : Nat) (text : String) : String := alignRight 4 (toString line) ++ ": " ++ text

/-- An event on one line. -/
def eventLine : ScopeEvent → String
  | .enter table => numbered table.line ("enter " ++ table.name)
  | .item _ piece => numbered piece.line ("  " ++ String.ofList piece.text.oneLine)
  | .exit table line => numbered line ("exit " ++ table.name)

/-- The table scopes of a script and the items in them. -/
def scopes (script : String) : String :=
  unlines (((Source.ofString script).scopeEvents .replace).map eventLine)

end SchemaReview.Report
