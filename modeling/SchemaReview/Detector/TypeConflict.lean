import SchemaReview.Scope.Column
import SchemaReview.Finding.Basic
import SchemaReview.Sequence

/-!
# Detector.TypeConflict — one column name with several types
-/

namespace SchemaReview

/-- The note that shows one definition of a column. -/
def typeNote (s : Source) (c : DeclaredColumn) : Note :=
  let span := s.columnSpan c
  ⟨s!"table '{c.table.name}' (line {span.line}): type {c.column.type.key}", span⟩

/-- The finding for the definitions of one column, when their types differ.  The definitions are
listed type by type, in order of first appearance. -/
def typeConflict? (s : Source) (key : String) (uses : List DeclaredColumn) : Option Finding :=
  let types := groupBy (fun c => c.column.type.key) uses
  match types.flatMap (·.2) with
  | [] => none
  | first :: others =>
    if types.length < 2 then none
    else
      let name := lowerString ((uses.head?.map (·.column.name)).getD "")
      some <|
        Finding.new .warning .conflictingColumnTypes
            s!"Column '{name}' has conflicting data type declarations"
          |>.withSpan (s.columnSpan first)
          |>.withColumns [key]
          |>.withNotes ((first :: others).map (typeNote s))
          |>.withHelp ("Check the business rules and, if the columns mean the same thing, " ++
            "declare them with one data type")

/-- Columns declared with different types; sizes are part of the type. -/
def typeConflicts (s : Source) : List Finding :=
  (groupBy (fun c => c.column.key) s.columns).filterMap fun (key, uses) => typeConflict? s key uses

end SchemaReview
