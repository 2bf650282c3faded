import SchemaReview.Scope.Column
import SchemaReview.Finding.Basic
import SchemaReview.Sequence

/-!
# Detector.ReservedWord — columns named with a reserved word
-/

namespace SchemaReview

/-- Reserved words of the SQL standard that should not name columns. -/
def reservedWords : List String :=
  ["SELECT", "FROM", "WHERE", "TABLE", "INSERT", "UPDATE", "DELETE", "ORDER", "GROUP", "BY",
    "HAVING", "JOIN", "INNER", "OUTER", "LEFT", "RIGHT"]

/-- The word is reserved, whatever its case. -/
def isReservedWord (word : Text) : Bool :=
  reservedWords.any fun w => Text.equalsIgnoringCase w.toList word

/-- The finding for a column with a reserved name. -/
def reservedWordFinding (s : Source) (c : DeclaredColumn) : Finding :=
  let span := s.columnSpan c
  let key := c.column.key
  Finding.new .warning .reservedWordColumn
      (s!"Column '{c.column.name}' in table '{c.table.name}' (line {span.line}) " ++
        s!"uses the ANSI SQL reserved word {key}")
    |>.withSpan span
    |>.withTable c.table.name
    |>.withColumns [key]
    |>.withHelp "Rename the column to avoid conflicts when generating the DBMS schema"

/-- Columns named with a reserved word, each column of a table once.  Quoted names are legal
everywhere and are skipped. -/
def reservedWordColumns (s : Source) : List Finding :=
  let named := s.columns.filter fun c => !c.column.quoted && isReservedWord c.column.name.toList
  (firstBy (fun c => (c.table.key, c.column.key)) named).map (reservedWordFinding s)

end SchemaReview
