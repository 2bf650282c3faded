import SchemaReview.Scope.TableKeys
import SchemaReview.Ddl.Index
import SchemaReview.Finding.Basic

/-!
# Detector.CandidateKey — tables without a key, and surrogate keys without an alternative
-/

namespace SchemaReview

/-- No primary key, no unique clause and no unique index; inline uniqueness does not count. -/
def lacksKey (indexes : List Index) (t : TableKeys) : Bool :=
  t.primaryKey.isEmpty && t.uniques.all (·.inline) &&
    !(indexes.any fun i => i.unique && decide (i.tableKey = t.key))

/-- The finding for a table without a key. -/
def missingKey (t : TableKeys) : Finding :=
  Finding.new .warning .missingPotentialKey
      (s!"Table '{t.name}' (line {t.line}) has no potential key " ++
        "(no PRIMARY KEY, UNIQUE constraint or UNIQUE INDEX)")
    |>.withSpan t.span
    |>.withTable t.name
    |>.withHelp "Add a PRIMARY KEY, UNIQUE constraint or UNIQUE INDEX to guarantee row uniqueness"

/-- Tables without any guarantee that rows are unique. -/
def missingKeys (s : Source) : List Finding :=
  let indexes := s.indexes
  (s.tableKeys.filter (lacksKey indexes)).map missingKey

/-- The name of a surrogate key: `ID`, or anything that ends in `_ID`. -/
def isSurrogateKey (column : Text) : Bool :=
  let name := Text.upper column
  name == "ID".toList || "_ID".toList.isSuffixOf name

/-- Some unique key or unique index of the table has other columns than the primary key. -/
def hasAlternateKey (indexes : List Index) (t : TableKeys) : Bool :=
  let primary := sortedSet t.primaryKey
  (t.uniques.any fun u => decide (sortedSet u.columns ≠ primary)) ||
    indexes.any fun i =>
      i.unique && decide (i.tableKey = t.key) && decide (sortedSet i.columns ≠ primary)

/-- The finding for a table whose only key is a surrogate. -/
def missingAlternate (t : TableKeys) (column : String) : Finding :=
  Finding.new .info .missingAlternateKey
      s!"Table '{t.name}' has surrogate primary key '{column}' without an alternate key"
    |>.withSpan t.span
    |>.withTable t.name
    |>.withColumns [column]
    |>.withHelp ("Create an alternate key (UNIQUE constraint or UNIQUE INDEX) on the columns " ++
      "that make rows unique in business terms")

/-- Tables whose primary key is one surrogate column and that have no other key. -/
def missingAlternates (s : Source) : List Finding :=
  let indexes := s.indexes
  s.tableKeys.filterMap fun t =>
    match t.primaryKey with
    | [column] =>
      if isSurrogateKey column.toList && !hasAlternateKey indexes t then
        some (missingAlternate t column)
      else none
    | _ => none

end SchemaReview
