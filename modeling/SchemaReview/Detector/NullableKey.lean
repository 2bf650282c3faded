import SchemaReview.Scope.Item
import SchemaReview.Ddl.Column
import SchemaReview.Ddl.TableConstraint
import SchemaReview.Finding.Basic

/-!
# Detector.NullableKey — primary key columns that allow null values

An inline primary key is judged on its own definition.  A table-level one is judged on the
definitions that stand before it.
-/

namespace SchemaReview

/-- A column definition that has been read. -/
structure SeenColumn where
  tableKey : String
  columnKey : String
  name : String
  notNull : Bool
  piece : Piece
deriving DecidableEq, Repr

/-- The latest definition of a column, where `seen` has the latest first. -/
def seenColumn? (seen : List SeenColumn) (tableKey columnKey : String) : Option SeenColumn :=
  seen.find? fun c => c.tableKey = tableKey ∧ c.columnKey = columnKey

/-- The finding for an inline primary key. -/
def inlineNullableKey (s : Source) (item : TableItem) (column : Column) : Finding :=
  let span := s.spanOf item.piece
  Finding.new .error .nullablePrimaryKey
      (s!"Column '{column.name}' in table '{item.table.name}' (line {span.line}) " ++
        "is declared PRIMARY KEY without NOT NULL")
    |>.withSpan span
    |>.withTable item.table.name
    |>.withColumns [column.key]
    |>.withHelp "Make sure no primary key column accepts NULL"

/-- The finding for a column listed in a table-level primary key. -/
def listedNullableKey (s : Source) (item : TableItem) (column : SeenColumn) : Finding :=
  let span := s.spanOf column.piece
  Finding.new .error .nullablePrimaryKey
      (s!"Column '{column.name}' in table '{item.table.name}' (line {span.line}) " ++
        "is part of the PRIMARY KEY but is not declared NOT NULL")
    |>.withSpan span
    |>.withNote "primary key declared here" (s.spanOf item.piece)
    |>.withTable item.table.name
    |>.withColumns [column.columnKey]
    |>.withHelp "A primary key must not contain NULL values"

/-- The findings for the columns of a table-level primary key. -/
def listedNullableKeys (s : Source) (seen : List SeenColumn) (item : TableItem) : List Finding :=
  ((primaryKeyColumns? item.piece.text).getD []).filterMap fun key =>
    match seenColumn? seen item.table.key key with
    | some column => if column.notNull then none else some (listedNullableKey s item column)
    | none => none

/-- The findings of the items after the definitions in `seen`. -/
def nullableKeysFrom (s : Source) (seen : List SeenColumn) : List TableItem → List Finding
  | [] => []
  | item :: items =>
    match Column.ofText? item.piece.text with
    | some column =>
      let notNull := column.isNotNull
      let here :=
        if column.isPrimaryKey && !notNull then [inlineNullableKey s item column] else []
      here ++ nullableKeysFrom s
        (⟨item.table.key, column.key, column.name, notNull, item.piece⟩ :: seen) items
    | none => listedNullableKeys s seen item ++ nullableKeysFrom s seen items

/-- Primary key columns that allow null values. -/
def nullableKeys (s : Source) : List Finding := nullableKeysFrom s [] s.items

end SchemaReview
