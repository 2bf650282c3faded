import SchemaReview.Finding.Basic
import SchemaReview.Keyed
import SchemaReview.Scope.Column

/-!
# Detector.SelfReference — self-references through columns that forbid null values

A hierarchy needs a root row whose parent is null.
-/

namespace SchemaReview

/-- A column of a foreign key that references its own table. -/
structure SelfReference where
  table : TableDecl
  columnKey : String
  span : Span
deriving DecidableEq, Repr

/-- The foreign keys of an item: table-level ones first, then the inline one. -/
def allForeignKeys (item : TableItem) : List ForeignKey :=
  foreignKeys item.piece.text ++
    match Column.ofText? item.piece.text with
    | some column => column.reference?.toList
    | none => []

/-- The self-references of an item. -/
def selfReferencesOf (s : Source) (item : TableItem) : List SelfReference :=
  ((allForeignKeys item).filter fun fk => fk.tableKey = item.table.key).flatMap fun fk =>
    fk.columns.map fun column => ⟨item.table, column, s.spanAt (item.piece.offset + fk.offset) 0⟩

/-- Notes whether a definition of a column forbids null values.  A definition that does is noted over an
earlier one; one that does not is noted only for a column that is new. -/
def noteNull (noted : Keyed (String × String) Bool) (c : DeclaredColumn) : Keyed (String × String) Bool :=
  if c.column.isNotNull then noted.insert (c.table.key, c.column.key) true
  else noted.insertNew (c.table.key, c.column.key) false

/-- What is noted of each column after all definitions, by the keys of table and column. -/
def notedNulls (columns : List DeclaredColumn) : Keyed (String × String) Bool := columns.foldl noteNull []

/-- The column is noted as one that forbids null values. -/
def declaredNotNull (columns : List DeclaredColumn) (tableKey columnKey : String) : Bool :=
  ((notedNulls columns).get? (tableKey, columnKey)).getD false

/-- The finding for a self-reference. -/
def selfReferenceFinding (r : SelfReference) : Finding :=
  Finding.new .error .nonNullableSelfReference
      (s!"Table '{r.table.name}' references itself through column '{r.columnKey}', " ++
        "which is declared NOT NULL")
    |>.withSpan r.span
    |>.withNote "a root row of the hierarchy can never be inserted" r.span
    |>.withTable r.table.name
    |>.withColumns [r.columnKey]
    |>.withHelp s!"Allow NULL in column '{r.columnKey}'"

/-- Self-references through columns that forbid null values. -/
def selfReferences (s : Source) : List Finding :=
  let columns := s.columns
  ((s.items.flatMap (selfReferencesOf s)).filter fun r =>
    declaredNotNull columns r.table.key r.columnKey).map selfReferenceFinding

end SchemaReview
