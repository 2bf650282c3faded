import SchemaReview.Scope.Item
import SchemaReview.Ddl.Column

/-!
# Scope.Column — the column definitions of a source, with their tables
-/

namespace SchemaReview

/-- A column definition, the item it was read from and the table it belongs to. -/
structure DeclaredColumn where
  table : TableDecl
  piece : Piece
  column : Column
deriving DecidableEq, Repr

/-- The column that an item defines. -/
def TableItem.column? (item : TableItem) : Option DeclaredColumn :=
  (Column.ofText? item.piece.text).map fun column => ⟨item.table, item.piece, column⟩

/-- The column definitions of a source, in script order. -/
def Source.columns (s : Source) : List DeclaredColumn := s.items.filterMap TableItem.column?

/-- The span of a column's name. -/
def Source.columnSpan (s : Source) (c : DeclaredColumn) : Span :=
  s.spanAt c.piece.offset c.column.name.utf8ByteSize

end SchemaReview
