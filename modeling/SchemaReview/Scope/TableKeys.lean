import SchemaReview.Scope.Item
import SchemaReview.Ddl.Column
import SchemaReview.Ddl.TableConstraint
import SchemaReview.Sequence

/-!
# Scope.TableKeys — the primary and unique keys of each declared table

A table declared twice keeps its first name and line, and the keys of both declarations.
-/

namespace SchemaReview

/-- A set of columns declared unique. -/
structure UniqueKey where
  columns : List String
  /-- Declared with a column rather than in a clause of its own. -/
  inline : Bool
deriving DecidableEq, Repr

/-- The keys of one table. -/
structure TableKeys where
  key : String
  name : String
  line : Nat
  span : Span
  /-- The primary key columns without repetitions, in order of declaration. -/
  primaryKey : List String
  uniques : List UniqueKey
deriving DecidableEq, Repr

namespace TableItem

/-- The primary key columns that an item declares. -/
def primaryKeyColumns (item : TableItem) : List String :=
  match Column.ofText? item.piece.text with
  | some column => if column.isPrimaryKey then [column.key] else []
  | none => (primaryKeyColumns? item.piece.text).getD []

/-- The unique keys that an item declares. -/
def uniqueKeys (item : TableItem) : List UniqueKey :=
  match Column.ofText? item.piece.text with
  | some column => if column.isUnique then [⟨[column.key], true⟩] else []
  | none => (uniqueColumnLists item.piece.text).map fun columns => ⟨columns, false⟩

end TableItem

namespace Source

/-- The keys of a table among the given items, each of which stands behind the key of its
table. -/
def keysOf (s : Source) (items : List (String × TableItem)) (table : TableDecl) : TableKeys :=
  let key := table.key
  let own := (items.filter fun entry => entry.1 = key).map (·.2)
  { key
    name := table.name
    line := table.line
    span := s.spanAt table.offset 0
    primaryKey := distinct (own.flatMap TableItem.primaryKeyColumns)
    uniques := own.flatMap TableItem.uniqueKeys }

/-- The keys of every declared table, in order of first declaration. -/
def tableKeys (s : Source) : List TableKeys :=
  let items := s.items.map fun item => (item.table.key, item)
  (firstBy TableDecl.key s.tables).map (s.keysOf items)

/-- The keys of the table with the given key. -/
def keysFor? (keys : List TableKeys) (table : String) : Option TableKeys :=
  keys.find? fun k => k.key = table

end Source

end SchemaReview
