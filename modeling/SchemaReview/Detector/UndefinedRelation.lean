import SchemaReview.Scope.Column
import SchemaReview.Ddl.Alteration
import SchemaReview.Ddl.TableConstraint
import SchemaReview.Finding.Basic
import SchemaReview.Sequence

/-!
# Detector.UndefinedRelation — the same column in several tables without a foreign key

Definitions with the same name and type form a group, unless they mention a constraint.  A group
is left out when every occurrence is a primary key column, or when its tables and its column occur
both at the child end and at the parent end of foreign keys.
-/

namespace SchemaReview

/-- A table and a column, both by key. -/
structure ColumnRef where
  tableKey : String
  columnKey : String
deriving DecidableEq, Repr

/-- The child and parent ends of the column pairs of foreign keys. -/
structure ForeignKeyEnds where
  children : List ColumnRef
  parents : List ColumnRef
deriving DecidableEq, Repr

namespace ForeignKeyEnds

/-- The ends of one foreign key of a table.  A target column that is left out has the name of the
referencing one. -/
def ofForeignKey (tableKey : String) (fk : ForeignKey) : ForeignKeyEnds :=
  { children := fk.columns.map fun c => ⟨tableKey, c⟩
    parents := fk.columns.mapIdx fun i c => ⟨fk.tableKey, (fk.targets[i]?).getD c⟩ }

/-- The ends of several foreign keys. -/
def join (ends : List ForeignKeyEnds) : ForeignKeyEnds :=
  ⟨ends.flatMap (·.children), ends.flatMap (·.parents)⟩

end ForeignKeyEnds

/-- The foreign keys of an item: the inline one of a column, or the table-level ones. -/
def TableItem.foreignKeys (item : TableItem) : List ForeignKey :=
  match Column.ofText? item.piece.text with
  | some column => column.reference?.toList
  | none => SchemaReview.foreignKeys item.piece.text

/-- The primary key columns of an item. -/
def TableItem.primaryKeyRefs (item : TableItem) : List ColumnRef :=
  match Column.ofText? item.piece.text with
  | some column => if column.isPrimaryKey then [⟨item.table.key, column.key⟩] else []
  | none => ((primaryKeyColumns? item.piece.text).getD []).map fun c => ⟨item.table.key, c⟩

namespace Source

/-- The ends of all declared foreign keys. -/
def foreignKeyEnds (s : Source) : ForeignKeyEnds :=
  .join <|
    (s.items.flatMap fun item =>
      item.foreignKeys.map (ForeignKeyEnds.ofForeignKey item.table.key)) ++
    s.addedForeignKeys.map fun a => ForeignKeyEnds.ofForeignKey (nameKey a.table) a.foreignKey

/-- The primary key columns of all tables. -/
def primaryKeyRefs (s : Source) : List ColumnRef := s.items.flatMap TableItem.primaryKeyRefs

/-- The definitions that mention no constraint. -/
def plainColumns (s : Source) : List DeclaredColumn :=
  s.columns.filter fun c => !mentionsConstraint c.piece.text

end Source

/-- The finding for the definitions of one column and type, given the primary key columns and the
ends of the foreign keys. -/
def undefinedRelation? (s : Source) (primary : List ColumnRef) (ends : ForeignKeyEnds)
    (column : String) (uses : List DeclaredColumn) : Option Finding :=
  let tables := sortedSet (uses.map (·.table.key))
  let isPrimary := fun (t : String) => primary.contains ⟨t, column⟩
  let related := (tables.any fun t => ends.children.contains ⟨t, column⟩) &&
    tables.any fun t => ends.parents.contains ⟨t, column⟩
  match uses with
  | [] => none
  | first :: _ =>
    if tables.length < 2 || tables.all isPrimary || related then none
    else
      let typeName := lowerString first.column.type.display
      let names := ", ".intercalate (sortedSet (uses.map (·.table.name)))
      let notes := uses.map fun u =>
        let flag := if isPrimary u.table.key then " (PK)" else ""
        (⟨s!"table '{u.table.name}', line {u.piece.line}{flag}", s.spanOf u.piece⟩ : Note)
      some <|
        Finding.new .info .undefinedRelation
            (s!"Column '{column}' (type {typeName}) appears in tables {names} " ++
              "without a declared relation")
          |>.withSpan (s.spanOf first.piece)
          |>.withColumns [column]
          |>.withNotes notes
          |>.withHelp
            "Check the business rules and, if needed, connect the tables with a FOREIGN KEY"

/-- Columns with the same name and type in several tables without a foreign key. -/
def undefinedRelations (s : Source) : List Finding :=
  let primary := s.primaryKeyRefs
  let ends := s.foreignKeyEnds
  (groupBy (fun c => (c.column.key, c.column.type.key)) s.plainColumns).filterMap
    fun ((column, _), uses) => undefinedRelation? s primary ends column uses

end SchemaReview
