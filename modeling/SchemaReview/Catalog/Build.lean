import SchemaReview.Catalog.Basic
import SchemaReview.Ddl.Alteration
import SchemaReview.Ddl.Check
import SchemaReview.Ddl.Column
import SchemaReview.Ddl.Index
import SchemaReview.Ddl.TableConstraint
import SchemaReview.Scope.Item

/-!
# Catalog.Build — reading scripts into a catalog

Text that is not recognized is skipped, so reading never fails.  Scripts can be read one after the
other into the same catalog.
-/

namespace SchemaReview

/-- A foreign key as it is kept in a catalog. -/
def ForeignKey.toCatalog (fk : ForeignKey) (name : Option String) (origin : ForeignKeyOrigin)
    (line : Nat) : CatalogForeignKey :=
  ⟨name, fk.columns, fk.table, fk.targets, fk.cascades, origin, line⟩

namespace CatalogTable

/-- Adds the checks of an item. -/
def readChecks (s : Source) (piece : Piece) (t : CatalogTable) : CatalogTable :=
  let name := constraintName? piece.text
  { t with checks := t.checks ++ (SchemaReview.checks piece.text).map fun check =>
      ⟨name, String.ofList check.expression, s.lineOf (piece.offset + check.offset)⟩ }

/-- The column that a definition declares. -/
def columnOf (line : Nat) (c : Column) : CatalogColumn :=
  { name := c.name
    type := c.type
    nullable := !c.isNotNull
    default := c.default?.map DefaultValue.ofText
    primaryKey := c.isPrimaryKey
    unique := c.isUnique
    line := line }

/-- Adds a column with the keys that its definition declares. -/
def readColumn (s : Source) (piece : Piece) (c : Column) (t : CatalogTable) : CatalogTable :=
  let t :=
    if c.isUnique then { t with uniques := t.uniques ++ [⟨none, [c.key], piece.line⟩] } else t
  let t := if c.isPrimaryKey then t.extendPrimaryKey none [c.key] piece.line else t
  let t := match c.reference? with
    | some fk =>
      let added := fk.toCatalog none .inline (s.lineOf (piece.offset + fk.offset))
      { t with foreignKeys := t.foreignKeys ++ [added] }
    | none => t
  t.addColumn (columnOf piece.line c)

/-- Adds the keys of a constraint clause. -/
def readConstraint (s : Source) (piece : Piece) (t : CatalogTable) : CatalogTable :=
  let name := constraintName? piece.text
  let t := match primaryKeyColumns? piece.text with
    | some columns => t.extendPrimaryKey name columns piece.line
    | none => t
  { t with
    uniques := t.uniques ++
      (uniqueColumnLists piece.text).map fun columns => ⟨name, columns, piece.line⟩
    foreignKeys := t.foreignKeys ++
      (SchemaReview.foreignKeys piece.text).map fun fk =>
        fk.toCatalog name .table (s.lineOf (piece.offset + fk.offset)) }

/-- Adds what an item of the table body declares. -/
def readItem (s : Source) (piece : Piece) (t : CatalogTable) : CatalogTable :=
  let t := t.readChecks s piece
  match Column.ofText? piece.text with
  | some c => t.readColumn s piece c
  | none => t.readConstraint s piece

end CatalogTable

namespace Catalog

/-- Adds what a scope event declares. -/
def readEvent (s : Source) (c : Catalog) : ScopeEvent → Catalog
  | .enter table => c.addTable { name := table.name, line := table.line }
  | .item table piece => c.modifyTable table.name (CatalogTable.readItem s piece)
  | .exit .. => c

/-- Adds an index. -/
def readIndex (c : Catalog) (i : Index) : Catalog :=
  { c with indexes := c.indexes ++ [⟨i.name, i.table, i.unique, i.columns, i.line⟩] }

/-- Adds a foreign key of an `ALTER TABLE` statement to its table, if the table is known. -/
def readAddedForeignKey (c : Catalog) (a : AddedForeignKey) : Catalog :=
  c.modifyTable a.table fun t =>
    { t with foreignKeys := t.foreignKeys ++ [a.foreignKey.toCatalog none .alterTable a.line] }

/-- Adds what a source declares: table bodies first, then indexes, then altered tables. -/
def readSource (c : Catalog) (s : Source) : Catalog :=
  let c := (s.scopeEvents .replace).foldl (readEvent s) c
  let c := s.indexes.foldl readIndex c
  s.addedForeignKeys.foldl readAddedForeignKey c

/-- Adds what a script declares. -/
def read (c : Catalog) (sql : String) : Catalog := c.readSource (Source.ofString sql)

/-- The catalog of one script. -/
def ofScript (sql : String) : Catalog := read {} sql

end Catalog

end SchemaReview
