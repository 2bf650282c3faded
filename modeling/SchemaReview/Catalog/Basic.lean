import SchemaReview.Ddl.DeclaredType
import SchemaReview.Ddl.DefaultValue
import SchemaReview.Ddl.Name
import SchemaReview.Keyed
import SchemaReview.Sequence

/-!
# Catalog.Basic — what scripts declare

A catalog holds tables by key and the list of indexes.  A table declared again keeps its first
name and line; a column defined again takes the new definition in the old place.
-/

namespace SchemaReview

/-- A column of a table. -/
structure CatalogColumn where
  name : String
  type : DeclaredType
  nullable : Bool := true
  default : Option DefaultValue := none
  primaryKey : Bool := false
  unique : Bool := false
  line : Nat
deriving DecidableEq, Repr

/-- The primary key of a table. -/
structure PrimaryKey where
  name : Option String
  columns : List String
  line : Nat
deriving DecidableEq, Repr

/-- Where a foreign key was declared. -/
inductive ForeignKeyOrigin where
  /-- With a column. -/
  | inline
  /-- In a clause of the table body. -/
  | table
  /-- By an `ALTER TABLE` statement. -/
  | alterTable
deriving DecidableEq, Repr

/-- The name of an origin. -/
def ForeignKeyOrigin.name : ForeignKeyOrigin → String
  | .inline => "inline"
  | .table => "table"
  | .alterTable => "alter_table"

/-- A foreign key of a table. -/
structure CatalogForeignKey where
  name : Option String
  columns : List String
  targetTable : String
  targetColumns : List String
  cascades : Bool
  origin : ForeignKeyOrigin
  line : Nat
deriving DecidableEq, Repr

/-- A unique constraint of a table. -/
structure UniqueConstraint where
  name : Option String
  columns : List String
  line : Nat
deriving DecidableEq, Repr

/-- A check constraint of a table. -/
structure CheckConstraint where
  name : Option String
  expression : String
  line : Nat
deriving DecidableEq, Repr

/-- A table. -/
structure CatalogTable where
  name : String
  line : Nat
  columns : Keyed String CatalogColumn := []
  primaryKey : Option PrimaryKey := none
  foreignKeys : List CatalogForeignKey := []
  uniques : List UniqueConstraint := []
  checks : List CheckConstraint := []
deriving DecidableEq, Repr

/-- An index declared by a statement of its own. -/
structure CatalogIndex where
  name : String
  table : String
  unique : Bool
  columns : List String
  line : Nat
deriving DecidableEq, Repr

/-- The tables and indexes that scripts declare. -/
structure Catalog where
  tables : Keyed String CatalogTable := []
  indexes : List CatalogIndex := []
deriving DecidableEq, Repr

namespace CatalogTable

/-- The column with the given name, in any case. -/
def column? (t : CatalogTable) (name : String) : Option CatalogColumn :=
  t.columns.get? (nameKey name)

/-- The names of the columns as written. -/
def columnNames (t : CatalogTable) : List String := t.columns.values.map (·.name)

/-- Adds a column; a later definition takes the place of an earlier one. -/
def addColumn (t : CatalogTable) (c : CatalogColumn) : CatalogTable :=
  { t with columns := t.columns.insert (nameKey c.name) c }

/-- Extends the primary key.  It keeps the line of its first declaration and its first name. -/
def extendPrimaryKey (t : CatalogTable) (name : Option String) (columns : List String)
    (line : Nat) : CatalogTable :=
  let old := t.primaryKey.getD ⟨none, [], line⟩
  let extended : PrimaryKey :=
    ⟨old.name.or name, columns.foldl appendNew old.columns, old.line⟩
  { t with primaryKey := some extended }

end CatalogTable

namespace Catalog

/-- Adds a table; a table declared again keeps its first definition. -/
def addTable (c : Catalog) (t : CatalogTable) : Catalog :=
  { c with tables := c.tables.insertNew (nameKey t.name) t }

/-- The table with the given name, in any case. -/
def table? (c : Catalog) (name : String) : Option CatalogTable := c.tables.get? (nameKey name)

/-- Changes the table with the given name, if there is one. -/
def modifyTable (c : Catalog) (name : String) (f : CatalogTable → CatalogTable) : Catalog :=
  { c with tables := c.tables.modify (nameKey name) f }

/-- The names of the tables as written. -/
def tableNames (c : Catalog) : List String := c.tables.values.map (·.name)

/-- The indexes on the table with the given name, in any case. -/
def indexesOn (c : Catalog) (name : String) : List CatalogIndex :=
  c.indexes.filter fun i => nameKey i.table = nameKey name

/-- Every foreign key with its table. -/
def foreignKeys (c : Catalog) : List (CatalogTable × CatalogForeignKey) :=
  c.tables.values.flatMap fun t => t.foreignKeys.map fun fk => (t, fk)

end Catalog

end SchemaReview
