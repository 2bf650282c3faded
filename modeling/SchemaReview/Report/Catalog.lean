import SchemaReview.Catalog.Basic
import SchemaReview.Report.Json

/-!
# Report.Catalog — what a script declares, as text and JSON
-/

namespace SchemaReview.Report

/-! ### Plain -/

/-- A column with its type and flags. -/
def columnLine (c : CatalogColumn) : String :=
  "    - " ++ c.name ++ " " ++ c.type.display ++
    (if c.nullable then " NULL" else " NOT NULL") ++
    (if c.primaryKey then " PRIMARY KEY" else "") ++ (if c.unique then " UNIQUE" else "")

/-- A foreign key with its target. -/
def foreignKeyLine (fk : CatalogForeignKey) : String :=
  "  Foreign key (line " ++ toString fk.line ++ "): (" ++ commaList fk.columns ++ ") -> " ++
    fk.targetTable ++ "(" ++ commaList fk.targetColumns ++ ")" ++
    (if fk.cascades then " ON DELETE CASCADE" else "")

/-- A table with its columns and constraints. -/
def tableLines (t : CatalogTable) : List String :=
  ["", "Table: " ++ t.name ++ " (line " ++ toString t.line ++ ")"] ++
    t.columns.values.map columnLine ++
    (t.primaryKey.toList.map fun pk => "  Primary key: (" ++ commaList pk.columns ++ ")") ++
    (t.uniques.map fun u => "  Unique: (" ++ commaList u.columns ++ ")") ++
    (t.checks.map fun c => "  Check (line " ++ toString c.line ++ "): " ++ c.expression) ++
    t.foreignKeys.map foreignKeyLine

/-- An index with its table and columns. -/
def indexLine (i : CatalogIndex) : String :=
  "  " ++ (if i.unique then "UNIQUE " else "") ++ i.name ++ " ON " ++ i.table ++ " (" ++
    commaList i.columns ++ ") (line " ++ toString i.line ++ ")"

/-- The plain report on a catalog. -/
def catalog (c : Catalog) : String :=
  unlines
    (["Schema Information:", "=================="] ++ c.tables.values.flatMap tableLines ++
      (if c.indexes.isEmpty then [] else ["", "Indexes:"] ++ c.indexes.map indexLine))

/-! ### JSON -/

/-- A default value under the name of its kind. -/
def defaultJson : Option DefaultValue → Json
  | none => .null
  | some (.literal v) => .object [("Literal", .string v)]
  | some (.number v) => .object [("Number", .string v)]
  | some .null => .string "Null"
  | some (.expression v) => .object [("Expression", .string v)]

/-- A column. -/
def columnJson (c : CatalogColumn) : Json :=
  .object
    [("name", .string c.name),
      ("data_type", .object
        [("name", .string c.type.name), ("params", .array (c.type.sizes.map .number))]),
      ("nullable", .bool c.nullable),
      ("default", defaultJson c.default),
      ("is_primary_key", .bool c.primaryKey),
      ("is_unique", .bool c.unique),
      ("line", .number c.line)]

/-- A key: its name, its columns and its line. -/
def keyJson (name : Option String) (columns : List String) (line : Nat) : Json :=
  .object [("name", .ofString? name), ("columns", .ofStrings columns), ("line", .number line)]

/-- A foreign key. -/
def foreignKeyJson (fk : CatalogForeignKey) : Json :=
  .object
    [("name", .ofString? fk.name),
      ("columns", .ofStrings fk.columns),
      ("references_table", .string fk.targetTable),
      ("references_columns", .ofStrings fk.targetColumns),
      ("on_delete_cascade", .bool fk.cascades),
      ("source", .string fk.origin.name),
      ("line", .number fk.line)]

/-- A check constraint. -/
def checkJson (c : CheckConstraint) : Json :=
  .object
    [("name", .ofString? c.name), ("expression", .string c.expression), ("line", .number c.line)]

/-- A table; its columns stand under their keys. -/
def tableJson (t : CatalogTable) : Json :=
  .object
    [("name", .string t.name),
      ("line", .number t.line),
      ("columns", .object (t.columns.map fun (key, c) => (key, columnJson c))),
      ("primary_key", match t.primaryKey with
        | some pk => keyJson pk.name pk.columns pk.line
        | none => .null),
      ("foreign_keys", .array (t.foreignKeys.map foreignKeyJson)),
      ("unique_constraints", .array (t.uniques.map fun u => keyJson u.name u.columns u.line)),
      ("check_constraints", .array (t.checks.map checkJson))]

/-- An index. -/
def indexJson (i : CatalogIndex) : Json :=
  .object
    [("name", .string i.name), ("table", .string i.table), ("unique", .bool i.unique),
      ("columns", .ofStrings i.columns), ("line", .number i.line)]

/-- The JSON report on a catalog; its tables stand under their keys. -/
def catalogJson (c : Catalog) : String :=
  unlines
    [(Json.object
      [("tables", .object (c.tables.map fun (key, t) => (key, tableJson t))),
        ("indexes", .array (c.indexes.map indexJson))]).render]

end SchemaReview.Report
