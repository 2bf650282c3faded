import SchemaReview.Scope.Item
import SchemaReview.Ddl.Alteration
import SchemaReview.Finding.Basic
import SchemaReview.Sequence

/-!
# Detector.Isolation — tables that take part in no foreign key
-/

namespace SchemaReview

/-- Keys of the tables that take part in a foreign key, as child or as parent. -/
def relatedTables (s : Source) : List String :=
  (s.items.flatMap fun item =>
    (references item.piece.text).flatMap fun r => [item.table.key, nameKey r.table]) ++
  s.addedForeignKeys.flatMap fun a => [nameKey a.table, a.foreignKey.tableKey]

/-- The finding for an isolated table. -/
def isolatedTable (s : Source) (table : TableDecl) : Finding :=
  Finding.new .info .tableWithoutRelations
      s!"Table '{table.name}' (line {table.line}) does not take part in any foreign key"
    |>.withSpan (s.spanAt table.offset 0)
    |>.withTable table.name
    |>.withHelp "Review the subject area and, if needed, connect the table through a FOREIGN KEY"

/-- Tables that take part in no foreign key, each one once. -/
def isolatedTables (s : Source) : List Finding :=
  let related := relatedTables s
  (firstBy TableDecl.key (s.tables.filter fun t => t.key ∉ related)).map (isolatedTable s)

end SchemaReview
