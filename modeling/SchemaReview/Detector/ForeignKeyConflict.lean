import SchemaReview.Scope.Item
import SchemaReview.Ddl.ForeignKey
import SchemaReview.Finding.Basic
import SchemaReview.Sequence

/-!
# Detector.ForeignKeyConflict — foreign keys that share columns but have different targets
-/

namespace SchemaReview

/-- A table-level foreign key and the item it stands in. -/
structure ForeignKeyUse where
  table : TableDecl
  piece : Piece
  foreignKey : ForeignKey
deriving DecidableEq, Repr

namespace ForeignKeyUse

/-- The referencing columns as a set. -/
def columnSet (u : ForeignKeyUse) : List String := sortedSet u.foreignKey.columns

/-- The referenced table and columns; columns that are left out are those of the same names. -/
def target (u : ForeignKeyUse) : String × List String :=
  let fk := u.foreignKey
  (fk.tableKey, sortedSet (if fk.targets.isEmpty then fk.columns else fk.targets))

end ForeignKeyUse

/-- The table-level foreign keys of all table bodies. -/
def Source.foreignKeyUses (s : Source) : List ForeignKeyUse :=
  s.items.flatMap fun item =>
    (foreignKeys item.piece.text).map fun fk => ⟨item.table, item.piece, fk⟩

/-- The note that quotes a foreign key on one line. -/
def foreignKeyNote (s : Source) (u : ForeignKeyUse) : Note :=
  let span := s.spanOf u.piece
  ⟨s!"FK on line {span.line}: " ++ String.ofList u.piece.text.oneLine, span⟩

/-- The finding for two foreign keys of a table. -/
def foreignKeyConflict? (s : Source) (table : String) (first second : ForeignKeyUse) :
    Option Finding :=
  let shared := first.columnSet.filter fun c => second.columnSet.contains c
  if shared.isEmpty || decide (first.target = second.target) then none
  else
    let columns := ", ".intercalate shared
    some <|
      Finding.new .error .conflictingForeignKeys
          (s!"Foreign keys in table '{table}' share columns {columns} " ++
            "but reference different tables or columns")
        |>.withSpan (s.spanOf first.piece)
        |>.withNotes [foreignKeyNote s first, foreignKeyNote s second]
        |>.withTable table
        |>.withColumns shared
        |>.withHelp "Review the foreign key design to avoid conflicting references"

/-- The findings for all pairs, an earlier foreign key before a later one. -/
def conflictingPairs (s : Source) (table : String) : List ForeignKeyUse → List Finding
  | [] => []
  | first :: others =>
    others.filterMap (foreignKeyConflict? s table first) ++ conflictingPairs s table others

/-- Pairs of foreign keys of one table that share columns but have different targets. -/
def foreignKeyConflicts (s : Source) : List Finding :=
  (groupBy (fun u => u.table.key) s.foreignKeyUses).flatMap fun (_, uses) =>
    conflictingPairs s ((uses.head?.map (·.table.name)).getD "") uses

end SchemaReview
