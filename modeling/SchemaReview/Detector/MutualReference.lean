import SchemaReview.Scope.Item
import SchemaReview.Ddl.ForeignKey
import SchemaReview.Finding.Basic
import SchemaReview.Sequence

/-!
# Detector.MutualReference — pairs of tables that reference each other

Only foreign keys with one column and one target column count, and a pair is reported when there
are exactly two of them, one in each direction.
-/

namespace SchemaReview

/-- A one-column foreign key between two tables. -/
structure Relation where
  fromTable : String
  fromColumn : String
  toTable : String
  toColumn : String
  span : Span
deriving DecidableEq, Repr

namespace Relation

/-- The two tables by key, the smaller key first. -/
def pair (r : Relation) : String × String :=
  let a := nameKey r.fromTable
  let b := nameKey r.toTable
  if a ≤ b then (a, b) else (b, a)

/-- The note that shows the relation as an arrow. -/
def note (r : Relation) : Note :=
  ⟨s!"{r.fromTable}.{r.fromColumn} -> {r.toTable}.{r.toColumn}", r.span⟩

end Relation

/-- The one-column relations of an item. -/
def relationsOf (s : Source) (item : TableItem) : List Relation :=
  (foreignKeys item.piece.text).filterMap fun fk =>
    match fk.columns, fk.targets with
    | [fromColumn], [toColumn] =>
      some ⟨item.table.name, fromColumn, fk.table, toColumn,
        s.spanAt (item.piece.offset + fk.offset) 0⟩
    | _, _ => none

/-- The one-column relations of a source, where a table nested in another keeps its items. -/
def Source.relations (s : Source) : List Relation := (s.itemsIn .nested).flatMap (relationsOf s)

/-- The finding for the relations between two tables. -/
def mutualReference? : List Relation → Option Finding
  | [first, second] =>
    if nameKey first.fromTable = nameKey second.fromTable then none
    else
      some <|
        Finding.new .error .overlappingRelations
            s!"Tables '{first.fromTable}' and '{second.fromTable}' reference each other"
          |>.withSpan first.span
          |>.withNotes [first.note, second.note]
          |>.withColumns [first.fromColumn, second.fromColumn]
          |>.withHelp
            "Avoid two-way dependencies: use one-directional relations or deferred constraints"
  | _ => none

/-- Pairs of tables that reference each other. -/
def mutualReferences (s : Source) : List Finding :=
  (groupBy Relation.pair s.relations).filterMap fun (_, relations) => mutualReference? relations

end SchemaReview
