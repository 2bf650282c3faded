import SchemaReview.Ddl.Name
import SchemaReview.Source.Basic

/-!
# Ddl.Index — CREATE INDEX statements

Index statements are not bound to a table scope and may span several lines.
-/

namespace SchemaReview

/-- An index statement: uniqueness under 1, index under 2, table under 3, columns under 4. -/
def Pattern.createIndex : Pattern :=
  wordEdge ++ keyword "CREATE" ++ gap ++ opt (group 1 (phraseGap ["UNIQUE"])) ++
    opt (anyOf [keyword "CLUSTERED", keyword "NONCLUSTERED"] ++ gap) ++ phraseGap ["INDEX"] ++
    opt (phraseGap ["CONCURRENTLY"]) ++ opt (phraseGap ["IF", "NOT", "EXISTS"]) ++
    qualifiedName 2 ++ gap ++ phraseGap ["ON"] ++ opt (phraseGap ["ONLY"]) ++ qualifiedName 3 ++
    blanks ++ opt (keyword "USING" ++ gap ++ wordRun ++ blanks) ++ parenthesized 4

/-- An index declared by a statement of its own. -/
structure Index where
  name : String
  /-- The indexed table as written. -/
  table : String
  unique : Bool
  /-- Keys of the indexed columns in order. -/
  columns : List String
  offset : Nat
  line : Nat
deriving DecidableEq, Repr

/-- Key of the indexed table. -/
def Index.tableKey (i : Index) : String := nameKey i.table

/-- Reads a match of the index pattern. -/
def Index.ofMatch (s : Source) (m : Match) : Index :=
  { name := m.groupString 2
    table := m.groupString 3
    unique := (m.group? 1).isSome
    columns := columnKeys (m.groupText 4)
    offset := m.start.offset
    line := s.lineOf m.start.offset }

/-- The index statements of a source. -/
def Source.indexes (s : Source) : List Index :=
  (Pattern.createIndex.findAll s.text).map (Index.ofMatch s)

end SchemaReview
