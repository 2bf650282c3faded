import SchemaReview.Ddl.Name

/-!
# Ddl.TableHeader — the beginnings of CREATE TABLE and ALTER TABLE statements
-/

namespace SchemaReview

namespace Pattern

/-- The header of a table declaration, up to the name of the table. -/
def createTable : Pattern :=
  wordEdge ++ keyword "CREATE" ++ gap ++ opt (phraseGap ["OR", "REPLACE"]) ++
    opt (anyOf [keyword "GLOBAL", keyword "LOCAL"] ++ gap) ++
    opt (anyOf [keyword "TEMP", keyword "TEMPORARY", keyword "UNLOGGED"] ++ gap) ++
    keyword "TABLE" ++ gap ++ opt (phraseGap ["IF", "NOT", "EXISTS"]) ++ qualifiedName 1

/-- The beginning of a statement that changes a table, up to the name of the table. -/
def alterTable : Pattern :=
  wordEdge ++ phraseGap ["ALTER", "TABLE"] ++ opt (phraseGap ["IF", "EXISTS"]) ++
    opt (phraseGap ["ONLY"]) ++ qualifiedName 1

end Pattern

/-- The header of a table declaration, with its byte range. -/
structure TableHeader where
  name : String
  start : Nat
  stop : Nat
deriving DecidableEq, Repr

namespace TableHeader

/-- Reads a match of the header pattern. -/
def ofMatch (m : Match) : TableHeader := ⟨m.groupString 1, m.start.offset, m.stop.offset⟩

/-- The header that starts at the cursor. -/
def at? (c : Cursor) : Option TableHeader := (Pattern.createTable.matchAt c).map ofMatch

/-- The first header that starts at byte `n` or later. -/
def find? (t : Text) (n : Nat) : Option TableHeader :=
  (Pattern.createTable.searchAt t n).map ofMatch

end TableHeader

/-- The name of the table that a statement changes. -/
def alteredTable? (t : Text) : Option String :=
  (Pattern.alterTable.search t).map (·.groupString 1)

end SchemaReview
