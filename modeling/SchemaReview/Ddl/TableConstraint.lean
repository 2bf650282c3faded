import SchemaReview.Ddl.Name

/-!
# Ddl.TableConstraint — constraint names and table-level keys
-/

namespace SchemaReview

namespace Pattern

/-- A leading constraint name, under 1. -/
def constraintName : Pattern := textStart ++ blanks ++ keyword "CONSTRAINT" ++ gap ++ name 1

/-- Any word that belongs to a constraint. -/
def constraintWord : Pattern :=
  wordEdge ++
    anyOf [keyword "CONSTRAINT", phrase ["PRIMARY", "KEY"], phrase ["FOREIGN", "KEY"],
      keyword "UNIQUE", keyword "CHECK", keyword "REFERENCES"] ++ wordEdge

/-- A table-level primary key, its columns under 1. -/
def primaryKeyClause : Pattern :=
  wordEdge ++ phrase ["PRIMARY", "KEY"] ++ blanks ++ parenthesized 1

/-- A table-level unique key, its columns under 1. -/
def uniqueClause : Pattern :=
  wordEdge ++ keyword "UNIQUE" ++ blanks ++
    opt (anyOf [keyword "KEY", keyword "INDEX"] ++ blanks ++ opt (plainName ++ blanks)) ++
    parenthesized 1

end Pattern

/-- The name given by a leading `CONSTRAINT`. -/
def constraintName? (t : Text) : Option String :=
  (Pattern.constraintName.matchAt (Cursor.atStart t)).map (·.groupString 1)

/-- The text mentions a constraint anywhere. -/
def mentionsConstraint (t : Text) : Bool := Pattern.constraintWord.occursIn t

/-- The columns of the first table-level primary key. -/
def primaryKeyColumns? (t : Text) : Option (List String) :=
  (Pattern.primaryKeyClause.search t).map fun m => columnKeys (m.groupText 1)

/-- The non-empty column lists of the table-level unique keys. -/
def uniqueColumnLists (t : Text) : List (List String) :=
  ((Pattern.uniqueClause.findAll t).map fun m => columnKeys (m.groupText 1)).filter
    fun columns => !columns.isEmpty

end SchemaReview
