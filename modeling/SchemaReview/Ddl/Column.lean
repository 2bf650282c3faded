import SchemaReview.Ddl.DeclaredType
import SchemaReview.Ddl.ForeignKey
import SchemaReview.Text.Number

/-!
# Ddl.Column — column definitions

A column definition is a name, a type with up to two sizes, and the qualifiers after it.  Clauses
that begin with a constraint word are no column definitions.
-/

namespace SchemaReview

/-- Words that start a constraint clause. -/
def constraintStarters : List String :=
  ["CONSTRAINT", "PRIMARY", "FOREIGN", "UNIQUE", "CHECK", "KEY", "INDEX", "EXCLUDE", "FULLTEXT",
    "SPATIAL"]

/-- The word starts a constraint clause. -/
def isConstraintStarter (word : Text) : Bool :=
  constraintStarters.any fun w => Text.equalsIgnoringCase w.toList word

namespace Pattern

/-- A column definition: opening quote, name, type and sizes under 1 to 5. -/
def columnDefinition : Pattern :=
  textStart ++ blanks ++ group 1 (opt openingQuote) ++ group 2 wordRun ++ opt closingQuote ++ gap ++
    group 3 wordRun ++
    opt (blanks ++ char '(' ++ blanks ++ group 4 digits ++
      opt (blanks ++ char ',' ++ blanks ++ group 5 digits) ++ blanks ++ char ')')

/-- The words that forbid null values. -/
def notNull : Pattern := wordEdge ++ phrase ["NOT", "NULL"] ++ wordEdge

/-- The words that declare a primary key. -/
def primaryKey : Pattern := wordEdge ++ phrase ["PRIMARY", "KEY"] ++ wordEdge

/-- The word that declares uniqueness. -/
def unique : Pattern := wordEdge ++ keyword "UNIQUE" ++ wordEdge

/-- A default value: quoted text, a number or a word, under 1. -/
def defaultValue : Pattern :=
  wordEdge ++ keyword "DEFAULT" ++ gap ++ group 1 (anyOf [quotedText, signedNumber, wordRun])

end Pattern

/-- A column definition. -/
structure Column where
  name : String
  /-- The name was written in quotes, backticks or brackets. -/
  quoted : Bool
  type : DeclaredType
  /-- Everything after the type. -/
  rest : Text
  /-- Byte offset of `rest` within the definition. -/
  restOffset : Nat
deriving DecidableEq, Repr

namespace Column

/-- The sizes among the captures 4 and 5; none at all when one of them is too large or not
written in ASCII digits. -/
def sizesOf (m : Match) : List Nat :=
  let written := [m.group? 4, m.group? 5].filterMap id
  (written.mapM fun c => Text.natBelow? (Nat.pow 2 64) c.text).getD []

/-- Recognizes a column definition. -/
def ofText? (t : Text) : Option Column := do
  let m ← Pattern.columnDefinition.matchAt (Cursor.atStart t)
  if isConstraintStarter (m.groupText 2) then none
  else
    some
      { name := m.groupString 2
        quoted := !(m.groupText 1).isEmpty
        type := ⟨m.groupString 3, sizesOf m⟩
        rest := m.stop.rest
        restOffset := m.stop.offset }

/-- A column that is recognized has its name and its rest from a match. -/
theorem exists_match {t : Text} {c : Column} (h : ofText? t = some c) :
    ∃ m, Pattern.columnDefinition.matchAt (Cursor.atStart t) = some m ∧
      c.name = m.groupString 2 ∧ c.rest = m.stop.rest ∧ c.restOffset = m.stop.offset := by
  obtain ⟨m, hm, hc⟩ := Option.bind_eq_some_iff.mp h
  split at hc
  · cases hc
  · rw [Option.some.injEq] at hc
    subst hc
    exact ⟨m, hm, rfl, rfl, rfl⟩

/-- The key of the name. -/
def key (c : Column) : String := nameKey c.name

/-- The column forbids null values. -/
def isNotNull (c : Column) : Bool := Pattern.notNull.occursIn c.rest

/-- The column is declared a primary key. -/
def isPrimaryKey (c : Column) : Bool := Pattern.primaryKey.occursIn c.rest

/-- The column is declared unique. -/
def isUnique (c : Column) : Bool := Pattern.unique.occursIn c.rest

/-- The default value as written. -/
def default? (c : Column) : Option Text := (Pattern.defaultValue.search c.rest).map (·.groupText 1)

/-- The inline foreign key. -/
def reference? (c : Column) : Option ForeignKey :=
  (firstReference? c.rest).map fun r =>
    { columns := [c.key]
      table := r.table
      targets := r.columns
      cascades := r.cascades
      offset := c.restOffset + r.offset }

end Column

end SchemaReview
