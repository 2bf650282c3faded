import SchemaReview.Ddl.Name

/-!
# Ddl.ForeignKey — references to other tables

`foreignKeys` finds the table-level clauses `FOREIGN KEY (…) REFERENCES t (…)`; `references` finds
every `REFERENCES` clause, inline ones included.
-/

namespace SchemaReview

namespace Pattern

/-- A `REFERENCES` clause: the table under `table`, the listed columns under `columns`. -/
def referenceTo (table columns : Nat) : Pattern :=
  keyword "REFERENCES" ++ gap ++ qualifiedName table ++ blanks ++ opt (parenthesized columns)

/-- A `REFERENCES` clause. -/
def reference : Pattern := wordEdge ++ referenceTo 1 2

/-- A table-level foreign key: the referencing columns under 1, the table under 2 and its columns
under 3. -/
def foreignKey : Pattern :=
  wordEdge ++ phrase ["FOREIGN", "KEY"] ++ blanks ++ opt (plainName ++ blanks) ++
    parenthesized 1 ++ blanks ++ referenceTo 2 3

/-- The action on update that may stand in front of the action on delete. -/
def updateAction : Pattern :=
  phraseGap ["ON", "UPDATE"] ++
    anyOf [keyword "CASCADE", keyword "RESTRICT", phrase ["NO", "ACTION"], phrase ["SET", "NULL"],
      phrase ["SET", "DEFAULT"]] ++ gap

/-- A cascading delete right at the beginning. -/
def deleteCascade : Pattern :=
  blanks ++ opt updateAction ++ phrase ["ON", "DELETE", "CASCADE"] ++ wordEdge

end Pattern

/-- The text begins with a cascading delete, perhaps after an action on update. -/
def beginsWithCascade (t : Text) : Bool := (Pattern.deleteCascade.matchAt (Cursor.atStart t)).isSome

/-- A foreign key, table-level or inline. -/
structure ForeignKey where
  /-- Keys of the referencing columns. -/
  columns : List String
  /-- The referenced table as written. -/
  table : String
  /-- Keys of the referenced columns; none when they are left out. -/
  targets : List String
  /-- Deletes cascade. -/
  cascades : Bool
  /-- Byte offset of the clause within the text it was found in. -/
  offset : Nat
deriving DecidableEq, Repr

/-- Key of the referenced table. -/
def ForeignKey.tableKey (fk : ForeignKey) : String := nameKey fk.table

/-- Reads a match of the foreign key pattern. -/
def ForeignKey.ofMatch (m : Match) : ForeignKey :=
  { columns := columnKeys (m.groupText 1)
    table := m.groupString 2
    targets := columnKeys (m.groupText 3)
    cascades := beginsWithCascade m.stop.rest
    offset := m.start.offset }

/-- The table-level foreign keys of a text. -/
def foreignKeys (t : Text) : List ForeignKey :=
  (Pattern.foreignKey.findAll t).map ForeignKey.ofMatch

/-- A `REFERENCES` clause. -/
structure Reference where
  /-- The referenced table as written. -/
  table : String
  /-- Keys of the referenced columns; none when they are left out. -/
  columns : List String
  /-- Deletes cascade. -/
  cascades : Bool
  /-- Byte offset of the clause within the text it was found in. -/
  offset : Nat
deriving DecidableEq, Repr

/-- Reads a match of the reference pattern. -/
def Reference.ofMatch (m : Match) : Reference :=
  { table := m.groupString 1
    columns := columnKeys (m.groupText 2)
    cascades := beginsWithCascade m.stop.rest
    offset := m.start.offset }

/-- The first `REFERENCES` clause of a text. -/
def firstReference? (t : Text) : Option Reference :=
  (Pattern.reference.search t).map Reference.ofMatch

/-- Every `REFERENCES` clause of a text. -/
def references (t : Text) : List Reference := (Pattern.reference.findAll t).map Reference.ofMatch

end SchemaReview
