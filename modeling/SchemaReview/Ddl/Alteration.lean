import SchemaReview.Ddl.TableHeader
import SchemaReview.Ddl.ForeignKey
import SchemaReview.Source.Statement

/-!
# Ddl.Alteration — foreign keys added by ALTER TABLE
-/

namespace SchemaReview

/-- A foreign key added by an `ALTER TABLE` statement. -/
structure AddedForeignKey where
  /-- The altered table as written. -/
  table : String
  line : Nat
  foreignKey : ForeignKey
deriving DecidableEq, Repr

/-- The foreign keys that one statement adds. -/
def Source.addedBy (s : Source) (statement : Statement) : List AddedForeignKey :=
  match alteredTable? statement.text with
  | none => []
  | some table =>
    (foreignKeys statement.text).map fun fk => ⟨table, s.lineOf (statement.offset + fk.offset), fk⟩

/-- The foreign keys added by `ALTER TABLE` statements. -/
def Source.addedForeignKeys (s : Source) : List AddedForeignKey := s.statements.flatMap s.addedBy

end SchemaReview
