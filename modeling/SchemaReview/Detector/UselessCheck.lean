import SchemaReview.Scope.Item
import SchemaReview.Ddl.Check
import SchemaReview.Finding.Basic

/-!
# Detector.UselessCheck — checks that restrict nothing or always fail
-/

namespace SchemaReview

namespace CheckClass

/-- The kind of finding for a class. -/
def kind : CheckClass → FindingKind
  | singleValueIn => .checkSingleValueIn
  | nonRestrictive => .checkNonRestrictive
  | tautology => .checkTautology
  | contradiction .. => .checkContradiction

/-- How serious a check of the class is. -/
def severity : CheckClass → Severity
  | contradiction .. => .error
  | nonRestrictive => .info
  | singleValueIn | tautology => .warning

/-- What is wrong with a check of the class. -/
def reason : CheckClass → String
  | singleValueIn => "is an IN list with a single value, so the value is always fixed"
  | nonRestrictive => "is too weak and in most cases does not restrict the values"
  | tautology => "is always true and has no effect on the data"
  | contradiction column upper lower =>
    s!"is contradictory and always false: {column} < {upper} AND {column} > {lower}"

/-- What to do about a check of the class. -/
def help : CheckClass → String
  | singleValueIn => "Remove the CHECK or extend the list of allowed values"
  | nonRestrictive => "Check whether this constraint is needed"
  | tautology => "Remove the constraint"
  | contradiction .. => "Review the logic of the constraint"

end CheckClass

/-- The finding for a check of the given class. -/
def uselessCheck (s : Source) (item : TableItem) (check : Check) (cls : CheckClass) : Finding :=
  let span := s.spanAt (item.piece.offset + check.offset) 5
  let expression := String.ofList check.expression
  Finding.new cls.severity cls.kind
      (s!"Table '{item.table.name}', line {span.line}: CHECK ({expression}) " ++ cls.reason)
    |>.withSpan span
    |>.withTable item.table.name
    |>.withHelp cls.help

/-- Checks that restrict nothing or always fail. -/
def uselessChecks (s : Source) : List Finding :=
  s.items.flatMap fun item =>
    (checks item.piece.text).filterMap fun check =>
      (classifyCheck check.expression).map (uselessCheck s item check)

end SchemaReview
