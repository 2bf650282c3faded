import SchemaReview.Scope.Column
import SchemaReview.Ddl.DefaultValue
import SchemaReview.Finding.Basic

/-!
# Detector.DefaultConflict — default values that do not fit the type
-/

namespace SchemaReview

/-- What is wrong with the default value `raw` of a column, if anything. -/
def defaultMisfit? (type : DeclaredType) (raw : Text) : Option (FindingKind × String) :=
  let shown := String.ofList raw
  let typeName := type.display
  match type.family with
  | .text =>
    if !isQuotedLiteral raw then
      some (.unquotedTextDefault,
        s!"has default value {shown} without quotes, which is not valid for type {typeName}")
    else
      match type.length? with
      | none => none
      | some limit =>
        let value := unquote raw
        let length := value.length
        let text := String.ofList value
        if limit < length then
          some (.textDefaultTooLong,
            s!"has default value '{text}' of length {length}, " ++
              s!"longer than the size {limit} of type {typeName}")
        else none
  | .numeric =>
    let value := if isQuotedLiteral raw then unquote raw else raw
    if Text.isFloat value.trim then none
    else
      some (.nonNumericDefault,
        s!"has default value {shown} that cannot be converted to a number for type {typeName}")
  | .other => none

/-- The finding for the default value of a column. -/
def defaultConflict? (s : Source) (c : DeclaredColumn) : Option Finding := do
  let raw ← c.column.default?
  if isNullWord raw then none
  else
    let (kind, reason) ← defaultMisfit? c.column.type raw
    let span := s.spanOf c.piece
    some <|
      Finding.new .error kind
          s!"Column '{c.column.name}' in table '{c.table.name}' (line {span.line}) {reason}"
        |>.withSpan span
        |>.withTable c.table.name
        |>.withColumns [c.column.key]
        |>.withHelp "Make the default value match the column type"

/-- Default values that do not fit the declared type. -/
def defaultConflicts (s : Source) : List Finding := s.columns.filterMap (defaultConflict? s)

end SchemaReview
