import SchemaReview.Text.Number

/-!
# Ddl.DefaultValue — default values as written
-/

namespace SchemaReview

/-- The default value of a column. -/
inductive DefaultValue where
  /-- Text in quotes, given without them. -/
  | literal (value : String)
  /-- A number. -/
  | number (value : String)
  /-- The null value. -/
  | null
  /-- Any other word, such as the name of a function. -/
  | expression (value : String)
deriving DecidableEq, Repr

/-- The text begins and ends with a single quote; one quote alone does not count. -/
def isQuotedLiteral (t : Text) : Bool :=
  2 ≤ t.length && t.head? == some '\x27' && t.getLast? == some '\x27'

/-- The text between the outer quotes, with doubled quotes written once. -/
def unquote (t : Text) : Text := Text.undoubleQuotes (t.drop 1).dropLast

/-- The text is the word for the null value in any case. -/
def isNullWord (t : Text) : Bool := Text.equalsIgnoringCase t "NULL".toList

/-- Classifies the text after `DEFAULT`. -/
def DefaultValue.ofText (t : Text) : DefaultValue :=
  if isQuotedLiteral t then .literal (String.ofList (unquote t))
  else if isNullWord t then .null
  else if Text.isFloat t then .number (String.ofList t)
  else .expression (String.ofList t)

end SchemaReview
