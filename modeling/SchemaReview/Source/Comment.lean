import SchemaReview.Text.Basic

/-!
# Source.Comment — blanking comments out

A comment runs from two dashes to the end of the line, or from slash-star to star-slash.  Every
character of a comment is replaced by as many spaces as it has bytes, line breaks excepted, so
offsets and lines stay where they were.  Text in single or double quotes is left alone.
-/

namespace SchemaReview

/-- What the character at hand belongs to. -/
inductive Lexical where
  /-- Statement text. -/
  | code
  /-- Text in quotes of the given kind. -/
  | quoted (quote : Char)
  /-- A comment that ends with the line. -/
  | lineComment
  /-- A comment that ends with star-slash. -/
  | blockComment
deriving DecidableEq, Repr

/-- A single or double quote. -/
def isQuote (c : Char) : Bool := c == '\x27' || c == '"'

/-- A line feed or carriage return. -/
def isLineBreak (c : Char) : Bool := c == '\n' || c == '\r'

/-- A comment character as it stands in the masked text. -/
def blankOut (c : Char) : Text := if isLineBreak c then [c] else List.replicate c.utf8Size ' '

/-- The text with comments blanked out, read from the given lexical state on. -/
def maskFrom : Lexical → Text → Text
  | _, [] => []
  | .code, '-' :: '-' :: cs => ' ' :: ' ' :: maskFrom .lineComment cs
  | .code, '/' :: '*' :: cs => ' ' :: ' ' :: maskFrom .blockComment cs
  | .code, c :: cs => c :: maskFrom (if isQuote c then .quoted c else .code) cs
  | .quoted q, c :: cs => c :: maskFrom (if c = q then .code else .quoted q) cs
  | .lineComment, c :: cs =>
    blankOut c ++ maskFrom (if isLineBreak c then .code else .lineComment) cs
  | .blockComment, '*' :: '/' :: cs => ' ' :: ' ' :: maskFrom .code cs
  | .blockComment, c :: cs => blankOut c ++ maskFrom .blockComment cs

/-- The text with comments blanked out. -/
def maskComments (t : Text) : Text := maskFrom .code t

end SchemaReview
