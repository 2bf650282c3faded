import SchemaReview.Text.Case
import SchemaReview.Pattern.Match

/-!
# Ddl.Name — names of tables and columns

A name is a run of word characters, optionally written between quotes, backticks or brackets, and
optionally after the name of a schema and a point.  Names are compared by their upper case.
-/

namespace SchemaReview

/-- The key by which names of tables and columns are compared. -/
def nameKey (name : String) : String := upperString name

namespace Pattern

/-- An opening quote, backtick or bracket. -/
def openingQuote : Pattern := oneOf ['\x60', '"', '[']

/-- A closing quote, backtick or bracket. -/
def closingQuote : Pattern := oneOf ['\x60', '"', ']']

/-- A name that is not remembered. -/
def plainName : Pattern := opt openingQuote ++ wordRun ++ opt closingQuote

/-- A name remembered under `n`, without its quotes. -/
def name (n : Nat) : Pattern := opt openingQuote ++ group n wordRun ++ opt closingQuote

/-- A name with an optional schema in front, remembered under `n`. -/
def qualifiedName (n : Nat) : Pattern := opt (plainName ++ char '.') ++ name n

/-- A parenthesized list up to the first closing parenthesis, remembered under `n`. -/
def parenthesized (n : Nat) : Pattern := char '(' ++ group n (upTo ')') ++ char ')'

/-- Text in single quotes; a quote inside is doubled. -/
def quotedText : Pattern :=
  char '\x27' ++ star (one (.except '\x27') <|> char '\x27' ++ char '\x27') ++ char '\x27'

/-- A number with an optional sign and fraction. -/
def signedNumber : Pattern := opt (oneOf ['-', '+']) ++ digits ++ opt (char '.' ++ digits)

end Pattern

/-- The name at the start of a column list entry: opening quotes are dropped, and the name ends at
the first character that is no letter, number or low line. -/
def listedName (entry : Text) : Text :=
  (entry.dropWhile fun c => c == '"' || c == '\x60' || c == '[').takeWhile
    fun c => isAlphanumeric c || c == '_'

/-- The key of one entry of a column list; sort order, collation and prefix lengths are dropped. -/
def columnKey? (entry : Text) : Option String :=
  match entry.words with
  | [] => none
  | token :: _ =>
    let name := listedName token
    if name.isEmpty then none else some (nameKey (String.ofList name))

/-- The keys of a comma-separated column list, entries without a name dropped. -/
def columnKeys (list : Text) : List String := (list.splitOn ',').filterMap columnKey?

end SchemaReview
