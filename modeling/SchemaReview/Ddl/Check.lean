import SchemaReview.Ddl.Name
import SchemaReview.Pattern.Runs
import SchemaReview.Text.Number
import SchemaReview.Source.Comment

/-!
# Ddl.Check — CHECK constraints and what is wrong with them

The expression of a `CHECK` ends at the parenthesis that matches the opening one, so nested
parentheses stay inside it, and parentheses in quotes do not count.
-/

namespace SchemaReview

/-- Offset of the closing parenthesis that brings the depth to zero.  A quote hides everything up
to the next quote of its kind; a closing parenthesis at depth zero is refused. -/
def closingParen? (depth : Nat) (quote : Option Char) (offset : Nat) : Text → Option Nat
  | [] => none
  | c :: cs =>
    let next := offset + c.utf8Size
    match quote with
    | some q => closingParen? depth (if c = q then none else some q) next cs
    | none =>
      if isQuote c then closingParen? depth (some c) next cs
      else if c = '(' then closingParen? (depth + 1) none next cs
      else if c = ')' then
        match depth with
        | 0 => none
        | 1 => some offset
        | d + 2 => closingParen? (d + 1) none next cs
      else closingParen? depth none next cs

/-- Offset of the closing parenthesis of the first group that opens at byte `start` or later. -/
def matchingParen? (t : Text) (start : Nat) : Option Nat :=
  let c := Cursor.atByte t start
  closingParen? 0 none c.offset c.rest

/-- A `CHECK` constraint. -/
structure Check where
  /-- The trimmed text between the outer parentheses. -/
  expression : Text
  /-- Byte offset of the keyword within the text it was found in. -/
  offset : Nat
deriving DecidableEq, Repr

/-- The keyword up to its opening parenthesis. -/
def Pattern.checkOpening : Pattern := wordEdge ++ keyword "CHECK" ++ blanks ++ char '('

/-- The checks that begin at byte `resume` or later; an expression without end stops the
search. -/
def checksFrom (resume : Nat) (before : Option Char) (offset : Nat) : Text → List Check
  | [] => []
  | x :: xs =>
    let next := offset + x.utf8Size
    if offset < resume then checksFrom resume (some x) next xs
    else match Pattern.checkOpening.matchAt ⟨before, offset, x :: xs⟩ with
      | none => checksFrom resume (some x) next xs
      | some m =>
        match closingParen? 1 none m.stop.offset m.stop.rest with
        | none => []
        | some close =>
          ⟨Text.trim (Text.takeBytes (close - m.stop.offset) m.stop.rest), offset⟩ ::
            checksFrom (close + 1) (some x) next xs

/-- The `CHECK` constraints of a text. -/
def checks (t : Text) : List Check := checksFrom 0 none 0 t

namespace Pattern

/-- A column compared with one literal, the column under 1. -/
def constantCheck : Pattern :=
  textStart ++ blanks ++ name 1 ++ blanks ++ char '=' ++ blanks ++
    anyOf [quotedText, signedNumber, keyword "TRUE", keyword "FALSE"] ++ blanks ++ textEnd

/-- A list of allowed values with one value. -/
def singleValueIn : Pattern :=
  textStart ++ blanks ++ wordRun ++ gap ++ keyword "IN" ++ blanks ++ char '(' ++ blanks ++
    (char '\x27' ++ upTo '\x27' ++ char '\x27' <|> digits) ++ blanks ++ char ')' ++ blanks ++
    textEnd

/-- A column that is not negative. -/
def nonNegative : Pattern :=
  textStart ++ blanks ++ wordRun ++ blanks ++ char '>' ++ char '=' ++ blanks ++ char '0' ++
    blanks ++ textEnd

/-- One digit compared with itself. -/
def sameDigit (d : Char) : Pattern := char d ++ blanks ++ char '=' ++ blanks ++ char d

/-- A comparison of constants that always holds. -/
def tautology : Pattern := textStart ++ (sameDigit '1' <|> sameDigit '0') ++ textEnd

/-- An upper bound and a lower bound: columns under 1 and 3, bounds under 2 and 4. -/
def boundedRange : Pattern :=
  group 1 wordRun ++ blanks ++ char '<' ++ blanks ++ group 2 digits ++ gap ++ keyword "AND" ++
    gap ++ group 3 wordRun ++ blanks ++ char '>' ++ blanks ++ group 4 digits

/-- A bounded range begins with the run of its first column. -/
theorem beginsWithRun_boundedRange : BeginsWithRun .word boundedRange :=
  ⟨1, blanks ++ (char '<' ++ (blanks ++ (group 2 digits ++ (gap ++ (keyword "AND" ++ (gap ++
    (group 3 wordRun ++ (blanks ++ (char '>' ++ (blanks ++ group 4 digits)))))))))),
    fun _ _ _ => rfl⟩

end Pattern

/-- The column that an expression pins to one literal. -/
def constantColumn? (expression : Text) : Option String :=
  (Pattern.constantCheck.matchAt (Cursor.atStart expression)).map (·.groupString 1)

/-- Why a `CHECK` is of no use. -/
inductive CheckClass where
  /-- A list of allowed values with a single value. -/
  | singleValueIn
  /-- A column that is at least zero. -/
  | nonRestrictive
  /-- Always true. -/
  | tautology
  /-- `column < upper AND column > lower` with `upper < lower`. -/
  | contradiction (column : String) (upper lower : Nat)
deriving DecidableEq, Repr

/-- Classifies an expression; the first class that fits wins.  Only the first range whose two
columns agree is looked at, and its bounds must be below `2 ^ 128`. -/
def classifyCheck (expression : Text) : Option CheckClass :=
  let start := Cursor.atStart expression
  if (Pattern.singleValueIn.matchAt start).isSome then some .singleValueIn
  else if (Pattern.nonNegative.matchAt start).isSome then some .nonRestrictive
  else if (Pattern.tautology.matchAt start).isSome then some .tautology
  else do
    let m ← (Pattern.boundedRange.findRuns .word expression).find? fun m =>
      Text.equalsIgnoringCase (m.groupText 1) (m.groupText 3)
    let upper ← Text.natBelow? (Nat.pow 2 128) (m.groupText 2)
    let lower ← Text.natBelow? (Nat.pow 2 128) (m.groupText 4)
    if upper < lower then some (.contradiction (m.groupString 1) upper lower) else none

end SchemaReview
