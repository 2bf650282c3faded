import SchemaReview.Source.Basic

/-!
# Source.Statement — the statements of a script

Statements end at semicolons outside quoted regions.  A region is text in single or double
quotes, or a body between two equal dollar tags; an unterminated region runs to the end.
-/

namespace SchemaReview

/-- A statement without its semicolon. -/
structure Statement where
  offset : Nat
  text : Text
deriving DecidableEq, Repr

/-- A character of a dollar tag. -/
def isTagChar (c : Char) : Bool := isAsciiLetter c || isAsciiDigit c || c == '_'

/-- The dollar tag whose first dollar sign stands just before the text. -/
def dollarTag? (t : Text) : Option Text :=
  match t.dropWhile isTagChar with
  | '$' :: _ => some ('$' :: t.takeWhile isTagChar ++ ['$'])
  | _ => none

/-- Number of characters in front of the first occurrence of `w`. -/
def indexOf? (w : Text) : Text → Option Nat
  | [] => if w.isEmpty then some 0 else none
  | c :: cs => if w.isPrefixOf (c :: cs) then some 0 else (indexOf? w cs).map (· + 1)

/-- Number of characters after `c` that belong to the region that `c` opens in front of `cs`; zero
when it opens none. -/
def regionLength (c : Char) (cs : Text) : Nat :=
  if isQuote c then (cs.takeWhile (· ≠ c)).length + 1
  else if c = '$' then
    match dollarTag? cs with
    | none => 0
    | some tag =>
      let head := tag.length - 1
      match indexOf? tag (cs.drop head) with
      | some n => head + n + tag.length
      | none => cs.length
  else 0

/-- The statement made of the piece, unless it is blank. -/
def Statement.ofPiece (start : Nat) (piece : Text) : List Statement :=
  if Text.isBlankText piece then [] else [⟨start, piece⟩]

/-- The statements of a text that continues the piece begun at `start`.  The next `skip`
characters lie in a region; `piece` holds the characters of the piece, last one first. -/
def statementsFrom (start offset skip : Nat) (piece : Text) : Text → List Statement
  | [] => Statement.ofPiece start piece.reverse
  | c :: cs =>
    if skip = 0 then
      if c = ';' then
        Statement.ofPiece start piece.reverse ++ statementsFrom (offset + 1) (offset + 1) 0 [] cs
      else statementsFrom start (offset + c.utf8Size) (regionLength c cs) (c :: piece) cs
    else statementsFrom start (offset + c.utf8Size) (skip - 1) (c :: piece) cs

/-- The statements of a comment-free text that are not blank. -/
def Text.statements (t : Text) : List Statement := statementsFrom 0 0 0 [] t

/-- The statements of a source. -/
def Source.statements (s : Source) : List Statement := Text.statements s.text

end SchemaReview
