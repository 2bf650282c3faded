import SchemaReview.Text.Basic
import SchemaReview.Text.CaseTable
import SchemaReview.Text.CaseContext

/-!
# Text.Case — upper and lower case of whole texts

The upper case of a character may be several characters (`ß` becomes `SS`).  A capital sigma
becomes a final sigma at the end of a word and a plain one elsewhere.
-/

namespace SchemaReview

/-- Upper case of one character. -/
def upperChar (c : Char) : Text :=
  if c.toNat < 128 then [c.toUpper]
  else match Text.upperSequences.lookup c.toNat with
    | some codes => codes.map Char.ofNat
    | none => match Text.CaseRun.find? c.toNat Text.upperRuns with
      | some code => [Char.ofNat code]
      | none => [c]

/-- Lower case of one character out of context. -/
def lowerChar (c : Char) : Text :=
  if c.toNat < 128 then [c.toLower]
  else if c = '\u0130' then ['i', '\u0307']
  else match Text.CaseRun.find? c.toNat Text.lowerRuns with
    | some code => [Char.ofNat code]
    | none => [c]

/-- The first character that is not case-ignorable has a case. -/
def beginsCased (t : Text) : Bool :=
  match t.dropWhile fun c => Text.inRanges c.toNat Text.caseIgnorableRanges with
  | [] => false
  | c :: _ => Text.inRanges c.toNat Text.casedRanges

namespace Text

/-- Upper case of a text. -/
def upper (t : Text) : Text := t.flatMap upperChar

/-- Lower case of `t`, where `before` holds the characters in front of it, nearest first. -/
def lowerAfter (before : Text) : Text → Text
  | [] => []
  | c :: cs =>
    (if c = 'Σ' then [if beginsCased before && !beginsCased cs then 'ς' else 'σ'] else lowerChar c)
      ++ lowerAfter (c :: before) cs

/-- Lower case of a text. -/
def lower (t : Text) : Text := lowerAfter [] t

end Text

/-- Upper case of a string. -/
def upperString (s : String) : String := String.ofList (Text.upper s.toList)

/-- Lower case of a string. -/
def lowerString (s : String) : String := String.ofList (Text.lower s.toList)

end SchemaReview
