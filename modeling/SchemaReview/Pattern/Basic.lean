import SchemaReview.Text.Basic

/-!
# Pattern.Basic — patterns over script text

A pattern is built from character classes by sequence, choice and repetition, with numbered
captures and tests of the position.  Choices are ordered: the first alternative that lets the rest
of the pattern succeed is taken, and a repetition takes as much as it can.
-/

namespace SchemaReview

/-- A class of characters. -/
inductive CharClass where
  /-- The ASCII letter in either case; `k` and `s` also match the Kelvin sign and the long s. -/
  | letter (c : Char)
  /-- One of the listed characters. -/
  | oneOf (cs : List Char)
  /-- Any character but this one. -/
  | except (c : Char)
  /-- A character of a word. -/
  | word
  /-- A decimal digit. -/
  | digit
  /-- White space. -/
  | blank
deriving DecidableEq, Repr

/-- The class contains the character. -/
def CharClass.holds : CharClass → Char → Bool
  | .letter c, x =>
    x.toUpper == c.toUpper || (c.toUpper == 'K' && x == '\u212a') ||
      (c.toUpper == 'S' && x == '\u017f')
  | .oneOf cs, x => cs.contains x
  | .except c, x => x != c
  | .word, x => isWord x
  | .digit, x => isDigit x
  | .blank, x => isBlank x

/-- A pattern over text. -/
inductive Pattern where
  /-- Matches the empty text. -/
  | empty
  /-- One character of a class. -/
  | one (cls : CharClass)
  /-- The first pattern, then the second. -/
  | seq (p q : Pattern)
  /-- The first pattern, or else the second. -/
  | alt (p q : Pattern)
  /-- As many characters of a class as possible. -/
  | many (cls : CharClass)
  /-- As many repetitions as possible. -/
  | star (p : Pattern)
  /-- The pattern, remembering under a number what it matched. -/
  | group (n : Nat) (p : Pattern)
  /-- A word begins or ends here. -/
  | wordEdge
  /-- The text begins here. -/
  | textStart
  /-- The text ends here. -/
  | textEnd
deriving DecidableEq, Repr

namespace Pattern

instance : Append Pattern := ⟨Pattern.seq⟩

instance : OrElse Pattern := ⟨fun p q => Pattern.alt p (q ())⟩

/-- The pattern or nothing, preferring the pattern. -/
def opt (p : Pattern) : Pattern := .alt p .empty

/-- At least one character of a class. -/
def atLeastOne (cls : CharClass) : Pattern := .seq (.one cls) (.many cls)

/-- One of the listed characters. -/
def oneOf (cs : List Char) : Pattern := .one (.oneOf cs)

/-- This very character. -/
def char (c : Char) : Pattern := oneOf [c]

/-- Letters in either case, one after the other. -/
def letters : List Char → Pattern
  | [] => .empty
  | c :: cs => .one (.letter c) ++ letters cs

/-- A keyword in any case. -/
def keyword (w : String) : Pattern := letters w.toList

/-- Any amount of white space. -/
def blanks : Pattern := .many .blank

/-- At least one blank. -/
def gap : Pattern := atLeastOne .blank

/-- A run of word characters. -/
def wordRun : Pattern := atLeastOne .word

/-- A run of digits. -/
def digits : Pattern := atLeastOne .digit

/-- Anything up to the next occurrence of `c`. -/
def upTo (c : Char) : Pattern := .many (.except c)

/-- Keywords separated by white space. -/
def phrase : List String → Pattern
  | [] => .empty
  | [w] => keyword w
  | w :: ws => keyword w ++ gap ++ phrase ws

/-- A phrase followed by white space. -/
def phraseGap (ws : List String) : Pattern := phrase ws ++ gap

/-- The first of the patterns that succeeds. -/
def anyOf : List Pattern → Pattern
  | [] => .empty
  | [p] => p
  | p :: ps => .alt p (anyOf ps)

end Pattern

end SchemaReview
