import SchemaReview.Text.Ranges
import SchemaReview.Text.Letters
import SchemaReview.Text.Marks
import SchemaReview.Text.Numerals
import SchemaReview.Text.Recent

/-!
# Text.Character — the character classes that patterns and column lists use

Each class answers ASCII characters directly and asks its table of ranges for the rest.
-/

namespace SchemaReview

/-- White space: ASCII blanks, the next-line control, no-break and typographic spaces, and the
line and paragraph separators. -/
def isBlank (c : Char) : Bool :=
  let n := c.toNat
  if n < 128 then n == 32 || (9 ≤ n && n ≤ 13)
  else n == 0x85 || n == 0xa0 || n == 0x1680 || (0x2000 ≤ n && n ≤ 0x200a) || n == 0x2028 ||
    n == 0x2029 || n == 0x202f || n == 0x205f || n == 0x3000

/-- An ASCII letter. -/
def isAsciiLetter (c : Char) : Bool :=
  ('a' ≤ c && c ≤ 'z') || ('A' ≤ c && c ≤ 'Z')

/-- An ASCII digit. -/
def isAsciiDigit (c : Char) : Bool :=
  '0' ≤ c && c ≤ '9'

/-- A letter of any script, letter-like symbols and vowel signs included. -/
def isLetter (c : Char) : Bool :=
  if c.toNat < 128 then isAsciiLetter c else Text.inRanges c.toNat Text.letterRanges

/-- A decimal digit of any script. -/
def isDigit (c : Char) : Bool :=
  if c.toNat < 128 then isAsciiDigit c else Text.inRanges c.toNat Text.digitRanges

/-- A letter, a digit or any other number sign, the recent ones included. -/
def isAlphanumeric (c : Char) : Bool :=
  if c.toNat < 128 then isAsciiLetter c || isAsciiDigit c
  else isLetter c || isDigit c || Text.inRanges c.toNat Text.numberRanges ||
    Text.inRanges c.toNat Text.recentRanges

/-- The connector that joins words: the low line and its typographic variants. -/
def isConnector (c : Char) : Bool :=
  let n := c.toNat
  n == 0x5f || n == 0x203f || n == 0x2040 || n == 0x2054 || n == 0xfe33 || n == 0xfe34 ||
    (0xfe4d ≤ n && n ≤ 0xfe4f) || n == 0xff3f

/-- A character of a word: a letter, mark, digit, connector or joiner. -/
def isWord (c : Char) : Bool :=
  if c.toNat < 128 then isAsciiLetter c || isAsciiDigit c || c == '_'
  else isLetter c || Text.inRanges c.toNat Text.markRanges || isDigit c || isConnector c ||
    c.toNat == 0x200c || c.toNat == 0x200d

end SchemaReview
