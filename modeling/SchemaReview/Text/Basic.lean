import SchemaReview.Text.Character

/-!
# Text.Basic — texts, their size in bytes, slices, trimming and words

A text is a list of characters.  Positions are counted in bytes of its UTF-8 form, so slices take
byte offsets; a slice never splits a character.
-/

namespace SchemaReview

/-- A piece of script text. -/
abbrev Text := List Char

namespace Text

/-- Number of bytes of the UTF-8 form. -/
def byteSize : Text → Nat
  | [] => 0
  | c :: cs => c.utf8Size + byteSize cs

/-- The characters that fit into the first `n` bytes. -/
def takeBytes : Nat → Text → Text
  | _, [] => []
  | n, c :: cs => if c.utf8Size ≤ n then c :: takeBytes (n - c.utf8Size) cs else []

/-- The characters that start at byte `n` or later. -/
def dropBytes : Nat → Text → Text
  | _, [] => []
  | n, c :: cs => if n = 0 then c :: cs else dropBytes (n - c.utf8Size) cs

/-- The characters from byte `start` up to byte `stop`. -/
def slice (t : Text) (start stop : Nat) : Text :=
  takeBytes (stop - start) (dropBytes start t)

/-- Byte `n` is the start of a character, or lies at or past the end. -/
def isBoundary : Text → Nat → Bool
  | [], _ => true
  | c :: cs, n => n == 0 || (c.utf8Size ≤ n && isBoundary cs (n - c.utf8Size))

@[simp] theorem byteSize_nil : byteSize [] = 0 := rfl

@[simp] theorem byteSize_cons (c : Char) (cs : Text) :
    byteSize (c :: cs) = c.utf8Size + byteSize cs := rfl

@[simp] theorem byteSize_append (s t : Text) : byteSize (s ++ t) = byteSize s + byteSize t := by
  induction s with
  | nil => simp
  | cons c cs ih => simp [ih, Nat.add_assoc]

/-! ### Trimming and words -/

/-- The text without leading white space. -/
def trimStart (t : Text) : Text := t.dropWhile isBlank

/-- The text without trailing white space. -/
def trimEnd (t : Text) : Text := (t.reverse.dropWhile isBlank).reverse

/-- The text without white space at either end. -/
def trim (t : Text) : Text := trimEnd (trimStart t)

/-- White space only. -/
def isBlankText (t : Text) : Bool := t.all isBlank

/-- The words of `t`, where `word` holds the characters of the current word, last one first. -/
def wordsFrom (word : Text) : Text → List Text
  | [] => if word.isEmpty then [] else [word.reverse]
  | c :: cs =>
    if isBlank c then
      if word.isEmpty then wordsFrom [] cs else word.reverse :: wordsFrom [] cs
    else wordsFrom (c :: word) cs

/-- The maximal pieces without white space. -/
def words (t : Text) : List Text := wordsFrom [] t

/-- The words joined by single spaces, so that a clause over several lines fits on one. -/
def oneLine (t : Text) : Text := [' '].intercalate t.words

/-- The pieces between the separators, where `piece` holds the current one, last character
first. -/
def splitFrom (sep : Char) (piece : Text) : Text → List Text
  | [] => [piece.reverse]
  | c :: cs =>
    if c = sep then piece.reverse :: splitFrom sep [] cs else splitFrom sep (c :: piece) cs

/-- The pieces between the separators; there is one more piece than separators. -/
def splitOn (sep : Char) (t : Text) : List Text := splitFrom sep [] t

/-- Equality up to the case of ASCII letters. -/
def equalsIgnoringCase (s t : Text) : Bool := s.map Char.toLower == t.map Char.toLower

/-- Every doubled single quote written once. -/
def undoubleQuotes : Text → Text
  | '\x27' :: '\x27' :: cs => '\x27' :: undoubleQuotes cs
  | c :: cs => c :: undoubleQuotes cs
  | [] => []

end Text

end SchemaReview
