import SchemaReview.Source.Comment
import SchemaReview.Source.Line

/-!
# Source.Basic — a script prepared for reading, and spans in it

A source holds the comment-free text of a script and the index of its lines.  A span says where a
piece stands: byte offset and length, line, and column counted in characters.
-/

namespace SchemaReview

/-- Where a piece of text stands. -/
structure Span where
  /-- Byte offset from the start of the source. -/
  offset : Nat
  /-- Length in bytes. -/
  length : Nat
  /-- Line number, from one. -/
  line : Nat
  /-- Column in characters, from one. -/
  column : Nat
deriving DecidableEq, Repr

namespace Span

/-- A span known by its bytes only. -/
def ofBytes (offset length : Nat) : Span := ⟨offset, length, 0, 0⟩

/-- A span known by its line and column only. -/
def ofLocation (line column length : Nat) : Span := ⟨0, length, line, column⟩

end Span

/-- A piece of a source that starts on the line `line`. -/
structure Piece where
  line : Nat
  offset : Nat
  text : Text
deriving DecidableEq, Repr

/-- A script with comments blanked out, and its lines. -/
structure Source where
  text : Text
  lines : List LineRange
  lines_eq : lines = lineRanges text

namespace Source

/-- Indexes a comment-free text. -/
def ofMasked (t : Text) : Source := ⟨t, lineRanges t, rfl⟩

/-- Prepares a script for reading. -/
def ofText (t : Text) : Source := ofMasked (maskComments t)

/-- Prepares a script for reading. -/
def ofString (sql : String) : Source := ofText sql.toList

/-- Size of the text in bytes. -/
def size (s : Source) : Nat := s.text.byteSize

/-- Number of lines. -/
def lineCount (s : Source) : Nat := s.lines.length

/-- Number of the line that holds the byte. -/
def lineOf (s : Source) (offset : Nat) : Nat := lineNumber s.lines offset

/-- The text from byte `start` up to byte `stop`. -/
def slice (s : Source) (start stop : Nat) : Text := Text.slice s.text start stop

/-- The lines with their numbers, offsets and texts. -/
def linePieces (s : Source) : List Piece :=
  s.lines.mapIdx fun i l => ⟨i + 1, l.start, s.slice l.start l.stop⟩

/-- The span of `length` bytes from `offset` on.  The column is one more than the number of
characters between the start of the line and the offset. -/
def spanAt (s : Source) (offset length : Nat) : Span :=
  let line := s.lineOf offset
  let start := lineStart s.lines line
  ⟨offset, length, line, (s.slice start offset).length + 1⟩

/-- The span, refused when the offset falls inside a character. -/
def spanAt? (s : Source) (offset length : Nat) : Option Span :=
  if Text.isBoundary s.text offset then some (s.spanAt offset length) else none

/-- The span of a piece. -/
def spanOf (s : Source) (p : Piece) : Span := s.spanAt p.offset p.text.byteSize

end Source

end SchemaReview
