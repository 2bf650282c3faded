import SchemaReview.Text.Basic

/-!
# Source.Line — the lines of a text

A line ends with a line feed, a carriage return or both in this order.  A terminator at the very
end of the text does not start another line.
-/

namespace SchemaReview

/-- Byte range of a line, without its terminator. -/
structure LineRange where
  start : Nat
  stop : Nat
deriving DecidableEq, Repr

/-- The lines of `t`, where `t` begins at byte `offset` inside the line that began at `start`. -/
def lineRangesFrom (start offset : Nat) : Text → List LineRange
  | [] => if start < offset then [⟨start, offset⟩] else []
  | '\r' :: '\n' :: cs => ⟨start, offset⟩ :: lineRangesFrom (offset + 2) (offset + 2) cs
  | c :: cs =>
    if c = '\n' ∨ c = '\r' then ⟨start, offset⟩ :: lineRangesFrom (offset + 1) (offset + 1) cs
    else lineRangesFrom start (offset + c.utf8Size) cs

/-- The lines of a text. -/
def lineRanges (t : Text) : List LineRange := lineRangesFrom 0 0 t

/-- Number of the line that holds the byte, counted from one: the last line that starts at or
before it. -/
def lineNumber (lines : List LineRange) (offset : Nat) : Nat :=
  max 1 (lines.countP fun l => decide (l.start ≤ offset))

/-- Start of the line with the given number; zero when there is no such line. -/
def lineStart (lines : List LineRange) (number : Nat) : Nat :=
  match lines[number - 1]? with
  | some l => l.start
  | none => 0

end SchemaReview
