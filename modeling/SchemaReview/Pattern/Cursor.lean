import SchemaReview.Text.Basic

/-!
# Pattern.Cursor — positions inside a text

A cursor knows the character just before it, its byte offset and the characters that follow.
-/

namespace SchemaReview

/-- A position inside a text. -/
structure Cursor where
  /-- The character just before the position, if any. -/
  before : Option Char
  /-- Bytes in front of the position. -/
  offset : Nat
  /-- The characters after the position. -/
  rest : Text
deriving DecidableEq, Repr

namespace Cursor

/-- The start of a text. -/
def atStart (t : Text) : Cursor := ⟨none, 0, t⟩

/-- The position after the character `x`, in front of `xs`. -/
def past (c : Cursor) (x : Char) (xs : Text) : Cursor := ⟨some x, c.offset + x.utf8Size, xs⟩

/-- Exactly one of the characters around the position belongs to a word. -/
def atWordEdge (c : Cursor) : Bool :=
  (match c.before with
    | some x => isWord x
    | none => false) !=
  (match c.rest with
    | x :: _ => isWord x
    | [] => false)

/-- The positions that a run of characters with the property reaches from a position, the farthest
first, before the positions in `nearer`. -/
def reachFrom (holds : Char → Bool) (nearer : List Cursor) (before : Option Char) (offset : Nat) :
    Text → List Cursor
  | [] => ⟨before, offset, []⟩ :: nearer
  | x :: xs =>
    if holds x then
      reachFrom holds (⟨before, offset, x :: xs⟩ :: nearer) (some x) (offset + x.utf8Size) xs
    else ⟨before, offset, x :: xs⟩ :: nearer

/-- The positions that a run of characters with the property reaches, the farthest first and the
position itself last. -/
def reach (holds : Char → Bool) (c : Cursor) : List Cursor :=
  reachFrom holds [] c.before c.offset c.rest

/-- The positions in `nearer` only come last. -/
theorem reachFrom_append (holds : Char → Bool) (nearer : List Cursor) (before : Option Char)
    (offset : Nat) (t : Text) :
    reachFrom holds nearer before offset t = reachFrom holds [] before offset t ++ nearer := by
  induction t generalizing nearer before offset with
  | nil => rfl
  | cons x xs ih =>
    unfold reachFrom
    split
    · rw [ih, ih [_], List.append_assoc]
      rfl
    · rfl

/-- From the end of a text only that end is reached. -/
theorem reach_nil (holds : Char → Bool) (before : Option Char) (offset : Nat) :
    reach holds ⟨before, offset, []⟩ = [⟨before, offset, []⟩] := rfl

/-- Over a character with the property, what follows it is reached first. -/
theorem reach_cons_of_holds {holds : Char → Bool} {x : Char} (h : holds x = true)
    (before : Option Char) (offset : Nat) (xs : Text) :
    reach holds ⟨before, offset, x :: xs⟩ =
      reach holds ⟨some x, offset + x.utf8Size, xs⟩ ++ [⟨before, offset, x :: xs⟩] := by
  simp only [reach]
  rw [reachFrom, if_pos h, reachFrom_append]

/-- A character without the property ends the run. -/
theorem reach_cons_of_not_holds {holds : Char → Bool} {x : Char} (h : holds x = false)
    (before : Option Char) (offset : Nat) (xs : Text) :
    reach holds ⟨before, offset, x :: xs⟩ = [⟨before, offset, x :: xs⟩] := by
  simp [reach, reachFrom, h]

/-- The first position at byte `n` or later. -/
def seek (n : Nat) (before : Option Char) (offset : Nat) : Text → Cursor
  | [] => ⟨before, offset, []⟩
  | x :: xs =>
    if n ≤ offset then ⟨before, offset, x :: xs⟩ else seek n (some x) (offset + x.utf8Size) xs

/-- The first position of the text at byte `n` or later. -/
def atByte (t : Text) (n : Nat) : Cursor := seek n none 0 t

end Cursor

end SchemaReview
