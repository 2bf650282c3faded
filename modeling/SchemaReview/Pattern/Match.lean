import SchemaReview.Pattern.Basic
import SchemaReview.Pattern.Cursor

/-!
# Pattern.Match — matching, searching and finding all matches

`Pattern.run p c g k` matches `p` at the cursor `c` and hands the position after it to `k`; when
`k` refuses, the next way to match `p` is tried.  The first way for which everything succeeds is
the match.  `search` looks for the leftmost match, and `findAll` for all matches from left to
right that do not overlap.
-/

namespace SchemaReview

/-- A captured piece: its byte range and the text from its start on. -/
structure Capture where
  start : Nat
  stop : Nat
  tail : Text
deriving DecidableEq, Repr

namespace Capture

/-- The captured characters. -/
def text (c : Capture) : Text := Text.takeBytes (c.stop - c.start) c.tail

/-- The captured characters as a string. -/
def string (c : Capture) : String := String.ofList c.text

end Capture

/-- Captured pieces by number, the latest first. -/
abbrev Captures := List (Nat × Capture)

/-- A match of a pattern. -/
structure Match where
  start : Cursor
  stop : Cursor
  captures : Captures
deriving DecidableEq, Repr

namespace Match

/-- The piece captured under the number `n`. -/
def group? (m : Match) (n : Nat) : Option Capture := m.captures.lookup n

/-- The text captured under the number `n`; empty when nothing was. -/
def groupText (m : Match) (n : Nat) : Text := ((m.group? n).map Capture.text).getD []

/-- The text captured under the number `n`, as a string. -/
def groupString (m : Match) (n : Nat) : String := String.ofList (m.groupText n)

end Match

namespace Pattern

variable {α : Type}

/-- What is done after a part of a pattern has matched. -/
abbrev Continue (α : Type) := Cursor → Captures → Option α

/-- Repeats `step` as often as possible, each time moving forward, and at most once for each
character of `bound`. -/
def runStar (step : Cursor → Captures → Continue α → Option α) :
    Text → Cursor → Captures → Continue α → Option α
  | [], c, g, k => k c g
  | _ :: bound, c, g, k =>
    (step c g fun c' g' => if c.offset < c'.offset then runStar step bound c' g' k else none).orElse
      fun _ => k c g

/-- Matches the pattern at the cursor and continues with `k`; the first way that succeeds wins. -/
def run : Pattern → Cursor → Captures → Continue α → Option α
  | .empty, c, g, k => k c g
  | .one cls, c, g, k =>
    match c.rest with
    | [] => none
    | x :: xs => if cls.holds x then k (c.past x xs) g else none
  | .seq p q, c, g, k => p.run c g fun c' g' => q.run c' g' k
  | .alt p q, c, g, k => (p.run c g k).orElse fun _ => q.run c g k
  | .many cls, c, g, k => (c.reach cls.holds).findSome? fun c' => k c' g
  | .star p, c, g, k => runStar (fun c' g' k' => p.run c' g' k') c.rest c g k
  | .group n p, c, g, k =>
    p.run c g fun c' g' => k c' ((n, ⟨c.offset, c'.offset, c.rest⟩) :: g')
  | .wordEdge, c, g, k => if c.atWordEdge then k c g else none
  | .textStart, c, g, k => if c.before.isNone then k c g else none
  | .textEnd, c, g, k => if c.rest.isEmpty then k c g else none

/-- The match that starts at the cursor, if any. -/
def matchAt (p : Pattern) (c : Cursor) : Option Match :=
  p.run c [] fun c' g => some ⟨c, c', g⟩

/-- The leftmost match at the given position or later. -/
def searchFrom (p : Pattern) (before : Option Char) (offset : Nat) : Text → Option Match
  | [] => p.matchAt ⟨before, offset, []⟩
  | x :: xs =>
    (p.matchAt ⟨before, offset, x :: xs⟩).orElse
      fun _ => searchFrom p (some x) (offset + x.utf8Size) xs

/-- The leftmost match of the pattern in the text. -/
def search (p : Pattern) (t : Text) : Option Match := p.searchFrom none 0 t

/-- The leftmost match that starts at byte `n` or later. -/
def searchAt (p : Pattern) (t : Text) (n : Nat) : Option Match :=
  let c := Cursor.atByte t n
  p.searchFrom c.before c.offset c.rest

/-- The pattern matches somewhere in the text. -/
def occursIn (p : Pattern) (t : Text) : Bool := (p.search t).isSome

/-- The matches at the given position or later that start at byte `resume` or later, each one
after the end of the one before. -/
def findAllFrom (p : Pattern) (resume : Nat) (before : Option Char) (offset : Nat) :
    Text → List Match
  | [] => if offset < resume then [] else (p.matchAt ⟨before, offset, []⟩).toList
  | x :: xs =>
    if offset < resume then findAllFrom p resume (some x) (offset + x.utf8Size) xs
    else match p.matchAt ⟨before, offset, x :: xs⟩ with
      | some m => m :: findAllFrom p m.stop.offset (some x) (offset + x.utf8Size) xs
      | none => findAllFrom p resume (some x) (offset + x.utf8Size) xs

/-- All matches from left to right that do not overlap. -/
def findAll (p : Pattern) (t : Text) : List Match := p.findAllFrom 0 none 0 t

/-! ### One step of each kind of pattern -/

theorem run_empty (c : Cursor) (g : Captures) (k : Continue α) : run .empty c g k = k c g := rfl

theorem run_seq (p q : Pattern) (c : Cursor) (g : Captures) (k : Continue α) :
    run (.seq p q) c g k = p.run c g fun c' g' => q.run c' g' k := rfl

theorem run_alt (p q : Pattern) (c : Cursor) (g : Captures) (k : Continue α) :
    run (.alt p q) c g k = (p.run c g k).orElse fun _ => q.run c g k := rfl

theorem run_many_of_holds {cls : CharClass} {x : Char} (h : cls.holds x = true)
    (before : Option Char) (offset : Nat) (xs : Text) (g : Captures) (k : Continue α) :
    run (.many cls) ⟨before, offset, x :: xs⟩ g k =
      (run (.many cls) ⟨some x, offset + x.utf8Size, xs⟩ g k).or
        (k ⟨before, offset, x :: xs⟩ g) := by
  simp [run, Cursor.reach_cons_of_holds h, List.findSome?_append]

theorem run_many_of_not_holds {cls : CharClass} {x : Char} (h : cls.holds x = false)
    (before : Option Char) (offset : Nat) (xs : Text) (g : Captures) (k : Continue α) :
    run (.many cls) ⟨before, offset, x :: xs⟩ g k = k ⟨before, offset, x :: xs⟩ g := by
  simp [run, Cursor.reach_cons_of_not_holds h]

theorem run_many_nil (cls : CharClass) (before : Option Char) (offset : Nat) (g : Captures)
    (k : Continue α) : run (.many cls) ⟨before, offset, []⟩ g k = k ⟨before, offset, []⟩ g := by
  simp [run, Cursor.reach_nil]

theorem run_one_cons (cls : CharClass) (before : Option Char) (offset : Nat) (x : Char) (xs : Text)
    (g : Captures) (k : Continue α) :
    run (.one cls) ⟨before, offset, x :: xs⟩ g k =
      if cls.holds x then k ⟨some x, offset + x.utf8Size, xs⟩ g else none := rfl

theorem run_one_nil (cls : CharClass) (before : Option Char) (offset : Nat) (g : Captures)
    (k : Continue α) : run (.one cls) ⟨before, offset, []⟩ g k = none := rfl

end Pattern

end SchemaReview
