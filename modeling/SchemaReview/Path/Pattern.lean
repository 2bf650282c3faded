import SchemaReview.Path.Basic

/-!
# Path.Pattern — patterns for paths

A pattern is made of components between slashes.  In a component `?` stands for any character, `*`
for any sequence of characters and a bracket for one character of a set, or of its complement after
an exclamation mark.  A component of two asterisks stands for any number of directories; elsewhere
two asterisks must not follow each other.
-/

namespace SchemaReview.Path

/-- A part of a name pattern. -/
inductive Wildcard where
  | char (c : Char)
  | anyChar
  | anySequence
  /-- A character in one of the ranges. -/
  | within (ranges : List (Char × Char))
  /-- A character in none of the ranges. -/
  | without (ranges : List (Char × Char))
deriving DecidableEq, Repr

/-- A component of a path pattern. -/
inductive Component where
  /-- Any number of directories. -/
  | recursive
  /-- One name. -/
  | name (wildcards : List Wildcard)
deriving DecidableEq, Repr

/-- A pattern for paths. -/
structure PathPattern where
  /-- The pattern starts at the root and not at the working directory. -/
  absolute : Bool
  components : List Component
  /-- The pattern ends with a slash and so matches directories only. -/
  directoriesOnly : Bool
deriving DecidableEq, Repr

/-! ### Reading patterns -/

/-- The ranges in a bracket; a single character is a range of its own. -/
def ranges : Text → List (Char × Char)
  | a :: '-' :: b :: cs => (a, b) :: ranges cs
  | a :: cs => (a, a) :: ranges cs
  | [] => []

/-- The bracket with the given content. -/
def bracket (negated : Bool) (content : Text) : Wildcard :=
  if negated then .without (ranges content) else .within (ranges content)

/-- Reads a name pattern, where `inside` holds the content of an open bracket, last character
first, and whether it is negated.  The first character of a bracket never closes it. -/
def wildcardsFrom (inside : Option (Bool × Text)) : Text → Option (List Wildcard)
  | [] => if inside.isSome then none else some []
  | c :: cs =>
    match inside with
    | some (negated, content) =>
      if c = ']' then (wildcardsFrom none cs).map (bracket negated content.reverse :: ·)
      else wildcardsFrom (some (negated, c :: content)) cs
    | none =>
      match c, cs with
      | '?', cs => (wildcardsFrom none cs).map (.anyChar :: ·)
      | '*', '*' :: _ => none
      | '*', cs => (wildcardsFrom none cs).map (.anySequence :: ·)
      | '[', '!' :: first :: cs => wildcardsFrom (some (true, [first])) cs
      | '[', first :: cs => wildcardsFrom (some (false, [first])) cs
      | '[', [] => none
      | c, cs => (wildcardsFrom none cs).map (.char c :: ·)

/-- Reads a component. -/
def component? (t : Text) : Option Component :=
  if t = ['*', '*'] then some .recursive else (wildcardsFrom none t).map .name

/-- The path is a pattern and no plain path. -/
def isPattern (path : String) : Bool := path.toList.any fun c => c == '*' || c == '?' || c == '['

/-- The text without one slash at its end. -/
def dropFinalSlash (t : Text) : Text := if t.getLast? = some '/' then t.dropLast else t

/-- Reads a pattern. -/
def PathPattern.ofString? (pattern : String) : Option PathPattern := do
  let t := pattern.toList
  let absolute := t.head? = some '/'
  let relative := if absolute then t.tail else t
  let components ← (Text.splitOn '/' (dropFinalSlash relative)).mapM component?
  some ⟨absolute, components, t.getLast? = some '/'⟩

/-! ### Matching names -/

/-- The character is in one of the ranges. -/
def inRanges (rs : List (Char × Char)) (c : Char) : Bool := rs.any fun r => r.1 ≤ c && c ≤ r.2

/-- The wildcard stands for the character. -/
def Wildcard.accepts : Wildcard → Char → Bool
  | .char d, c => c == d
  | .anyChar, _ => true
  | .anySequence, _ => true
  | .within rs, c => inRanges rs c
  | .without rs, c => !inRanges rs c

/-- The text and its ends, the longest first. -/
def tails : Text → List Text
  | [] => [[]]
  | c :: cs => (c :: cs) :: tails cs

/-- The rest of a text after the character that the wildcard stands for. -/
def Wildcard.advance? (w : Wildcard) : Text → Option Text
  | c :: cs => if w.accepts c then some cs else none
  | [] => none

/-- What may be left of a name after a name pattern, when the pattern starts at one of the given
ends of the name; longest first.  Every end lies within the longest one, so a sequence leads to the
ends of that one. -/
def remainders : List Wildcard → List Text → List Text
  | [], ends => ends
  | .anySequence :: ws, ends => remainders ws ((ends.head?.map tails).getD [])
  | w :: ws, ends => remainders ws (ends.filterMap w.advance?)

/-- The name matches the name pattern: the pattern may leave nothing of it. -/
def matchesName (ws : List Wildcard) (name : Text) : Bool :=
  (remainders ws [name]).any List.isEmpty

/-- The character that a wildcard stands for when it stands for no other. -/
def Wildcard.char? : Wildcard → Option Char
  | .char c => some c
  | _ => none

/-- The only name that a pattern without wildcards matches. -/
def literal? (ws : List Wildcard) : Option String := (ws.mapM Wildcard.char?).map String.ofList

end SchemaReview.Path
