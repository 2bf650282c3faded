import SchemaReview.Text.Basic

/-!
# Document.Reference — character references in marked-up text

A reference stands between an ampersand and a semicolon: one of five names, or the number of a
character in decimal or hexadecimal digits.
-/

namespace SchemaReview.Markup

/-- The characters with a name. -/
def namedCharacter? (name : Text) : Option Char :=
  if name = "lt".toList then some '<'
  else if name = "gt".toList then some '>'
  else if name = "amp".toList then some '&'
  else if name = "apos".toList then some '\x27'
  else if name = "quot".toList then some '"'
  else none

/-- The value of a digit up to base sixteen. -/
def digit? (base : Nat) (c : Char) : Option Nat :=
  let value :=
    if '0' ≤ c ∧ c ≤ '9' then some (c.toNat - '0'.toNat)
    else if 'a' ≤ c ∧ c ≤ 'f' then some (c.toNat - 'a'.toNat + 10)
    else if 'A' ≤ c ∧ c ≤ 'F' then some (c.toNat - 'A'.toNat + 10)
    else none
  value.filter (· < base)

/-- The character with the number that the digits write; there is none for zero. -/
def numberedCharacter? (base : Nat) (digits : Text) : Option Char := do
  let values ← digits.mapM (digit? base)
  let code := values.foldl (fun n d => base * n + d) 0
  if code ≠ 0 ∧ code.isValidChar then some (Char.ofNat code) else none

/-- The character that a reference stands for. -/
def character? : Text → Option Char
  | '#' :: 'x' :: digits => numberedCharacter? 16 digits
  | '#' :: digits => numberedCharacter? 10 digits
  | name => namedCharacter? name

/-- The text with every reference replaced, where `reference` holds the characters of an open
reference, last one first. -/
def expandFrom (reference : Option Text) : Text → Option Text
  | [] => if reference.isSome then none else some []
  | c :: cs =>
    match reference with
    | none => if c = '&' then expandFrom (some []) cs else (expandFrom none cs).map (c :: ·)
    | some seen =>
      if c = ';' then do
        let character ← character? seen.reverse
        (expandFrom none cs).map (character :: ·)
      else if c = '&' then none
      else expandFrom (some (c :: seen)) cs

/-- The text with every reference replaced; `none` when one of them stands for no character. -/
def expand? (raw : Text) : Option Text := expandFrom none raw

end SchemaReview.Markup
