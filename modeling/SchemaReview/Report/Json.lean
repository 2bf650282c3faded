import SchemaReview.Report.Layout

/-!
# Report.Json — JSON values and their layout

Members of an object stand in the order in which they are given.  Values inside arrays and objects
stand on lines of their own, indented by two spaces a level.
-/

namespace SchemaReview.Report

/-- A JSON value. -/
inductive Json where
  | null
  | bool (b : Bool)
  | number (n : Nat)
  | string (s : String)
  | array (items : List Json)
  | object (members : List (String × Json))

namespace Json

/-- The hexadecimal digit for a number below sixteen. -/
def hexDigit (n : Nat) : Char := Nat.digitChar n

/-- A character inside a string: quotes, backslashes and control characters are escaped. -/
def escape (c : Char) : List Char :=
  if c = '"' then ['\\', '"']
  else if c = '\\' then ['\\', '\\']
  else if c = '\n' then ['\\', 'n']
  else if c = '\r' then ['\\', 'r']
  else if c = '\t' then ['\\', 't']
  else if c = '\x08' then ['\\', 'b']
  else if c = '\x0c' then ['\\', 'f']
  else if c.toNat < 0x20 then
    ['\\', 'u', '0', '0', hexDigit (c.toNat / 16), hexDigit (c.toNat % 16)]
  else [c]

/-- A string in quotes. -/
def quote (s : String) : String := String.ofList ('"' :: s.toList.flatMap escape ++ ['"'])

mutual

/-- The text of a value whose first line is indented already. -/
def write (indent : Nat) : Json → String
  | null => "null"
  | bool b => if b then "true" else "false"
  | number n => toString n
  | string s => quote s
  | array [] => "[]"
  | array (item :: items) =>
    "[\n" ++ writeItems (indent + 2) (item :: items) ++ "\n" ++ spaces indent ++ "]"
  | object [] => "\x7b\x7d"
  | object (member :: members) =>
    "\x7b\n" ++ writeMembers (indent + 2) (member :: members) ++ "\n" ++ spaces indent ++ "\x7d"

/-- The items of an array, one after the other. -/
def writeItems (indent : Nat) : List Json → String
  | [] => ""
  | [item] => spaces indent ++ write indent item
  | item :: items => spaces indent ++ write indent item ++ ",\n" ++ writeItems indent items

/-- The members of an object, one after the other. -/
def writeMembers (indent : Nat) : List (String × Json) → String
  | [] => ""
  | [(key, value)] => spaces indent ++ quote key ++ ": " ++ write indent value
  | (key, value) :: members =>
    spaces indent ++ quote key ++ ": " ++ write indent value ++ ",\n" ++ writeMembers indent members

end

/-- The text of a value. -/
def render (value : Json) : String := write 0 value

/-- A string, or null when there is none. -/
def ofString? : Option String → Json
  | some s => string s
  | none => null

/-- An array of strings. -/
def ofStrings (strings : List String) : Json := array (strings.map string)

end Json

end SchemaReview.Report
