import SchemaReview.Toml.Scalar

/-!
# Toml.Document — reading TOML documents

A reader takes what it recognizes from the front of the text, or fails.  Arrays and inline tables
nest to a depth of at most seventy-nine.
-/

namespace SchemaReview.Toml

/-- Takes a value from the front of the text. -/
abbrev Reader := StateT Text Option

namespace Reader

/-- The next character, which stays in place. -/
def peek : Reader (Option Char) := fun t => some (t.head?, t)

/-- Takes one character. -/
def next : Reader Char := fun
  | c :: cs => some (c, cs)
  | [] => none

/-- Takes the given character. -/
def char (c : Char) : Reader Unit := fun t => (expect? c t).map fun rest => ((), rest)

/-- Takes the characters of a class, as many as there are. -/
def takeWhile (p : Char → Bool) : Reader Text := fun t => some (t.takeWhile p, t.dropWhile p)

/-- Takes the given characters if they come next. -/
def accept (w : Text) : Reader Bool := fun t =>
  if w.isPrefixOf t then some (true, t.drop w.length) else some (false, t)

/-- Skips spaces and tabs. -/
def blanks : Reader Unit := do
  let _ ← takeWhile fun c => c == ' ' || c == '\t'
  pure ()

end Reader

open Reader

/-- A character that may stand in comments and literal strings: a tab or any other character that
is no control character. -/
def isPrintable (c : Char) : Bool := c == '\t' || (0x20 ≤ c.toNat && c.toNat != 0x7f)

/-- Takes a line end if one comes next. -/
def acceptLineEnd : Reader Bool := do
  if ← accept ['\n'] then pure true else accept ['\r', '\n']

/-- Skips a comment if one comes next. -/
def comment : Reader Unit := do
  if ← accept ['#'] then
    let _ ← takeWhile isPrintable
    pure ()

/-- Takes blanks and an optional comment up to the end of the line or of the document. -/
def restOfLine : Reader Unit := do
  blanks
  comment
  match ← peek with
  | none => pure ()
  | some _ => if ← acceptLineEnd then pure () else failure

/-- Skips blanks, comments and line ends. -/
def spacing : Nat → Reader Unit
  | 0 => pure ()
  | fuel + 1 => do
    blanks
    comment
    if ← acceptLineEnd then spacing fuel

/-! ### Strings -/

/-- The character with the code point that `n` hexadecimal digits write. -/
def codePoint (n : Nat) : Reader Char := fun t =>
  let ds := t.take n
  let code := ofDigits 16 ds
  if ds.length = n ∧ ds.all (isDigitOf 16) ∧ code.isValidChar then some (Char.ofNat code, t.drop n)
  else none

/-- The character that stands after a backslash. -/
def escape : Reader Char := do
  match ← next with
  | 'b' => pure '\x08'
  | 't' => pure '\t'
  | 'n' => pure '\n'
  | 'f' => pure '\x0c'
  | 'r' => pure '\r'
  | '"' => pure '"'
  | '\\' => pure '\\'
  | 'u' => codePoint 4
  | 'U' => codePoint 8
  | _ => failure

/-- The rest of a string on one line; `done` holds its characters, last one first. -/
def basicString : Nat → Text → Reader Text
  | 0, _ => failure
  | fuel + 1, done => do
    match ← next with
    | '"' => pure done.reverse
    | '\\' =>
      let c ← escape
      basicString fuel (c :: done)
    | c => if isPrintable c then basicString fuel (c :: done) else failure

/-- The rest of a string between single quotes. -/
def literalString : Reader Text := do
  let t ← takeWhile fun c => isPrintable c && c != '\x27'
  char '\x27'
  pure t

/-- The number of quotes `q` that come next, at most five. -/
def quoteRun (q : Char) : Reader Nat := fun t =>
  let n := ((t.take 5).takeWhile (· == q)).length
  some (n, t.drop n)

/-- Skips white space and line ends after a backslash at the end of a line. -/
def continuation (fuel : Nat) : Reader Unit := do
  blanks
  if ← acceptLineEnd then
    skip fuel
  else failure
where
  skip : Nat → Reader Unit
    | 0 => pure ()
    | fuel + 1 => do
      blanks
      if ← acceptLineEnd then skip fuel

/-- The rest of a string over several lines between three quotes `q`; backslashes count only with
`escapes`.  Up to two quotes may stand inside or right before the end. -/
def longString (q : Char) (escapes : Bool) : Nat → Text → Reader Text
  | 0, _ => failure
  | fuel + 1, done => do
    match ← quoteRun q with
    | 0 =>
      if ← acceptLineEnd then longString q escapes fuel ('\n' :: done)
      else
        let c ← next
        if escapes && c == '\\' then
          match ← peek with
          | some d =>
            if d == ' ' || d == '\t' || d == '\n' || d == '\r' then
              continuation fuel
              longString q escapes fuel done
            else
              let e ← escape
              longString q escapes fuel (e :: done)
          | none => failure
        else if isPrintable c then longString q escapes fuel (c :: done)
        else failure
    | n + 3 => pure (List.replicate n q ++ done).reverse
    | n => longString q escapes fuel (List.replicate n q ++ done)

/-- A string of any kind. -/
def string (fuel : Nat) : Reader Text := do
  if ← accept ['"', '"', '"'] then
    let _ ← acceptLineEnd
    longString '"' true fuel []
  else if ← accept ['\x27', '\x27', '\x27'] then
    let _ ← acceptLineEnd
    longString '\x27' false fuel []
  else if ← accept ['"'] then basicString fuel []
  else
    char '\x27'
    literalString

/-! ### Keys -/

/-- A character of a key without quotes. -/
def isKeyChar (c : Char) : Bool := isAsciiLetter c || isAsciiDigit c || c == '_' || c == '-'

/-- One part of a key. -/
def keyPart (fuel : Nat) : Reader String := do
  match ← peek with
  | some '"' =>
    char '"'
    return String.ofList (← basicString fuel [])
  | some '\x27' =>
    char '\x27'
    return String.ofList (← literalString)
  | _ =>
    let t ← takeWhile isKeyChar
    if t.isEmpty then failure else return String.ofList t

/-- The parts of a key, separated by points. -/
def keyParts (fuel : Nat) : Nat → Reader (List String)
  | 0 => failure
  | n + 1 => do
    blanks
    let part ← keyPart fuel
    blanks
    if ← accept ['.'] then
      return part :: (← keyParts fuel n)
    else return [part]

/-- The greatest depth of nesting, one more than what is accepted. -/
def depthLimit : Nat := 80

/-- A key: the path in front of it and its last part. -/
def key (fuel : Nat) : Reader (List String × String) := do
  let parts ← keyParts fuel (depthLimit - 1)
  match parts.getLast? with
  | some last => return (parts.dropLast, last)
  | none => failure

/-! ### Values -/

/-- A character of a scalar without quotes. -/
def isScalarChar (c : Char) : Bool :=
  isAsciiLetter c || isAsciiDigit c || c == '+' || c == '-' || c == '_' || c == '.' || c == ':'

/-- A scalar without quotes; a date and a time may be separated by one space. -/
def scalar : Reader Value := do
  let t ← takeWhile isScalarChar
  let rest ← get
  match rest with
  | ' ' :: d :: _ =>
    if isAsciiDigit d && afterDate? t == some [] then
      char ' '
      let time ← takeWhile isScalarChar
      StateT.lift (scalar? (t ++ ' ' :: time))
    else StateT.lift (scalar? t)
  | _ => StateT.lift (scalar? t)

/-- The items of an array up to its closing bracket. -/
def items (value : Reader Value) (fuel : Nat) : Nat → List Value → Reader (List Value)
  | 0, _ => failure
  | n + 1, done => do
    spacing fuel
    if ← accept [']'] then pure done.reverse
    else
      let v ← value
      spacing fuel
      if ← accept [','] then items value fuel n (v :: done)
      else
        char ']'
        pure (v :: done).reverse

/-- The entries of an inline table up to its closing brace, after an entry has begun. -/
def inlineEntries (value : Reader Value) (fuel : Nat) : Nat → Entries → Reader Entries
  | 0, _ => failure
  | n + 1, done => do
    let (path, last) ← key fuel
    char '='
    blanks
    let v ← value
    let done ← StateT.lift (done.defineInline? last v path)
    blanks
    if ← accept [','] then inlineEntries value fuel n done
    else
      char '\x7d'
      pure done

/-- A string or a scalar. -/
def leaf (fuel : Nat) : Reader Value := do
  match ← peek with
  | some '"' => return .string (String.ofList (← string fuel))
  | some '\x27' => return .string (String.ofList (← string fuel))
  | _ => scalar

/-- A value in which arrays and inline tables nest at most `depth` times. -/
def value (fuel : Nat) : Nat → Reader Value
  | 0 => leaf fuel
  | depth + 1 => do
    if ← accept ['['] then return .array (← items (value fuel depth) fuel fuel [])
    else if ← accept ['\x7b'] then
      blanks
      if ← accept ['\x7d'] then return .inline .explicit []
      else return .inline .explicit (← inlineEntries (value fuel depth) fuel fuel [])
    else leaf fuel

/-! ### Documents -/

/-- A document that is being read: the finished part, and the table whose header came last. -/
structure OpenDocument where
  root : Entries
  /-- Path and name of the table at hand; none at the beginning. -/
  header : Option (List String × String)
  /-- The header was doubled. -/
  repeated : Bool
  current : Entries

namespace OpenDocument

/-- Puts the table at hand into its place. -/
def close? (p : OpenDocument) : Option Entries :=
  match p.header with
  | none => some p.current
  | some (path, name) =>
    p.root.change? false (fun _ entries =>
      let table := Value.table .explicit p.current
      if p.repeated then
        match entries.lookup name with
        | some (.tables items) => some (entries.set name (.tables (items ++ [table])))
        | none => some (entries ++ [(name, .tables [table])])
        | some _ => none
      else entries.define? name table) .explicit path

/-- Opens the table of a header.  A table that only lay on the way to another one is taken up. -/
def openTable? (p : OpenDocument) (path : List String) (name : String) : Option OpenDocument := do
  let root ← p.close?
  let start ← root.change? false (fun _ entries =>
    match entries.lookup name with
    | some (.table .implicit _) => some entries
    | none => some entries
    | some _ => none) .explicit path
  let inner := found start path name
  let cleared ← start.change? false (fun _ entries => some (entries.erase name)) .explicit path
  some ⟨cleared, some (path, name), false, inner⟩
where
  /-- The entries of the table at the end of the path. -/
  found (entries : Entries) : List String → String → Entries
    | [], name =>
      match entries.lookup name with
      | some (.table _ inner) => inner
      | _ => []
    | step :: path, name =>
      match entries.lookup step with
      | some (.table _ inner) => found inner path name
      | some (.tables items) =>
        match items.getLast? with
        | some (.table _ inner) => found inner path name
        | _ => []
      | _ => []

/-- Opens another table of an array of tables. -/
def openRepeated? (p : OpenDocument) (path : List String) (name : String) :
    Option OpenDocument := do
  let root ← p.close?
  let root ← root.change? false (fun _ entries =>
    match entries.lookup name with
    | none => some entries
    | some (.tables _) => some entries
    | some _ => none) .explicit path
  some ⟨root, some (path, name), true, []⟩

end OpenDocument

/-- Reads a header and opens its table. -/
def header (fuel : Nat) (p : OpenDocument) : Reader OpenDocument := do
  char '['
  let repeated ← accept ['[']
  let (path, name) ← key fuel
  char ']'
  if repeated then char ']'
  let opened ← StateT.lift (if repeated then p.openRepeated? path name else p.openTable? path name)
  restOfLine
  pure opened

/-- Reads a key with its value. -/
def keyValue (fuel : Nat) (p : OpenDocument) : Reader OpenDocument := do
  let (path, last) ← key fuel
  char '='
  blanks
  let v ← value fuel (depthLimit - 1)
  restOfLine
  let current ← StateT.lift (p.current.defineDotted? path last v)
  pure { p with current := current }

/-- Reads line after line. -/
def lines (fuel : Nat) : Nat → OpenDocument → Reader Entries
  | 0, _ => failure
  | n + 1, p => do
    blanks
    match ← peek with
    | none => StateT.lift p.close?
    | some c =>
      if c == '#' || c == '\n' || c == '\r' then
        restOfLine
        lines fuel n p
      else if c == '[' then lines fuel n (← header fuel p)
      else lines fuel n (← keyValue fuel p)

/-- The entries of a document, a byte order mark at its beginning skipped. -/
def document? (t : Text) : Option Entries :=
  let t := match t with
    | '\ufeff' :: cs => cs
    | cs => cs
  let fuel := t.length + 1
  ((lines fuel fuel ⟨[], none, false, []⟩).run t).map (·.1)

end SchemaReview.Toml
