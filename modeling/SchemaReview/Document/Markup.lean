import SchemaReview.Text.Basic

/-!
# Document.Markup — the events of a marked-up text

A marked-up text is read from left to right, one character at a time.  Tags and the text between
them become events; comments, instructions and document types leave none.  Reading stops at the
first fault, after the events before it.
-/

namespace SchemaReview.Markup

/-- What a marked-up text is made of. -/
inductive Event where
  /-- A start tag. -/
  | opening (name : Text)
  /-- An end tag. -/
  | closing (name : Text)
  /-- A tag that is start and end at once. -/
  | empty (name : Text)
  /-- Text between tags as written, with its references. -/
  | text (raw : Text)
  /-- The content of a section in which nothing is markup. -/
  | verbatim (content : Text)
deriving DecidableEq, Repr

/-- What may be wrong with a marked-up text. -/
inductive Fault where
  /-- An end tag that does not match the open element, or a document type without a name. -/
  | illFormed
  /-- The text ends inside markup, or the markup is of no known kind. -/
  | unclosed
  /-- A reference that stands for no character. -/
  | badReference
deriving DecidableEq, Repr

/-- The events up to the end of a text, or up to its first fault. -/
structure Reading where
  events : List Event
  fault : Option Fault
deriving DecidableEq, Repr

/-- The end of a text without a fault. -/
def Reading.finished : Reading := ⟨[], none⟩

/-- The end of reading at a fault. -/
def Reading.failed (f : Fault) : Reading := ⟨[], some f⟩

/-- An event before the others. -/
def Reading.after (e : Event) (r : Reading) : Reading := { r with events := e :: r.events }

/-! ### Tags -/

/-- White space inside tags. -/
def isSpace (c : Char) : Bool := c == ' ' || c == '\t' || c == '\n' || c == '\r'

/-- The name at the start of a tag: everything up to the first white space. -/
def nameOf (content : Text) : Text := content.takeWhile fun c => !isSpace c

/-- The name in an end tag: everything but white space at its end.  White space alone stays. -/
def closedName (content : Text) : Text :=
  if content.all isSpace then content else (content.reverse.dropWhile isSpace).reverse

/-- The event of the tag with the given content between the angle brackets. -/
def tagEvent : Text → Event
  | '/' :: content => .closing (closedName content)
  | content =>
    if content.getLast? = some '/' then .empty (nameOf content.dropLast)
    else .opening (nameOf content)

/-- The open elements after an event, innermost first; `none` when an end tag matches none. -/
def track (stack : List Text) : Event → Option (List Text)
  | .opening name => some (name :: stack)
  | .closing name =>
    match stack with
    | outer :: rest => if outer = name then some rest else none
    | [] => none
  | _ => some stack

/-! ### Markup that is no tag -/

/-- The text begins with the word in any case. -/
def beginsWith (word t : Text) : Bool := Text.equalsIgnoringCase (t.take word.length) word

/-- What the end of a piece of markup amounts to. -/
inductive Closing where
  /-- The piece goes on. -/
  | goesOn
  /-- The piece is complete and leaves an event or none. -/
  | complete (event : Option Event)
  | fault (f : Fault)
deriving DecidableEq, Repr

/-- A comment ends with two hyphens, which are not those of its start. -/
def closeComment (seen : Text) : Closing :=
  match seen with
  | '-' :: '-' :: _ =>
    let content := seen.reverse
    if content.length ≤ 4 then .goesOn
    else if "!--".toList.isPrefixOf content then .complete none
    else .fault .unclosed
  | _ => .goesOn

/-- A verbatim section ends with two closing brackets, and begins with a word in capitals. -/
def closeVerbatim (seen : Text) : Closing :=
  match seen with
  | ']' :: ']' :: inner =>
    if "![CDATA[".toList.isPrefixOf seen.reverse then
      .complete (some (.verbatim (inner.reverse.drop 8)))
    else .fault .unclosed
  | _ => .goesOn

/-- A document type ends where its inner angle brackets are in balance, and has a name. -/
def closeDocumentType (seen : Text) : Closing :=
  if seen.count '<' = seen.count '>' then
    let content := seen.reverse
    if !beginsWith "!DOCTYPE".toList content then .fault .unclosed
    else if (content.drop 8).all isSpace then .fault .illFormed
    else .complete none
  else .goesOn

/-- An instruction ends with a question mark, which is not that of its start. -/
def closeInstruction (seen : Text) : Closing :=
  match seen with
  | ['?'] => .fault .unclosed
  | '?' :: _ => .complete none
  | _ => .goesOn

/-- Kinds of markup other than tags. -/
inductive Special where
  | comment
  | verbatim
  | documentType
  | instruction
deriving DecidableEq, Repr

/-- What a closing angle bracket after the given characters, last one first, amounts to. -/
def Special.close : Special → Text → Closing
  | .comment => closeComment
  | .verbatim => closeVerbatim
  | .documentType => closeDocumentType
  | .instruction => closeInstruction

/-- The kind of markup that begins with `<!` and the given character. -/
def Special.ofMark? : Char → Option Special
  | '-' => some .comment
  | '[' => some .verbatim
  | 'D' => some .documentType
  | 'd' => some .documentType
  | _ => none

/-! ### Reading -/

/-- Where the reader stands. -/
inductive Place where
  /-- Between tags. -/
  | text
  /-- Right after an opening angle bracket. -/
  | mark
  /-- In a tag, and inside a value in the given quotes if there are any. -/
  | tag (quote : Option Char)
  /-- Right after an exclamation mark that follows an opening angle bracket. -/
  | declaration
  /-- In markup that is no tag. -/
  | special (kind : Special)
deriving DecidableEq, Repr

/-- The place in a tag after one more of its characters. -/
def quoteAfter (quote : Option Char) (c : Char) : Option Char :=
  match quote with
  | none => if c = '"' ∨ c = '\x27' then some c else none
  | some q => if c = q then none else some q

/-- An event for the text between two tags, when there is some; `seen` holds it, last character
first. -/
def Reading.afterText (seen : Text) (r : Reading) : Reading :=
  if seen.isEmpty then r else r.after (.text seen.reverse)

/-- Reads on, where `seen` holds the characters of the current piece, last one first, and `stack`
the names of the open elements, innermost first. -/
def readFrom : Place → List Text → Text → Text → Reading
  | .text, _, seen, [] => Reading.finished.afterText seen
  | _, _, _, [] => .failed .unclosed
  | .text, stack, seen, c :: cs =>
    if c = '<' then (readFrom .mark stack [] cs).afterText seen
    else readFrom .text stack (c :: seen) cs
  | .mark, stack, _, c :: cs =>
    if c = '!' then readFrom .declaration stack [c] cs
    else if c = '?' then readFrom (.special .instruction) stack [c] cs
    else if c = '>' then (readFrom .text ([] :: stack) [] cs).after (.opening [])
    else readFrom (.tag (quoteAfter none c)) stack [c] cs
  | .tag quote, stack, seen, c :: cs =>
    if quote = none ∧ c = '>' then
      let event := tagEvent seen.reverse
      match track stack event with
      | some inner => (readFrom .text inner [] cs).after event
      | none => .failed .illFormed
    else readFrom (.tag (quoteAfter quote c)) stack (c :: seen) cs
  | .declaration, stack, seen, c :: cs =>
    match Special.ofMark? c with
    | some kind => readFrom (.special kind) stack (c :: seen) cs
    | none => .failed .unclosed
  | .special kind, stack, seen, c :: cs =>
    if c = '>' then
      match kind.close seen with
      | .goesOn => readFrom (.special kind) stack (c :: seen) cs
      | .complete (some event) => (readFrom .text stack [] cs).after event
      | .complete none => readFrom .text stack [] cs
      | .fault f => .failed f
    else readFrom (.special kind) stack (c :: seen) cs

/-- The events of a marked-up text. -/
def read (t : Text) : Reading := readFrom .text [] [] t

end SchemaReview.Markup
