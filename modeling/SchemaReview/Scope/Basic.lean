import SchemaReview.Ddl.TableHeader
import SchemaReview.Source.Basic

/-!
# Scope.Basic — table scopes and their events

A table header opens a scope.  The scope closes at the parenthesis that matches the opening one
of the body, at a semicolon, or at the end of the text.  The body is cut at its top-level commas
into items, so that a column definition or a constraint is one item wherever it stands.
-/

namespace SchemaReview

/-- A declared table. -/
structure TableDecl where
  /-- The name as written, without quotes. -/
  name : String
  /-- Line of the header. -/
  line : Nat
  offset : Nat
deriving DecidableEq, Repr

/-- The key by which tables are compared. -/
def TableDecl.key (t : TableDecl) : String := nameKey t.name

/-- What happens in a script, as far as table scopes go. -/
inductive ScopeEvent where
  /-- A scope opens. -/
  | enter (table : TableDecl)
  /-- An item of the body. -/
  | item (table : TableDecl) (piece : Piece)
  /-- A scope closes on a line. -/
  | exit (table : TableDecl) (line : Nat)
deriving DecidableEq, Repr

/-- What becomes of an open scope when another header stands inside it. -/
inductive ScopeMode where
  /-- The new table takes the place of the open ones. -/
  | replace
  /-- The new table is nested; when it closes, the enclosing one goes on. -/
  | nested
deriving DecidableEq, Repr

/-- A scope that has not been closed. -/
structure OpenScope where
  table : TableDecl
  /-- Number of parentheses open in it. -/
  depth : Nat
  /-- Where the current item begins, when there is one. -/
  itemStart : Option Cursor
deriving DecidableEq, Repr

/-- The open scopes, innermost first, and the quote that hides the text at hand. -/
structure ScopeState where
  stack : List OpenScope
  quote : Option Char
deriving DecidableEq, Repr

namespace Source

variable (s : Source)

/-- The event for the item of the scope that ends at byte `stop`; blank items are dropped. -/
def itemEvents (scope : OpenScope) (stop : Nat) : List ScopeEvent :=
  match scope.itemStart with
  | none => []
  | some start =>
    let raw := Text.takeBytes (stop - start.offset) start.rest
    let offset := start.offset + Text.byteSize (raw.takeWhile isBlank)
    let text := Text.trim raw
    if text.isEmpty then [] else [.item scope.table ⟨s.lineOf offset, offset, text⟩]

/-- The events that close the scopes at byte `stop`, on the line of byte `last`, innermost
first. -/
def closeEvents (stop last : Nat) (stack : List OpenScope) : List ScopeEvent :=
  let line := s.lineOf last
  stack.flatMap fun scope => s.itemEvents scope stop ++ [.exit scope.table line]

/-- Opens the scope of a header. -/
def openScope (mode : ScopeMode) (header : TableHeader) (st : ScopeState) :
    ScopeState × List ScopeEvent :=
  let table : TableDecl := ⟨header.name, s.lineOf header.start, header.start⟩
  let scope : OpenScope := ⟨table, 0, none⟩
  match mode with
  | .replace =>
    (⟨[scope], st.quote⟩, s.closeEvents header.start header.start st.stack ++ [.enter table])
  | .nested =>
    match st.stack with
    | [] => (⟨[scope], st.quote⟩, [.enter table])
    | outer :: rest =>
      (⟨scope :: { outer with itemStart := none } :: rest, st.quote⟩,
        s.itemEvents outer header.start ++ [.enter table])

/-- The enclosing scope goes on at the position after a nested one. -/
def resumeOuter (next : Cursor) : List OpenScope → List OpenScope
  | [] => []
  | outer :: rest =>
    (if 0 < outer.depth then { outer with itemStart := some next } else outer) :: rest

/-- Reads one character at byte `offset` that starts no header; `next` is the position after
it. -/
def readChar (offset : Nat) (c : Char) (next : Cursor) (st : ScopeState) :
    ScopeState × List ScopeEvent :=
  match st.stack with
  | [] => (st, [])
  | scope :: rest =>
    match st.quote with
    | some q => (⟨st.stack, if c = q then none else some q⟩, [])
    | none =>
      if (isQuote c || c == '\x60') && decide (0 < scope.depth) then (⟨st.stack, some c⟩, [])
      else if c = '(' then
        let start := if scope.depth = 0 then some next else scope.itemStart
        (⟨{ scope with depth := scope.depth + 1, itemStart := start } :: rest, none⟩, [])
      else if c = ')' ∧ 0 < scope.depth then
        if scope.depth = 1 then
          (⟨resumeOuter next rest, none⟩,
            s.itemEvents scope offset ++ [.exit scope.table (s.lineOf offset)])
        else (⟨{ scope with depth := scope.depth - 1 } :: rest, none⟩, [])
      else if c = ',' ∧ scope.depth = 1 then
        (⟨{ scope with itemStart := some next } :: rest, none⟩, s.itemEvents scope offset)
      else if c = ';' then (⟨[], none⟩, s.closeEvents offset offset st.stack)
      else (st, [])

/-- The events of the text at the given position; the characters before byte `resume` belong to a
header that was read already. -/
def eventsFrom (mode : ScopeMode) (resume : Nat) (st : ScopeState) (before : Option Char)
    (offset : Nat) : Text → List ScopeEvent
  | [] => s.closeEvents offset (offset - 1) st.stack
  | x :: xs =>
    let next := offset + x.utf8Size
    if offset < resume then eventsFrom mode resume st (some x) next xs
    else match (if st.quote.isNone then TableHeader.at? ⟨before, offset, x :: xs⟩ else none) with
      | some header =>
        let (st', events) := s.openScope mode header st
        events ++ eventsFrom mode header.stop st' (some x) next xs
      | none =>
        let (st', events) := s.readChar offset x ⟨some x, next, xs⟩ st
        events ++ eventsFrom mode resume st' (some x) next xs

/-- The scope events of the source. -/
def scopeEvents (mode : ScopeMode) : List ScopeEvent := s.eventsFrom mode 0 ⟨[], none⟩ none 0 s.text

end Source

end SchemaReview
