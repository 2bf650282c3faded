import SchemaReview.Scope.Basic

/-!
# Scope.Item — the tables and items that a source declares
-/

namespace SchemaReview

/-- An item together with the table whose body it stands in. -/
structure TableItem where
  table : TableDecl
  piece : Piece
deriving DecidableEq, Repr

/-- The item of an event. -/
def ScopeEvent.item? : ScopeEvent → Option TableItem
  | .item table piece => some ⟨table, piece⟩
  | _ => none

/-- The table that an event opens. -/
def ScopeEvent.opened? : ScopeEvent → Option TableDecl
  | .enter table => some table
  | _ => none

namespace Source

/-- The items of all table bodies, in script order. -/
def itemsIn (s : Source) (mode : ScopeMode) : List TableItem :=
  (s.scopeEvents mode).filterMap ScopeEvent.item?

/-- The items of all table bodies, where a header inside a body replaces the table. -/
def items (s : Source) : List TableItem := s.itemsIn .replace

/-- The declared tables, in script order. -/
def tables (s : Source) : List TableDecl := (s.scopeEvents .replace).filterMap ScopeEvent.opened?

end Source

end SchemaReview
