/-!
# Toml.Value — values of a TOML document and the rules for defining tables

A table is explicit when a header or an inline table writes it, dotted when a dotted key creates
it, and implicit when it only lies on the way to another header.  Tables are never defined twice,
and dotted keys extend only tables made by dotted keys.
-/

namespace SchemaReview.Toml

/-- How a table came to be. -/
inductive TableKind where
  | explicit
  | dotted
  | implicit
deriving DecidableEq, Repr

/-- A value.  Floating-point numbers and dates are checked but not kept. -/
inductive Value where
  | string (s : String)
  | integer (n : Int)
  | boolean (b : Bool)
  | float
  | date
  | array (items : List Value)
  /-- A table between braces. -/
  | inline (kind : TableKind) (entries : List (String × Value))
  /-- A table made by a header or a dotted key. -/
  | table (kind : TableKind) (entries : List (String × Value))
  /-- An array of tables made by doubled headers. -/
  | tables (items : List Value)

/-- The entries of a table in order of definition. -/
abbrev Entries := List (String × Value)

namespace Entries

/-- Replaces the value of a key that is there. -/
def set (entries : Entries) (key : String) (value : Value) : Entries :=
  entries.map fun (k, v) => if k == key then (k, value) else (k, v)

/-- Drops a key. -/
def erase (entries : Entries) (key : String) : Entries := entries.filter fun (k, _) => k != key

/-- Defines a key that is not there yet. -/
def define? (entries : Entries) (key : String) (value : Value) : Option Entries :=
  match entries.lookup key with
  | none => some (entries ++ [(key, value)])
  | some _ => none

/-- Changes the table at the end of a path, making missing tables on the way.  With `dotted` the
path belongs to a dotted key, which may not enter explicit tables; an array of tables stands for
its last table. -/
def change? (dotted : Bool) (f : TableKind → Entries → Option Entries) (here : TableKind) :
    List String → Entries → Option Entries
  | [], entries => f here entries
  | key :: path, entries =>
    match entries.lookup key with
    | none =>
      let kind := if dotted then .dotted else .implicit
      (change? dotted f kind path []).map fun inner => entries ++ [(key, .table kind inner)]
    | some (.table kind inner) =>
      if dotted && kind == .explicit then none
      else (change? dotted f kind path inner).map fun inner => entries.set key (.table kind inner)
    | some (.tables items) =>
      match items.getLast? with
      | some (.table kind inner) =>
        (change? dotted f kind path inner).map fun inner =>
          entries.set key (.tables (items.dropLast ++ [.table kind inner]))
      | _ => none
    | some _ => none

/-- Defines a key at the end of a dotted path in a table written by a header. -/
def defineDotted? (entries : Entries) (path : List String) (key : String) (value : Value) :
    Option Entries :=
  change? true (fun kind inner =>
    if (kind == .dotted) == path.isEmpty then none else inner.define? key value)
    .explicit path entries

/-- Defines a key at the end of a dotted path in an inline table. -/
def defineInline? (key : String) (value : Value) :
    List String → Entries → Option Entries
  | [], entries => entries.define? key value
  | step :: path, entries =>
    match entries.lookup step with
    | none =>
      (defineInline? key value path []).map fun inner =>
        entries ++ [(step, .inline .dotted inner)]
    | some (.inline .dotted inner) =>
      (defineInline? key value path inner).map fun inner =>
        entries.set step (.inline .dotted inner)
    | some _ => none

end Entries

end SchemaReview.Toml
