import SchemaReview.Text.Case

/-!
# Ddl.DeclaredType — column types as declared

A declared type is the name as written with its sizes.  Two types are the same when their keys
are, and the key holds the sizes: `varchar(10)` and `varchar(20)` differ.
-/

namespace SchemaReview

/-- A column type as written, with its parenthesized sizes. -/
structure DeclaredType where
  name : String
  sizes : List Nat
deriving DecidableEq, Repr

/-- Coarse classes of types. -/
inductive TypeFamily where
  | text
  | numeric
  | other
deriving DecidableEq, Repr

/-- Names of character types, in lower case. -/
def textTypeNames : List String :=
  ["char", "character", "nchar", "varchar", "varchar2", "nvarchar", "nvarchar2"]

/-- Names of number types, in lower case. -/
def numericTypeNames : List String :=
  ["int", "integer", "smallint", "bigint", "tinyint", "mediumint", "int2", "int4", "int8",
    "number", "numeric", "decimal", "dec", "real", "float", "double"]

namespace DeclaredType

/-- A type name with sizes in parentheses, when there are any. -/
def withSizes (name : String) (sizes : List Nat) : String :=
  if sizes.isEmpty then name
  else name ++ "(" ++ ",".intercalate (sizes.map fun n => toString n) ++ ")"

/-- The key by which types are compared. -/
def key (t : DeclaredType) : String := withSizes (lowerString t.name) t.sizes

/-- The type as written, with normalized spacing. -/
def display (t : DeclaredType) : String := withSizes t.name t.sizes

/-- The class of the type name. -/
def family (t : DeclaredType) : TypeFamily :=
  let name := lowerString t.name
  if name ∈ textTypeNames then .text else if name ∈ numericTypeNames then .numeric else .other

/-- The declared maximum length: the first size. -/
def length? (t : DeclaredType) : Option Nat := t.sizes.head?

end DeclaredType

end SchemaReview
