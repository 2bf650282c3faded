import SchemaReview.Finding.Kind
import SchemaReview.Source.Basic

/-!
# Finding.Basic — findings and the text shown for them
-/

namespace SchemaReview

/-- A remark attached to a finding, with the place it is about. -/
structure Note where
  message : String
  span : Span
deriving DecidableEq, Repr

/-- A schema-design defect found in a script. -/
structure Finding where
  kind : FindingKind
  severity : Severity
  message : String
  span : Option Span
  /-- What to do about it. -/
  help : Option String
  notes : List Note
  /-- The table it is about, as written. -/
  table : Option String
  /-- The columns it is about. -/
  columns : List String
  /-- The index it is about. -/
  index : Option String
deriving DecidableEq, Repr

namespace Finding

/-- A finding with nothing but its kind, severity and message. -/
def new (severity : Severity) (kind : FindingKind) (message : String) : Finding :=
  ⟨kind, severity, message, none, none, [], none, [], none⟩

/-- Puts the finding at a place. -/
def withSpan (f : Finding) (span : Span) : Finding := { f with span := some span }

/-- Sets the advice. -/
def withHelp (f : Finding) (help : String) : Finding := { f with help := some help }

/-- Adds a note. -/
def withNote (f : Finding) (message : String) (span : Span) : Finding :=
  { f with notes := f.notes ++ [⟨message, span⟩] }

/-- Adds notes. -/
def withNotes (f : Finding) (notes : List Note) : Finding := { f with notes := f.notes ++ notes }

/-- Sets the table. -/
def withTable (f : Finding) (table : String) : Finding := { f with table := some table }

/-- Adds columns. -/
def withColumns (f : Finding) (columns : List String) : Finding :=
  { f with columns := f.columns ++ columns }

/-- Sets the index. -/
def withIndex (f : Finding) (index : String) : Finding := { f with index := some index }

/-- The code of its kind. -/
def code (f : Finding) : String := f.kind.code

/-- The line it stands on. -/
def line? (f : Finding) : Option Nat := f.span.map (·.line)

/-- The text shown to a reviewer.  Two findings with the same text count as one. -/
def render (f : Finding) : String :=
  "[" ++ f.code ++ "] " ++ f.message ++ String.join (f.notes.map fun n => "\n - " ++ n.message) ++
    (match f.help with
      | some help => "\nRecommendation: " ++ help
      | none => "")

end Finding

end SchemaReview
