import SchemaReview.Document.Markup
import SchemaReview.Document.Reference

/-!
# Document.Paragraph — the text of a word-processor document

The body of a document is made of paragraphs, these of runs, and runs of texts, tabs and line
breaks.  Each paragraph becomes a line, an empty one too, so that line numbers match the document.
-/

namespace SchemaReview.Document

open Markup

/-- The elements of a document body that matter for its text. -/
inductive Element where
  | paragraph
  | run
  | text
  | tab
  | lineBreak
  | other
deriving DecidableEq, Repr

/-- The element with the given name. -/
def Element.ofName (name : Text) : Element :=
  if name = "w:p".toList then .paragraph
  else if name = "w:r".toList then .run
  else if name = "w:t".toList then .text
  else if name = "w:tab".toList then .tab
  else if name = "w:br".toList ∨ name = "w:cr".toList then .lineBreak
  else .other

/-- What has been read of a document body. -/
structure Body where
  /-- The finished paragraphs. -/
  paragraphs : List Text := []
  /-- The text of the open paragraph. -/
  current : Option Text := none
  /-- The number of open runs. -/
  runs : Nat := 0
  /-- Inside a text element. -/
  inText : Bool := false
deriving DecidableEq, Repr

namespace Body

/-- Appends to the open paragraph, if there is one. -/
def append (b : Body) (t : Text) : Body := { b with current := b.current.map (· ++ t) }

/-- Appends a character that stands for an empty element of a run. -/
def appendInRun (b : Body) (c : Char) : Body := if 0 < b.runs then b.append [c] else b

/-- A start tag. -/
def enter (b : Body) : Element → Body
  | .paragraph => { b with current := some [] }
  | .run => { b with runs := b.runs + 1 }
  | .text => { b with inText := true }
  | _ => b

/-- An end tag. -/
def leave (b : Body) : Element → Body
  | .paragraph => { b with paragraphs := b.paragraphs ++ b.current.toList, current := none }
  | .run => { b with runs := b.runs - 1 }
  | .text => { b with inText := false }
  | _ => b

/-- A tag that is start and end at once. -/
def pass (b : Body) : Element → Body
  | .paragraph => { b with paragraphs := b.paragraphs ++ [[]] }
  | .tab => b.appendInRun '\t'
  | .lineBreak => b.appendInRun '\n'
  | _ => b

/-- Takes one event into account.  References are looked at only in text that is kept. -/
def step (b : Body) : Event → Except Fault Body
  | .opening name => .ok (b.enter (Element.ofName name))
  | .closing name => .ok (b.leave (Element.ofName name))
  | .empty name => .ok (b.pass (Element.ofName name))
  | .text raw =>
    if b.inText ∧ b.current.isSome then
      match expand? raw with
      | some t => .ok (b.append t)
      | none => .error .badReference
    else .ok b
  | .verbatim content => .ok (if b.inText then b.append content else b)

end Body

/-- The paragraphs of a document body given by its events. -/
def paragraphsOf (events : List Event) : Except Fault (List Text) :=
  (events.foldlM Body.step {}).map Body.paragraphs

/-- The paragraphs of a document body. -/
def paragraphs (markup : Text) : Except Fault (List Text) := do
  let reading := Markup.read markup
  let found ← paragraphsOf reading.events
  match reading.fault with
  | some f => .error f
  | none => .ok found

/-- The text of a document body, one line for each paragraph. -/
def text (markup : String) : Except Fault String :=
  (paragraphs markup.toList).map fun ps => String.ofList (['\n'].intercalate ps)

end SchemaReview.Document
