import SchemaReview.Archive.Entry
import SchemaReview.Document.Paragraph
import SchemaReview.Path.Basic
import SchemaReview.Script.Encoding

/-!
# Script.Load — the text of a script file

A word-processor document is an archive whose body is reduced to the lines of its paragraphs.  Any
other file is plain text.
-/

namespace SchemaReview.Script

/-- Why a script has no text. -/
inductive LoadError where
  /-- There is no such file. -/
  | missing
  /-- A document that is no archive. -/
  | notArchive
  /-- An archive without a document body. -/
  | noBody
  /-- A document body that is damaged or not in UTF-8. -/
  | damagedBody
  /-- A document body with faulty markup. -/
  | faultyMarkup (fault : Markup.Fault)
deriving DecidableEq, Repr

/-- The name of the document body in its archive. -/
def bodyName : String := "word/document.xml"

/-- The file is a word-processor document by its name. -/
def isDocument (path : String) : Bool :=
  match Path.extension? path with
  | some e => Text.equalsIgnoringCase e "docx".toList
  | none => false

/-- The text of a word-processor document. -/
def documentText (bytes : ByteArray) : Except LoadError String := do
  let some entries := Archive.entries? bytes | .error .notArchive
  let some entry := Archive.find? entries bodyName | .error .noBody
  let some content := entry.content? bytes | .error .damagedBody
  let some markup := String.fromUTF8? content | .error .damagedBody
  (Document.text markup).mapError LoadError.faultyMarkup

/-- The text of the script at `path` with the given contents, if the file exists. -/
def load (path : String) (contents : Option ByteArray) : Except LoadError String :=
  match contents with
  | none => .error .missing
  | some bytes => if isDocument path then documentText bytes else .ok (decode bytes)

end SchemaReview.Script
