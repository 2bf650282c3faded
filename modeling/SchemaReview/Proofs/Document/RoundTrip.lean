import SchemaReview.Proofs.Document.Line
import SchemaReview.Proofs.Document.Written

/-!
# Proofs.Document.RoundTrip — documents as they are written, and read back

A document is written as paragraphs of runs, and runs of texts, tabs and line breaks.

* `markup`: the written document.  `Paragraph.content`, `Run.content` and `RunPart.content` are the tree that
  it stands for, so that `Document.paragraphs_of_read` says what is read.
* `Inline`: content without paragraphs that have tags, all of whose texts can be read.  Runs are such content.
* `text_markup`: reading a written document gives the texts of its paragraphs, one line each.
-/

namespace SchemaReview

open Markup

namespace Document

/-! ## Documents -/

/-- A run.  When it has no parts, it may be written as one tag. -/
structure Run where
  parts : List RunPart
  oneTag : Bool
deriving DecidableEq, Repr

/-- A paragraph.  When it has no runs, it may be written as one tag. -/
structure Paragraph where
  runs : List Run
  oneTag : Bool
deriving DecidableEq, Repr

/-- The part as written. -/
def RunPart.markup : RunPart → Text
  | .text t => element "w:t".toList (escape t)
  | .tab => emptyElement "w:tab".toList
  | .lineBreak => emptyElement "w:br".toList

/-- The run as written. -/
def Run.markup (r : Run) : Text :=
  if r.parts = [] ∧ r.oneTag then emptyElement "w:r".toList
  else element "w:r".toList (r.parts.flatMap RunPart.markup)

/-- The paragraph as written. -/
def Paragraph.markup (p : Paragraph) : Text :=
  if p.runs = [] ∧ p.oneTag then emptyElement "w:p".toList
  else element "w:p".toList (p.runs.flatMap Run.markup)

/-- The document as written. -/
def markup (ps : List Paragraph) : Text := ps.flatMap Paragraph.markup

/-- The text of the paragraph. -/
def Paragraph.text (p : Paragraph) : Text := p.runs.flatMap fun r => lineText r.parts

/-! ## The tree of a document -/

/-- The part in front of what follows it. -/
def RunPart.content : RunPart → Content → Content
  | .text t => .element "w:t".toList (if t = [] then .nil else .text (escape t) .nil)
  | .tab => .empty "w:tab".toList
  | .lineBreak => .empty "w:br".toList

/-- The run in front of what follows it. -/
def Run.content (r : Run) : Content → Content :=
  if r.parts = [] ∧ r.oneTag then .empty "w:r".toList
  else .element "w:r".toList (r.parts.foldr RunPart.content .nil)

/-- The paragraph in front of what follows it. -/
def Paragraph.content (p : Paragraph) : Content → Content :=
  if p.runs = [] ∧ p.oneTag then .empty "w:p".toList
  else .element "w:p".toList (p.runs.foldr Run.content .nil)

/-- The text is written for what `extend` puts in front of other content. -/
def Writes (t : Text) (extend : Content → Content) : Prop :=
  ∃ events, Reads t events ∧ ∀ after, (extend after).events = events ++ after.events

namespace Writes

variable {name t : Text}

theorem empty (h : PlainName name) : Writes (emptyElement name) (.empty name) :=
  ⟨_, .empty h, fun _ => rfl⟩

theorem element {c : Content} (h : PlainName name) (ht : Reads t c.events) :
    Writes (element name t) (.element name c) :=
  ⟨_, .element h ht, fun after => by simp [Content.events]⟩

theorem reads_flatMap {α : Type} {xs : List α} {write : α → Text} {extend : α → Content → Content}
    (h : ∀ x, Writes (write x) (extend x)) : Reads (xs.flatMap write) (xs.foldr extend .nil).events := by
  induction xs with
  | nil => exact .nil
  | cons x xs ih =>
    obtain ⟨events, hreads, hevents⟩ := h x
    rw [List.flatMap_cons, List.foldr_cons, hevents]
    exact hreads.append ih

end Writes

theorem RunPart.writes (p : RunPart) : Writes p.markup p.content := by
  cases p with
  | text t =>
    by_cases ht : t = []
    · subst ht
      exact .element (by decide) .nil
    · rw [markup, content, if_neg ht]
      have hname : PlainName "w:t".toList := by decide
      exact ⟨_, .textElement hname (not_mem_escape t) (escape_ne_nil ht), fun _ => rfl⟩
  | tab => exact .empty (by decide)
  | lineBreak => exact .empty (by decide)

theorem Run.writes (r : Run) : Writes r.markup r.content := by
  rw [markup, content]
  split
  · exact .empty (by decide)
  · exact .element (by decide) (Writes.reads_flatMap RunPart.writes)

theorem Paragraph.writes (p : Paragraph) : Writes p.markup p.content := by
  rw [markup, content]
  split
  · exact .empty (by decide)
  · exact .element (by decide) (Writes.reads_flatMap Run.writes)

theorem read_markup (ps : List Paragraph) :
    Markup.read (markup ps) = ⟨(ps.foldr Paragraph.content .nil).events, none⟩ :=
  (Writes.reads_flatMap Paragraph.writes).read_eq

/-! ## Reading the tree -/

/-- Content of a paragraph: no paragraph ends in it, and all of its texts can be read. -/
structure Inline (c : Content) : Prop where
  has : c.has .paragraph = false
  lines : ∀ runs inText, c.lines runs inText = []
  legible : ∀ inParagraph inText, c.legible inParagraph inText = true

namespace Inline

variable {name : Text} {inside after : Content}

theorem nil : Inline .nil := ⟨rfl, fun _ _ => rfl, fun _ _ => rfl⟩

theorem element (h : Element.ofName name ≠ .paragraph) (hinside : Inline inside) (hafter : Inline after) :
    Inline (.element name inside after) where
  has := by rw [Content.has, hinside.has, hafter.has, decide_eq_false h]; rfl
  lines runs inText := by
    rw [Content.lines, hinside.lines, hafter.lines, if_neg fun hboth => h hboth.1]
    rfl
  legible inParagraph inText := by rw [Content.legible, hinside.legible, hafter.legible]; rfl

theorem empty (h : Element.ofName name ≠ .paragraph) (hafter : Inline after) : Inline (.empty name after) where
  has := hafter.has
  lines runs inText := by rw [Content.lines, if_neg h, hafter.lines]; rfl
  legible := hafter.legible

theorem text {raw : Text} (h : (expand? raw).isSome = true) (hafter : Inline after) :
    Inline (.text raw after) where
  has := hafter.has
  lines := hafter.lines
  legible inParagraph inText := by rw [Content.legible, h, hafter.legible, Bool.or_true]; rfl

theorem foldr {α : Type} {xs : List α} {extend : α → Content → Content}
    (h : ∀ x after, Inline after → Inline (extend x after)) : Inline (xs.foldr extend .nil) := by
  induction xs with
  | nil => exact .nil
  | cons x xs ih => exact h x _ ih

end Inline

theorem RunPart.inline (p : RunPart) {after : Content} (h : Inline after) : Inline (p.content after) := by
  cases p with
  | text t =>
    refine .element (by decide) ?_ h
    split
    · exact .nil
    · exact .text (by rw [expand?_escape]; rfl) .nil
  | tab => exact .empty (by decide) h
  | lineBreak => exact .empty (by decide) h

theorem Run.inline (r : Run) {after : Content} (h : Inline after) : Inline (r.content after) := by
  rw [content]
  split
  · exact .empty (by decide) h
  · exact .element (by decide) (.foldr fun p _ => p.inline) h

theorem lineText_append (parts more : List RunPart) :
    lineText (parts ++ more) = lineText parts ++ lineText more := List.flatMap_append

/-- Inside a run, a part adds itself; a text without characters adds nothing. -/
theorem lineText_part (p : RunPart) {runs : Nat} (h : 0 < runs) (after : Content) :
    lineText ((p.content after).parts runs false) = p.chars ++ lineText (after.parts runs false) := by
  cases p with
  | text t =>
    -- the content of the text element is read inside a text element, what follows it is not
    show lineText (Content.parts runs true (if t = [] then .nil else .text (escape t) .nil) ++
      after.parts runs false) = t ++ _
    rw [lineText_append]
    by_cases ht : t = []
    · subst ht
      rfl
    · rw [if_neg ht, Content.parts, expand?_escape]
      simp [Content.parts, lineText, RunPart.chars]
  | tab =>
    rw [RunPart.content, Content.parts, if_pos h]
    rfl
  | lineBreak =>
    rw [RunPart.content, Content.parts, if_pos h]
    rfl

theorem lineText_run (r : Run) (after : Content) :
    lineText ((r.content after).parts 0 false) = lineText r.parts ++ lineText (after.parts 0 false) := by
  have hparts : ∀ ps : List RunPart,
      lineText ((ps.foldr RunPart.content .nil).parts 1 false) = lineText ps := by
    intro ps
    induction ps with
    | nil => rfl
    | cons p ps ih =>
      rw [List.foldr_cons, lineText_part p Nat.one_pos, ih]
      rfl
  rw [Run.content]
  split
  · rename_i hempty
    rw [hempty.1]
    rfl
  · show lineText ((r.parts.foldr RunPart.content .nil).parts 1 false ++ after.parts 0 false) = _
    rw [lineText_append, hparts]

theorem lineText_runs (rs : List Run) :
    lineText ((rs.foldr Run.content .nil).parts 0 false) = rs.flatMap fun r => lineText r.parts := by
  induction rs with
  | nil => rfl
  | cons r rs ih => rw [List.foldr_cons, lineText_run, ih, List.flatMap_cons]

theorem inline_runs (rs : List Run) : Inline (rs.foldr Run.content .nil) := .foldr fun r _ => r.inline

/-- A paragraph is a line in front of the others. -/
theorem map_lines_paragraph (p : Paragraph) (after : Content) :
    ((p.content after).lines 0 false).map lineText = p.text :: (after.lines 0 false).map lineText := by
  rw [Paragraph.content]
  split
  · rename_i hempty
    rw [Paragraph.text, hempty.1]
    rfl
  · have hruns := inline_runs p.runs
    show ((p.runs.foldr Run.content .nil).lines 0 false ++
      (if Element.paragraph = .paragraph ∧ (p.runs.foldr Run.content .nil).has .paragraph = false then
        [(p.runs.foldr Run.content .nil).parts 0 false] else []) ++ after.lines 0 false).map lineText = _
    rw [hruns.lines, if_pos ⟨rfl, hruns.has⟩, List.nil_append, List.singleton_append, List.map_cons,
      lineText_runs]
    rfl

theorem map_lines_foldr (ps : List Paragraph) :
    ((ps.foldr Paragraph.content .nil).lines 0 false).map lineText = ps.map Paragraph.text := by
  induction ps with
  | nil => rfl
  | cons p ps ih => rw [List.foldr_cons, map_lines_paragraph, ih, List.map_cons]

theorem legible_foldr (ps : List Paragraph) :
    (ps.foldr Paragraph.content .nil).legible false false = true := by
  induction ps with
  | nil => rfl
  | cons p ps ih =>
    rw [List.foldr_cons, Paragraph.content]
    split
    · exact ih
    · rw [Content.legible, (inline_runs p.runs).legible, Bool.true_and]
      exact ih

/-- **Reading a written document gives the texts of its paragraphs**, one line for each, whatever the texts
are. -/
theorem text_markup (ps : List Paragraph) : Document.text (String.ofList (markup ps)) =
    .ok (String.ofList (['\n'].intercalate (ps.map Paragraph.text))) := by
  have hread := paragraphs_of_read (read_markup ps)
  rw [legible_foldr, if_pos rfl, map_lines_foldr] at hread
  rw [Document.text, String.toList_ofList, hread]
  rfl

end Document

end SchemaReview
