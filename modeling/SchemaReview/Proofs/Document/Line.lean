import Mathlib.Data.List.Infix
import SchemaReview.Document.Paragraph
import SchemaReview.Proofs.Document.Content

/-!
# Proofs.Document.Line — the lines of a well-formed document

Paragraphs may stand in one another, as those of a text box do, but only one of them is open at a time: the
start tag of a paragraph drops what the paragraph around it had, and its end tag leaves none open.  In the
same way the end tag of a text element ends the one around it.

* `Content.parts`, `Content.lines`: what the content of a document adds to an open paragraph, and the lines of
  the paragraphs that end in it, by recursion on the tree.  `Content.legible`: which references must stand for
  a character.
* `Body.foldlM_step_events`: reading the events of some content is going through the tree.
* `Content.length_lines_add_outerCount`: every paragraph has a line, except those around another one.
* `Content.texts_eq_lines`: the texts of the lines are those of the document, where no paragraph stands in a
  paragraph and no text element in a text element.
* `lines_of_wellFormed`: this for every well-formed document that is read.
-/

namespace SchemaReview

/-! ## What a line is made of -/

namespace Document

/-- A part of a run. -/
inductive RunPart where
  | text (t : Text)
  | tab
  | lineBreak
deriving DecidableEq, Repr

/-- The characters that the part stands for. -/
def RunPart.chars : RunPart → Text
  | .text t => t
  | .tab => ['\t']
  | .lineBreak => ['\n']

/-- The characters of a line that is made of the parts. -/
def lineText (parts : List RunPart) : Text := parts.flatMap RunPart.chars

/-- The text of a part that has one. -/
def RunPart.text? : RunPart → Option Text
  | .text t => some t
  | .tab => none
  | .lineBreak => none

/-- The texts among the parts. -/
def partTexts (parts : List RunPart) : List Text := parts.filterMap RunPart.text?

/-- What an empty element of a run stands for. -/
def Element.part? : Element → Option RunPart
  | .tab => some .tab
  | .lineBreak => some .lineBreak
  | _ => none

/-- The number of open runs inside an element. -/
def Element.runsInside (e : Element) (runs : Nat) : Nat := if e = .run then runs + 1 else runs

end Document

namespace Markup.Content

open Document

/-- An element of the kind has a start tag and an end tag in the content, at any depth. -/
def has (kind : Element) : Content → Bool
  | .nil => false
  | .element name inside after =>
    decide (Element.ofName name = kind) || inside.has kind || after.has kind
  | .empty _ after => after.has kind
  | .text _ after => after.has kind
  | .verbatim _ after => after.has kind

/-- The parts that the content adds to an open paragraph, inside so many runs and maybe in a text element.
The end of a text element ends the text around it too. -/
def parts (runs : Nat) (inText : Bool) : Content → List RunPart
  | .nil => []
  | .element name inside after =>
    let e := Element.ofName name
    inside.parts (e.runsInside runs) (inText || decide (e = .text)) ++
      after.parts runs (inText && !(decide (e = .text) || inside.has .text))
  | .empty name after =>
    (if 0 < runs then (Element.ofName name).part?.toList else []) ++ after.parts runs inText
  | .text raw after =>
    (if inText then [.text ((expand? raw).getD [])] else []) ++ after.parts runs inText
  | .verbatim content after => (if inText then [.text content] else []) ++ after.parts runs inText

/-- The lines of the paragraphs that end in the content.  A paragraph around another one has no line. -/
def lines (runs : Nat) (inText : Bool) : Content → List (List RunPart)
  | .nil => []
  | .element name inside after =>
    let e := Element.ofName name
    let own := inside.parts (e.runsInside runs) (inText || decide (e = .text))
    inside.lines (e.runsInside runs) (inText || decide (e = .text)) ++
      (if e = .paragraph ∧ inside.has .paragraph = false then [own] else []) ++
      after.lines runs (inText && !(decide (e = .text) || inside.has .text))
  | .empty name after =>
    (if Element.ofName name = .paragraph then [[]] else []) ++ after.lines runs inText
  | .text _ after => after.lines runs inText
  | .verbatim _ after => after.lines runs inText

/-- Every reference stands for a character, in the texts that are looked at: those that the last tag of a
paragraph and the last tag of a text element open. -/
def legible (inParagraph inText : Bool) : Content → Bool
  | .nil => true
  | .element name inside after =>
    let e := Element.ofName name
    inside.legible (inParagraph || decide (e = .paragraph)) (inText || decide (e = .text)) &&
      after.legible (inParagraph && !(decide (e = .paragraph) || inside.has .paragraph))
        (inText && !(decide (e = .text) || inside.has .text))
  | .empty _ after => after.legible inParagraph inText
  | .text raw after =>
    (!(inParagraph && inText) || (expand? raw).isSome) && after.legible inParagraph inText
  | .verbatim _ after => after.legible inParagraph inText

end Markup.Content

namespace Document

open Markup

namespace Body

/-- What has been read behind the content. -/
def through (b : Body) (c : Content) : Body where
  paragraphs := b.paragraphs ++ (c.lines b.runs b.inText).map lineText
  current := if c.has .paragraph then none else b.current.map (· ++ lineText (c.parts b.runs b.inText))
  runs := b.runs
  inText := b.inText && !c.has .text

theorem isSome_current_enter (b : Body) (e : Element) :
    (b.enter e).current.isSome = (b.current.isSome || decide (e = .paragraph)) := by
  cases e <;> simp [enter]

theorem inText_enter (b : Body) (e : Element) : (b.enter e).inText = (b.inText || decide (e = .text)) := by
  cases e <;> simp [enter]

/-- What has been read behind the end tag of an element. -/
theorem leave_through_enter (b : Body) (e : Element) (inside : Content) :
    ((b.enter e).through inside).leave e =
      { paragraphs := b.paragraphs ++
          (inside.lines (e.runsInside b.runs) (b.inText || decide (e = .text)) ++
            if e = .paragraph ∧ inside.has .paragraph = false then
              [inside.parts (e.runsInside b.runs) (b.inText || decide (e = .text))] else []).map lineText
        current := if decide (e = .paragraph) || inside.has .paragraph then none
          else b.current.map
            (· ++ lineText (inside.parts (e.runsInside b.runs) (b.inText || decide (e = .text))))
        runs := b.runs
        inText := b.inText && !(decide (e = .text) || inside.has .text) } := by
  cases hinside : inside.has .paragraph <;> cases e <;>
    simp [enter, leave, through, Element.runsInside, hinside]

/-- What has been read behind an element and the content behind it. -/
theorem through_element (b : Body) (name : Text) (inside after : Content) :
    (((b.enter (Element.ofName name)).through inside).leave (Element.ofName name)).through after =
      b.through (.element name inside after) := by
  have hcurrent : ∀ (closed : Bool) (t u : List RunPart),
      (if after.has .paragraph then none
        else (if closed then none else b.current.map (· ++ lineText t)).map (· ++ lineText u)) =
      if closed || after.has .paragraph then none else b.current.map (· ++ lineText (t ++ u)) := by
    intro closed t u
    cases closed <;> cases after.has .paragraph <;> cases b.current <;> simp [lineText]
  rw [leave_through_enter]
  simp only [through, hcurrent, Content.lines, Content.parts, Content.has, List.map_append,
    List.append_assoc, Bool.not_or, Bool.and_assoc]

theorem isSome_current_leave (b : Body) (e : Element) (inside : Content) :
    (((b.enter e).through inside).leave e).current.isSome =
      (b.current.isSome && !(decide (e = .paragraph) || inside.has .paragraph)) := by
  rw [leave_through_enter]
  cases h : decide (e = .paragraph) || inside.has .paragraph <;> simp

theorem inText_leave (b : Body) (e : Element) (inside : Content) :
    (((b.enter e).through inside).leave e).inText =
      (b.inText && !(decide (e = .text) || inside.has .text)) := by
  rw [leave_through_enter]

theorem isSome_current_pass (b : Body) (e : Element) : (b.pass e).current.isSome = b.current.isSome := by
  cases e <;> simp [pass, appendInRun, append] <;> split <;> simp

theorem inText_pass (b : Body) (e : Element) : (b.pass e).inText = b.inText := by
  cases e <;> simp [pass, appendInRun, append] <;> split <;> rfl

theorem through_empty (b : Body) (name : Text) (after : Content) :
    (b.pass (Element.ofName name)).through after = b.through (.empty name after) := by
  rw [through, through, Content.lines, Content.parts]
  generalize Element.ofName name = e
  cases hafter : after.has .paragraph <;> by_cases hruns : 0 < b.runs <;> cases e <;>
    simp [pass, appendInRun, append, Content.has, Element.part?, lineText, RunPart.chars, hafter, hruns,
      Function.comp_def]

/-- A text that is kept. -/
theorem through_append (b : Body) {raw shown : Text} (hin : b.inText = true) (h : expand? raw = some shown)
    (after : Content) : (b.append shown).through after = b.through (.text raw after) := by
  simp [through, append, Content.lines, Content.parts, Content.has, lineText, RunPart.chars,
    Function.comp_def, hin, h]

/-- A text that is passed over. -/
theorem through_text (b : Body) (raw : Text) (h : ¬ (b.inText = true ∧ b.current.isSome = true))
    (after : Content) : b.through after = b.through (.text raw after) := by
  obtain ⟨paragraphs, current, runs, inText⟩ := b
  cases inText <;> cases current <;>
    simp_all [through, Content.lines, Content.parts, Content.has]

theorem through_verbatim (b : Body) (content : Text) (after : Content) :
    (if b.inText then b.append content else b).through after = b.through (.verbatim content after) := by
  obtain ⟨paragraphs, current, runs, inText⟩ := b
  cases inText <;>
    simp [through, append, Content.lines, Content.parts, Content.has, lineText, RunPart.chars,
      Function.comp_def]

theorem foldlM_step_events (b : Body) (c : Content) : c.events.foldlM step b =
    if c.legible b.current.isSome b.inText then .ok (b.through c) else .error .badReference := by
  induction c generalizing b with
  | nil =>
    obtain ⟨paragraphs, current, runs, inText⟩ := b
    cases current <;> simp [Content.events, Content.legible, through, Content.lines, Content.parts,
      Content.has, lineText] <;> rfl
  | element name inside after ihinside ihafter =>
    have hopen : b.step (.opening name) = .ok (b.enter (Element.ofName name)) := rfl
    have hclose : ∀ b' : Body, b'.step (.closing name) = .ok (b'.leave (Element.ofName name)) :=
      fun _ => rfl
    rw [Content.events, List.cons_append, List.foldlM_cons, hopen]
    show (inside.events ++ .closing name :: after.events).foldlM step (b.enter (Element.ofName name)) = _
    rw [List.foldlM_append, ihinside, isSome_current_enter, inText_enter, Content.legible]
    cases inside.legible (b.current.isSome || decide (Element.ofName name = .paragraph))
      (b.inText || decide (Element.ofName name = .text)) with
    | false => rfl
    | true =>
      rw [if_pos rfl, Bool.true_and]
      show (Event.closing name :: after.events).foldlM step ((b.enter (Element.ofName name)).through inside) = _
      rw [List.foldlM_cons, hclose]
      show after.events.foldlM step
        (((b.enter (Element.ofName name)).through inside).leave (Element.ofName name)) = _
      rw [ihafter, through_element, isSome_current_leave, inText_leave]
  | empty name after ih =>
    show after.events.foldlM step (b.pass (Element.ofName name)) = _
    rw [ih, through_empty, isSome_current_pass, inText_pass, Content.legible]
  | text raw after ih =>
    rw [Content.events, List.foldlM_cons, step, Content.legible]
    -- only a text that is kept is expanded, so only there the run can end
    by_cases hkept : b.inText = true ∧ b.current.isSome = true
    · rw [if_pos hkept, hkept.1, hkept.2]
      cases hshown : expand? raw with
      | none => rfl
      | some shown =>
        show after.events.foldlM step (b.append shown) = _
        have hcurrent : (b.append shown).current.isSome = true := by
          rw [append, Option.isSome_map, hkept.2]
        have hin : (b.append shown).inText = true := hkept.1
        rw [ih, through_append b hkept.1 hshown, hcurrent, hin]
        rfl
    · have hpassed : (b.current.isSome && b.inText) = false := by
        rw [Bool.and_eq_false_iff]
        by_contra hboth
        rw [not_or, Bool.not_eq_false, Bool.not_eq_false] at hboth
        exact hkept ⟨hboth.2, hboth.1⟩
      rw [if_neg hkept, hpassed]
      show after.events.foldlM step b = _
      rw [ih, through_text b raw hkept]
      rfl
  | verbatim content after ih =>
    show after.events.foldlM step (if b.inText then b.append content else b) = _
    have hcurrent : (if b.inText then b.append content else b).current.isSome = b.current.isSome := by
      split
      · rw [append, Option.isSome_map]
      · rfl
    have hin : (if b.inText then b.append content else b).inText = b.inText := by
      split <;> rfl
    rw [ih, through_verbatim, hcurrent, hin, Content.legible]

end Body

/-- The paragraphs of a well-formed document. -/
theorem paragraphs_of_read {markup : Text} {c : Content} (h : Markup.read markup = ⟨c.events, none⟩) :
    paragraphs markup = if c.legible false false then .ok ((c.lines 0 false).map lineText)
      else .error .badReference := by
  have hfold : paragraphsOf c.events = if c.legible false false then .ok ((c.lines 0 false).map lineText)
      else .error .badReference := by
    rw [paragraphsOf, Body.foldlM_step_events]
    show Except.map Body.paragraphs (if c.legible false false then .ok (Body.through {} c) else _) = _
    cases c.legible false false with
    | false => rfl
    | true => exact congrArg Except.ok (List.nil_append _)
  rw [paragraphs, h]
  show (paragraphsOf c.events >>= fun found => .ok found) = _
  rw [hfold]
  cases c.legible false false <;> rfl

end Document

/-! ## Counting paragraphs -/

namespace Markup.Content

open Document

/-- Number of paragraphs, whatever stands around them. -/
def paragraphCount : Content → Nat
  | .nil => 0
  | .element name inside after =>
    (if Element.ofName name = .paragraph then 1 else 0) + inside.paragraphCount + after.paragraphCount
  | .empty name after => (if Element.ofName name = .paragraph then 1 else 0) + after.paragraphCount
  | .text _ after => after.paragraphCount
  | .verbatim _ after => after.paragraphCount

/-- Number of elements of the kind around another one with start and end tag. -/
def outerCount (kind : Element) : Content → Nat
  | .nil => 0
  | .element name inside after =>
    (if Element.ofName name = kind ∧ inside.has kind then 1 else 0) + inside.outerCount kind +
      after.outerCount kind
  | .empty _ after => after.outerCount kind
  | .text _ after => after.outerCount kind
  | .verbatim _ after => after.outerCount kind

/-- Each paragraph has a line, but for those around another one. -/
theorem length_lines_add_outerCount (c : Content) (runs : Nat) (inText : Bool) :
    (c.lines runs inText).length + c.outerCount .paragraph = c.paragraphCount := by
  induction c generalizing runs inText with
  | nil => rfl
  | element name inside after ihinside ihafter =>
    have hin := ihinside ((Element.ofName name).runsInside runs)
      (inText || decide (Element.ofName name = .text))
    have hafter := ihafter runs (inText && !(decide (Element.ofName name = .text) || inside.has .text))
    rw [lines, outerCount, paragraphCount, ← hin, ← hafter]
    by_cases hparagraph : Element.ofName name = .paragraph <;> cases inside.has .paragraph <;>
      simp [hparagraph] <;> omega
  | empty name after ih =>
    rw [lines, outerCount, paragraphCount, ← ih runs inText]
    by_cases hparagraph : Element.ofName name = .paragraph <;> simp [hparagraph]
    omega
  | text raw after ih => exact ih runs inText
  | verbatim content after ih => exact ih runs inText

/-! ## Keeping texts -/

/-- The character data in text elements in paragraphs, piece by piece; `none` for a piece with a reference
that stands for no character. -/
def texts (inParagraph inText : Bool) : Content → List (Option Text)
  | .nil => []
  | .element name inside after =>
    inside.texts (inParagraph || decide (Element.ofName name = .paragraph))
        (inText || decide (Element.ofName name = .text)) ++
      after.texts inParagraph inText
  | .empty _ after => after.texts inParagraph inText
  | .text raw after => (if inParagraph && inText then [expand? raw] else []) ++ after.texts inParagraph inText
  | .verbatim content after =>
    (if inParagraph && inText then [some content] else []) ++ after.texts inParagraph inText

theorem partTexts_append (parts more : List RunPart) :
    partTexts (parts ++ more) = partTexts parts ++ partTexts more := List.filterMap_append

/-- Tabs and line breaks are no texts. -/
theorem partTexts_of_empty (runs : Nat) (e : Element) :
    partTexts (if 0 < runs then e.part?.toList else []) = [] := by
  split
  · cases e <;> rfl
  · rfl

/-- Where no text element stands in another one, a text element that ends does not end one around it. -/
theorem inText_behind {inText : Bool} {name : Text} {inside after : Content}
    (htext : inText = true → (element name inside after).has .text = false) :
    (inText && !(decide (Element.ofName name = .text) || inside.has .text)) = inText := by
  cases inText with
  | false => rfl
  | true =>
    have hnone := htext rfl
    rw [has, Bool.or_eq_false_iff] at hnone
    rw [hnone.1]
    rfl

/-- Where no text element stands in an open one, none follows in it. -/
theorem has_text_after {inText : Bool} {name : Text} {inside after : Content}
    (htext : inText = true → (element name inside after).has .text = false) :
    inText = true → after.has .text = false := by
  intro hin
  have hnone := htext hin
  rw [has, Bool.or_eq_false_iff] at hnone
  exact hnone.2

/-- Where no text element stands in another one, an open text element holds none. -/
theorem has_text_inside {inText : Bool} {name : Text} {inside after : Content}
    (htext : inText = true → (element name inside after).has .text = false)
    (houter : (element name inside after).outerCount .text = 0)
    (hinside : (inText || decide (Element.ofName name = .text)) = true) : inside.has .text = false := by
  by_contra hhas
  rw [Bool.not_eq_false] at hhas
  rw [Bool.or_eq_true, decide_eq_true_eq] at hinside
  rcases hinside with hin | hname
  · have hnone := htext hin
    rw [has, hhas, Bool.or_true, Bool.true_or] at hnone
    cases hnone
  · rw [outerCount, if_pos ⟨hname, hhas⟩] at houter
    omega

/-- Inside a paragraph without others, the texts are those of its parts. -/
theorem texts_eq_parts {c : Content} {inText : Bool} (hparagraph : c.has .paragraph = false)
    (htext : inText = true → c.has .text = false) (houter : c.outerCount .text = 0)
    (hlegible : c.legible true inText = true) (runs : Nat) :
    c.texts true inText = (partTexts (c.parts runs inText)).map some := by
  induction c generalizing inText runs with
  | nil => rfl
  | element name inside after ihinside ihafter =>
    have hbehind := inText_behind htext
    have hinside := has_text_inside htext houter
    rw [has, Bool.or_eq_false_iff, Bool.or_eq_false_iff] at hparagraph
    rw [outerCount, Nat.add_eq_zero_iff, Nat.add_eq_zero_iff] at houter
    rw [legible, hbehind, hparagraph.1.1, hparagraph.1.2, Bool.and_eq_true] at hlegible
    have hafter := has_text_after htext
    rw [texts, parts, hbehind, partTexts_append, List.map_append]
    rw [← ihinside hparagraph.1.2 hinside houter.1.2 hlegible.1, ← ihafter hparagraph.2 hafter houter.2 hlegible.2]
    rfl
  | empty name after ih =>
    rw [texts, parts, partTexts_append, partTexts_of_empty, List.nil_append]
    exact ih hparagraph htext houter hlegible runs
  | text raw after ih =>
    rw [legible, Bool.and_eq_true] at hlegible
    rw [texts, parts, partTexts_append, List.map_append, ih hparagraph htext houter hlegible.2 runs]
    cases inText with
    | false => rfl
    | true =>
      obtain ⟨shown, hshown⟩ := Option.isSome_iff_exists.mp hlegible.1
      rw [hshown]
      rfl
  | verbatim content after ih =>
    rw [texts, parts, partTexts_append, List.map_append, ih hparagraph htext houter hlegible runs]
    cases inText <;> rfl

/-- A content without paragraphs that have a start tag gives empty lines only. -/
theorem flatten_lines_of_has {c : Content} (h : c.has .paragraph = false) (runs : Nat) (inText : Bool) :
    (c.lines runs inText).flatten = [] := by
  induction c generalizing runs inText with
  | nil => rfl
  | element name inside after ihinside ihafter =>
    rw [has, Bool.or_eq_false_iff, Bool.or_eq_false_iff, decide_eq_false_iff_not] at h
    rw [lines, List.flatten_append, List.flatten_append, ihinside h.1.2, ihafter h.2,
      if_neg fun hboth => h.1.1 hboth.1]
    rfl
  | empty name after ih =>
    rw [lines, List.flatten_append, ih h]
    split <;> rfl
  | text raw after ih => exact ih h runs inText
  | verbatim content after ih => exact ih h runs inText

/-- Where no paragraph stands in another one and no text element in another one, the texts are those of the
lines: each one once, in order. -/
theorem texts_eq_lines {c : Content} {inText : Bool} (hparagraph : c.outerCount .paragraph = 0)
    (htext : inText = true → c.has .text = false) (houter : c.outerCount .text = 0)
    (hlegible : c.legible false inText = true) (runs : Nat) :
    c.texts false inText = (partTexts (c.lines runs inText).flatten).map some := by
  induction c generalizing inText runs with
  | nil => rfl
  | element name inside after ihinside ihafter =>
    have hbehind := inText_behind htext
    have hinside := has_text_inside htext houter
    rw [outerCount, Nat.add_eq_zero_iff, Nat.add_eq_zero_iff] at houter hparagraph
    rw [legible, hbehind, Bool.false_and, Bool.and_eq_true] at hlegible
    have hafter := has_text_after htext
    rw [texts, lines, hbehind, List.flatten_append, List.flatten_append, partTexts_append, partTexts_append,
      List.map_append, List.map_append, ihafter hparagraph.2 hafter houter.2 hlegible.2]
    congr 1
    by_cases hname : Element.ofName name = .paragraph
    · -- a paragraph, whose line has the texts in it
      have hnone : inside.has .paragraph = false := by
        by_contra hhas
        rw [Bool.not_eq_false] at hhas
        rw [if_pos ⟨hname, hhas⟩] at hparagraph
        omega
      rw [hname] at hlegible hinside ⊢
      rw [flatten_lines_of_has hnone, if_pos ⟨rfl, hnone⟩, List.flatten_singleton]
      exact texts_eq_parts hnone hinside houter.1.2 hlegible.1 _
    · rw [if_neg fun hboth => hname hboth.1, decide_eq_false hname]
      rw [decide_eq_false hname] at hlegible
      rw [Bool.or_false, ihinside hparagraph.1.2 hinside houter.1.2 hlegible.1
        ((Element.ofName name).runsInside runs)]
      exact (List.append_nil _).symm
  | empty name after ih =>
    have hempty : (if Element.ofName name = .paragraph then [[]] else []).flatten = ([] : List RunPart) := by
      split <;> rfl
    rw [texts, lines, List.flatten_append, hempty, List.nil_append]
    exact ih hparagraph htext houter hlegible runs
  | text raw after ih => exact ih hparagraph htext houter hlegible runs
  | verbatim content after ih => exact ih hparagraph htext houter hlegible runs

end Markup.Content

/-! ## Documents -/

namespace Document

open Markup

theorem infix_intercalate (sep : Text) {line : Text} {lines : List Text} (h : line ∈ lines) :
    line <:+: sep.intercalate lines := by
  induction lines with
  | nil => cases h
  | cons first lines ih =>
    cases lines with
    | nil =>
      obtain rfl := List.mem_singleton.mp h
      rw [List.intercalate_singleton]
    | cons second lines =>
      rw [List.intercalate_cons_cons]
      rcases List.mem_cons.mp h with rfl | h
      · exact ⟨[], sep ++ sep.intercalate (second :: lines), by simp⟩
      · exact (ih h).trans (List.suffix_append _ _).isInfix

/-- A text of a line appears among the lines put together. -/
theorem infix_of_mem_partTexts {lines : List (List RunPart)} {shown : Text}
    (h : shown ∈ partTexts lines.flatten) : shown <:+: ['\n'].intercalate (lines.map lineText) := by
  obtain ⟨part, hpart, hshown⟩ := List.mem_filterMap.mp h
  obtain ⟨line, hline, hmem⟩ := List.mem_flatten.mp hpart
  have hchars : part.chars = shown := by
    cases part <;> cases hshown
    rfl
  have hin : shown <:+: lineText line := by
    obtain ⟨before, after, rfl⟩ := List.append_of_mem hmem
    exact ⟨lineText before, lineText after, by simp [lineText, ← hchars]⟩
  exact hin.trans (infix_intercalate _ (List.mem_map.mpr ⟨line, hline, rfl⟩))

/-- **Every paragraph without another one in it is a line, and every paragraph around another one is lost.**
The text is that of the lines of the document's content.  All paragraphs are lines exactly when none stands
around another; then all texts appear, unless a text element stands in another one. -/
theorem lines_of_wellFormed {markup out : String} (hform : WellFormed markup.toList)
    (hout : Document.text markup = .ok out) :
    ∃ c : Content, Markup.read markup.toList = ⟨c.events, none⟩ ∧
      paragraphs markup.toList = .ok ((c.lines 0 false).map lineText) ∧
      out = String.ofList (['\n'].intercalate ((c.lines 0 false).map lineText)) ∧
      (c.lines 0 false).length + c.outerCount .paragraph = c.paragraphCount ∧
      (c.outerCount .paragraph = 0 → c.outerCount .text = 0 →
        ∀ piece ∈ c.texts false false, ∃ shown, piece = some shown ∧ shown <:+: out.toList) := by
  obtain ⟨c, hread⟩ := wellFormed_iff.mp hform
  have hparagraphs := paragraphs_of_read hread
  have hlegible : c.legible false false = true := by
    by_contra hnot
    rw [Bool.not_eq_true] at hnot
    rw [Document.text, hparagraphs, hnot] at hout
    cases hout
  rw [hlegible, if_pos rfl] at hparagraphs
  rw [Document.text, hparagraphs] at hout
  obtain rfl : _ = out := Except.ok.inj hout
  refine ⟨c, hread, hparagraphs, rfl, c.length_lines_add_outerCount 0 false, fun hflat htext piece hpiece => ?_⟩
  have hopen : false = true → c.has .text = false := fun hin => absurd hin Bool.false_ne_true
  rw [Content.texts_eq_lines hflat hopen htext hlegible 0] at hpiece
  obtain ⟨shown, hshown, rfl⟩ := List.mem_map.mp hpiece
  refine ⟨shown, rfl, ?_⟩
  show shown <:+: (String.ofList _).toList
  rw [String.toList_ofList]
  exact infix_of_mem_partTexts hshown

/-- A paragraph with properties, references and a verbatim section, and an empty one. -/
def plainDocument : String :=
  "<w:body><w:p><w:pPr><w:tab/></w:pPr><w:r><w:t>a &lt; <![CDATA[b]]></w:t><w:tab/></w:r></w:p><w:p/></w:body>"

/-- The content of `plainDocument`. -/
def plainContent : Content :=
  .element "w:body".toList
    (.element "w:p".toList
      (.element "w:pPr".toList (.empty "w:tab".toList .nil)
        (.element "w:r".toList
          (.element "w:t".toList (.text "a &lt; ".toList (.verbatim "b".toList .nil))
            (.empty "w:tab".toList .nil))
          .nil))
      (.empty "w:p".toList .nil))
    .nil

theorem lines_of_plainDocument :
    WellFormed plainDocument.toList ∧ Document.text plainDocument = .ok "a < b\t\n" ∧
      (plainContent.lines 0 false).map lineText = ["a < b\t".toList, []] ∧
      (plainContent.lines 0 false).length = plainContent.paragraphCount ∧
      ∀ piece ∈ plainContent.texts false false,
        ∃ shown, piece = some shown ∧ shown <:+: "a < b\t\n".toList := by
  have hplain : Markup.read plainDocument.toList = ⟨plainContent.events, none⟩ := by decide +kernel
  have hform : WellFormed plainDocument.toList := wellFormed_iff.mpr ⟨plainContent, hplain⟩
  have hlines : (plainContent.lines 0 false).map lineText = ["a < b\t".toList, []] := by decide +kernel
  have hlegible : plainContent.legible false false = true := by decide +kernel
  have hout : Document.text plainDocument = .ok "a < b\t\n" := by
    rw [Document.text, paragraphs_of_read hplain, hlegible, if_pos rfl, hlines]
    decide
  obtain ⟨c, hread, -, -, hcount, htexts⟩ := lines_of_wellFormed hform hout
  rw [hplain] at hread
  obtain rfl : plainContent = c := Content.events_injective (congrArg Reading.events hread)
  have hflat : plainContent.outerCount .paragraph = 0 := by decide +kernel
  rw [hflat, Nat.add_zero] at hcount
  exact ⟨hform, hout, hlines, hcount, htexts hflat (by decide +kernel)⟩

/-- A paragraph in a text box in a run of another paragraph. -/
def boxedParagraph : Content :=
  .element "w:p".toList
    (.element "w:r".toList
      (.element "w:txbxContent".toList
        (.element "w:p".toList
          (.element "w:r".toList (.element "w:t".toList (.text ['x'] .nil) .nil) .nil) .nil)
        (.element "w:t".toList (.text ['x'] .nil) .nil))
      .nil)
    .nil

/-- The document with `boxedParagraph` only. -/
def boxedDocument : String :=
  "<w:p><w:r><w:txbxContent><w:p><w:r><w:t>x</w:t></w:r></w:p></w:txbxContent><w:t>x</w:t></w:r></w:p>"

/-- Two paragraphs with a text each, and one line. -/
theorem outer_paragraph_lost :
    WellFormed boxedDocument.toList ∧
      Markup.read boxedDocument.toList = ⟨boxedParagraph.events, none⟩ ∧
      boxedParagraph.paragraphCount = 2 ∧
      boxedParagraph.texts false false = [some ['x'], some ['x']] ∧
      paragraphs boxedDocument.toList = .ok [['x']] ∧ Document.text boxedDocument = .ok "x" := by
  have hread : Markup.read boxedDocument.toList = ⟨boxedParagraph.events, none⟩ := by decide +kernel
  have hparagraphs : paragraphs boxedDocument.toList = .ok [['x']] := by
    rw [paragraphs_of_read hread]
    decide +kernel
  refine ⟨wellFormed_iff.mpr ⟨boxedParagraph, hread⟩, hread, by decide +kernel, by decide +kernel, hparagraphs, ?_⟩
  rw [Document.text, hparagraphs]
  rfl

end Document

end SchemaReview
