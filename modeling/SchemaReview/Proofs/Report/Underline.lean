import SchemaReview.Proofs.Detector.Spans
import SchemaReview.Proofs.Report.ShownLine
import SchemaReview.Review

/-!
# Proofs.Report.Underline — where the underline of an excerpt stands

The human report shows the line of a finding and a row with carets below it.  The row of the line begins with its
number, the row of the carets with blanks, and the carets are counted in bytes.

* `Excerpt`: the rows of an excerpt, cut where the line and where the carets begin.
* `exists_shown_line`: the line that is shown holds the place of the finding.
* `excerpt_of_finding`: where the carets begin and when they end below the line.
-/

namespace SchemaReview

open Text Report

/-! ## The line that holds a place -/

/-- The line of a place, which is the line that is shown, begins with what stands in front of the place. -/
theorem exists_shown_line {s : Source} (hreturn : '\r' ∉ s.text) {span : Span} (h : s.Places span) :
    ∃ l front rest, s.lines[span.line - 1]? = some l ∧ Text.slice s.text l.start l.stop = front ++ rest ∧
      shownLine? s.text span.line = some (front ++ rest) ∧ span.column = front.length + 1 := by
  have hlocates := h.locates
  have hshows := h.1
  obtain ⟨l, before, front, after, hl, htext, hbefore, hoffset, hcolumn⟩ := hlocates.column_eq
  obtain ⟨ls, hls⟩ := exists_readsLines s.text
  have hline : span.line - 1 + 1 = s.lineOf span.offset := by
    have := hlocates.line_pos
    rw [← hlocates.line_eq]
    omega
  rw [s.lines_eq] at hl
  obtain ⟨w, behind, hw, hstands, hnext⟩ := hls.standsAt hl
  obtain ⟨before', hcut, hbefore'⟩ := hstands.cut
  have hending := hls.byteSize_ending_le hreturn (List.mem_of_getElem? hw)
  -- the place stands in front of what is behind the line
  have hlt : span.offset < l.stop + byteSize w.ending.text := by
    by_cases hbehind : behind = []
    · have hsize := hshows.lt_byteSize
      rw [hcut, hbehind, List.append_nil, byteSize_append, byteSize_append, hbefore', ← Nat.add_assoc,
        ← hstands.stop_eq] at hsize
      exact hsize
    · obtain ⟨l', hl', hstart⟩ := hnext hbehind
      rw [hline, ← s.lines_eq] at hl'
      exact hstart ▸ Source.lt_start_of_getElem?_lineOf hshows.ne_nil hl'
  have hstop := hstands.stop_eq
  have hboth : before' ++ (w.text ++ (w.ending.text ++ behind)) = before ++ (front ++ after) := by
    rw [← hcut, htext, List.append_assoc]
  obtain ⟨rfl, hrest⟩ := append_inj_of_byteSize hboth (hbefore'.trans hbefore.symm)
  obtain ⟨rest, hwtext, -⟩ := exists_append_of_byteSize_le hrest.symm (by omega)
  refine ⟨l, front, rest, s.lines_eq ▸ hl, ?_, ?_, by omega⟩
  · rw [hstands.slice_eq, hwtext]
  · have hshown := shownLine?_of_not_mem hls hreturn hw
    rw [hline, ← hlocates.line_eq] at hshown
    rw [hshown, hwtext]

/-! ## The rows of an excerpt -/

/-- The rows of an excerpt: a line behind its number, and carets below it. -/
structure Excerpt where
  /-- What stands in front of the line. -/
  lead : String
  line : Text
  /-- What stands in front of the carets. -/
  pad : String
  carets : Nat

namespace Excerpt

def rows (e : Excerpt) : List String :=
  ["   |", e.lead ++ String.ofList e.line, e.pad ++ String.ofList (List.replicate e.carets '^')]

/-- The carets begin below the character in the column. -/
def BeginsBelow (e : Excerpt) (column : Nat) : Prop := e.pad.length + 1 = e.lead.length + column

/-- The carets end below the line, or there is a single one right behind it. -/
def StaysBelowLine (e : Excerpt) : Prop :=
  e.pad.length + e.carets ≤ e.lead.length + e.line.length ∨
    (e.carets = 1 ∧ e.pad.length = e.lead.length + e.line.length)

end Excerpt

/-- The excerpt that is shown for a span. -/
def excerptOf (span : Span) (line : Text) : Excerpt where
  lead := alignRight 3 (toString span.line) ++ " | "
  line := line
  pad := "   | " ++ spaces (underlineStart span)
  carets := underlineLength span line

/-- The row above an excerpt. -/
def arrowRow (file : String) (span : Span) : String :=
  "  --> " ++ file ++ ":" ++ toString span.line ++ ":" ++ toString span.column

theorem location_eq_rows (file : String) {script line : Text} {span : Span}
    (h : shownLine? script span.line = some line) :
    location file script span = arrowRow file span :: (excerptOf span line).rows := by
  rw [location, h]
  rfl

/-- By how many characters the line is further to the right than the row below it: the row of the line has one
character more in front of it, and another one for each digit of the line number beyond the third. -/
def excerptSkew (span : Span) : Nat := max 3 (toString span.line).length - 2

theorem length_spaces (n : Nat) : (spaces n).length = n := by
  rw [spaces, String.length_ofList, List.length_replicate]

theorem length_alignRight (width : Nat) (s : String) : (alignRight width s).length = max width s.length := by
  rw [alignRight, String.length_append, length_spaces]
  omega

theorem length_lead (span : Span) (line : Text) : (excerptOf span line).lead.length = 5 + excerptSkew span := by
  show (alignRight 3 (toString span.line) ++ " | ").length = _
  have hbar : " | ".length = 3 := by decide
  rw [String.length_append, length_alignRight, hbar, excerptSkew]
  omega

theorem length_pad (span : Span) (line : Text) (hcolumn : 1 ≤ span.column) :
    (excerptOf span line).pad.length + 1 = 5 + span.column := by
  show ("   | " ++ spaces (underlineStart span)).length + 1 = _
  have hbar : "   | ".length = 5 := by decide
  rw [String.length_append, length_spaces, hbar, underlineStart]
  omega

/-- The carets end below the line when the span is short enough, or the line has few further bytes. -/
theorem staysBelowLine_iff {span : Span} {line : Text} (hcolumn : 1 ≤ span.column)
    (hle : span.column ≤ line.length + 1) :
    (excerptOf span line).StaysBelowLine ↔
      span.length + span.column ≤ line.length + 1 + excerptSkew span ∨
        byteSize line ≤ line.length + excerptSkew span := by
  have hlead := length_lead span line
  have hpad := length_pad span line hcolumn
  have hskew : 1 ≤ excerptSkew span := by
    rw [excerptSkew]
    omega
  have hsize := length_le_byteSize line
  have hcarets : (excerptOf span line).carets = max (min span.length (byteSize line - (span.column - 1))) 1 := by
    show underlineLength span line = _
    rw [underlineLength, underlineStart]
    omega
  have hline : (excerptOf span line).line = line := rfl
  rw [Excerpt.StaysBelowLine, hline, hcarets]
  omega

/-! ## Findings -/

/-- The excerpt shows the line of the span. -/
structure Excerpt.Shows (e : Excerpt) (script : Text) (span : Span) : Prop where
  line_eq : ∃ l, (lineRanges script)[span.line - 1]? = some l ∧ e.line = Text.slice script l.start l.stop
  /-- The span begins on the line, or right behind it. -/
  column_le : 1 ≤ span.column ∧ span.column ≤ e.line.length + 1

/-- Where the carets begin and end. -/
structure Excerpt.Underlines (e : Excerpt) (span : Span) : Prop where
  carets_pos : 1 ≤ e.carets
  /-- They begin to the left of the column, since the line stands further to the right in its row. -/
  begins_left : 1 ≤ excerptSkew span ∧ e.pad.length + 1 + excerptSkew span = e.lead.length + span.column
  /-- They end below the line when the span has few enough bytes for it, or the line has few bytes beyond one for
  each character, and not otherwise. -/
  stays_iff : e.StaysBelowLine ↔
    span.length + span.column ≤ e.line.length + 1 + excerptSkew span ∨
      byteSize e.line ≤ e.line.length + excerptSkew span

/-- **Where the underline of a finding stands.**  In a script without comments and carriage returns, the report on
any findings with a span shows the line of the span, with at least one caret below it.  The carets begin to the left
of the column, and they end below the line just when the span or the line has few enough bytes. -/
theorem excerpt_of_finding (file : String) (r : Review) (sql : String) {ls : List Lexeme}
    (hls : Lexes sql.toList ls) (hcomment : ∀ l ∈ ls, l.isComment = false) (hreturn : '\r' ∉ sql.toList) :
    ∀ f ∈ r.run sql, ∀ span ∈ f.span, ∃ e : Excerpt, location file sql.toList span = arrowRow file span :: e.rows ∧
      e.Shows sql.toList span ∧ e.Underlines span := by
  intro f hf span hspan
  have htext : (Source.ofString sql).text = sql.toList := hls.maskComments_eq_self_iff.mpr hcomment
  obtain ⟨d, -, hfind⟩ := List.mem_flatMap.mp (mem_of_mem_firstBy _ hf)
  have hplaces : (Source.ofString sql).Places span := (Detector.placed_of_mem_find hfind).span span hspan
  obtain ⟨l, front, rest, hl, hslice, hshown, hcolumn⟩ := exists_shown_line (htext ▸ hreturn) hplaces
  rw [Source.lines_eq, htext] at hl
  rw [htext] at hslice hshown
  have hcolumns : 1 ≤ span.column ∧ span.column ≤ (front ++ rest).length + 1 := by
    rw [List.length_append]
    omega
  have hlead := length_lead span (front ++ rest)
  have hpad := length_pad span (front ++ rest) hcolumns.1
  have hskew : 1 ≤ excerptSkew span := by
    rw [excerptSkew]
    omega
  exact ⟨excerptOf span (front ++ rest), location_eq_rows file hshown, ⟨⟨l, hl, hslice.symm⟩, hcolumns⟩,
    ⟨le_max_right _ _, ⟨hskew, by omega⟩, staysBelowLine_iff hcolumns.1 hcolumns.2⟩⟩

/-- A definition over two lines, behind a literal with a comment mark in it. -/
def twoLineScript : String := "CREATE TABLE t (\n  note VARCHAR(3) DEFAULT '--é',\n  id INT\n    PRIMARY KEY\n);"

/-- The span has more bytes than the line has behind the column. -/
theorem excerpt_of_finding_two_lines : ∃ ls, Lexes twoLineScript.toList ls ∧ (∀ l ∈ ls, l.isComment = false) ∧
    '\r' ∉ twoLineScript.toList ∧ ∃ f ∈ Review.run ⟨[.nullPrimaryKey]⟩ twoLineScript, ∃ span ∈ f.span,
    ∃ e : Excerpt, location "a.sql" twoLineScript.toList span = arrowRow "a.sql" span :: e.rows ∧
      e.Shows twoLineScript.toList span ∧ e.Underlines span := by
  obtain ⟨ls, hls⟩ := exists_lexes twoLineScript.toList
  have hcomment : ∀ l ∈ ls, l.isComment = false := hls.maskComments_eq_self_iff.mp (by decide +kernel)
  have hreturn : '\r' ∉ twoLineScript.toList := by decide +kernel
  have hspans : (Review.run ⟨[.nullPrimaryKey]⟩ twoLineScript).map Finding.span = [some ⟨53, 22, 3, 3⟩] := by
    decide +kernel
  obtain ⟨f, hf, hspan⟩ := List.mem_map.mp (hspans ▸ List.mem_singleton_self _)
  exact ⟨ls, hls, hcomment, hreturn, f, hf, _, hspan,
    excerpt_of_finding "a.sql" ⟨[.nullPrimaryKey]⟩ twoLineScript hls hcomment hreturn f hf _ hspan⟩

/-- A key on a column with accented letters. -/
def accentedScript : String := "CREATE TABLE t (\n  ééé INT PRIMARY KEY\n);"

/-- The carets begin below the blank in front of the column and end behind the line. -/
theorem underline_behind_line : SchemaReview.maskComments accentedScript.toList = accentedScript.toList ∧
    '\r' ∉ accentedScript.toList ∧ ∃ f ∈ Review.run ⟨[.nullPrimaryKey]⟩ accentedScript, ∃ span ∈ f.span,
    ∃ e : Excerpt, location "a.sql" accentedScript.toList span = arrowRow "a.sql" span :: e.rows ∧
      e.line = "  ééé INT PRIMARY KEY".toList ∧ ¬ e.BeginsBelow span.column ∧ ¬ e.StaysBelowLine := by
  have hspans : (Review.run ⟨[.nullPrimaryKey]⟩ accentedScript).map Finding.span = [some ⟨19, 22, 2, 3⟩] := by
    decide +kernel
  have hshown : shownLine? accentedScript.toList 2 = some "  ééé INT PRIMARY KEY".toList := by decide +kernel
  obtain ⟨f, hf, hspan⟩ := List.mem_map.mp (hspans ▸ List.mem_singleton_self _)
  refine ⟨by decide +kernel, by decide +kernel, f, hf, ⟨19, 22, 2, 3⟩, hspan, excerptOf ⟨19, 22, 2, 3⟩ _,
    location_eq_rows "a.sql" hshown, rfl, ?_, ?_⟩
  · rw [Excerpt.BeginsBelow]
    decide +kernel
  · rw [staysBelowLine_iff (by decide) (by decide +kernel)]
    decide +kernel

end SchemaReview
