import SchemaReview.Proofs.Source.Line
import SchemaReview.Proofs.Text.Slice
import SchemaReview.Source.Basic

/-!
# Proofs.Source.Span — spans that say where something stands

* `Source.Locates s span`: the span begins between two characters of the text and ends inside it, and its
  line and column are those of its offset.
* `Source.Places s span`: the span was made for a piece of the text.  Such a span is right
  (`Places.locates`), and the slice taken for its column fits (`Places.checked`).
-/

namespace SchemaReview

open Text

/-- The span stands in the text of the source, and its line and column are those of its offset. -/
structure Source.Locates (s : Source) (span : Span) : Prop where
  boundary : ∃ before after, s.text = before ++ after ∧ byteSize before = span.offset
  within : span.offset + span.length ≤ s.size
  line_eq : span.line = s.lineOf span.offset
  line_pos : 1 ≤ span.line
  line_le : span.line ≤ s.lineCount
  /-- `mid` is what stands on the line in front of the offset. -/
  column_eq : ∃ l before mid after, s.lines[span.line - 1]? = some l ∧ s.text = before ++ mid ++ after ∧
    byteSize before = l.start ∧ byteSize before + byteSize mid = span.offset ∧
    span.column = 1 + mid.length

/-- The span of `length` bytes from `offset` on.  There is none when the characters in front of the offset
cannot be cut out of the text. -/
def Checked.spanAt (s : Source) (offset length : Nat) : Option Span := do
  let line := s.lineOf offset
  let before ← slice? s.text (lineStart s.lines line) (min offset s.size)
  return ⟨offset, length, line, before.length + 1⟩

namespace Source

variable {s : Source}

/-- The line of a position starts at a position before it. -/
theorem exists_line {before after : Text} (htext : s.text = before ++ after) (hne : s.text ≠ []) :
    ∃ l front mid, s.lines[s.lineOf (byteSize before) - 1]? = some l ∧ before = front ++ mid ∧
      byteSize front = l.start := by
  obtain ⟨l, hl, hle⟩ := getElem?_lineOf hne (byteSize before)
  have hmem : l ∈ lineRangesFrom 0 0 s.text := by
    have hlines := s.lines_eq
    rw [lineRanges] at hlines
    exact hlines ▸ List.mem_of_getElem? hl
  obtain ⟨u, v, huv, hu⟩ : ∃ u v, [] ++ [] ++ s.text = u ++ v ∧ byteSize u = l.start :=
    exists_prefix_of_mem_lineRangesFrom rfl rfl hmem
  have hcut : u ++ v = before ++ after := by
    rw [← huv, ← htext]
    rfl
  obtain ⟨mid, hmid, -⟩ := exists_append_of_byteSize_le hcut (hu ▸ hle)
  exact ⟨l, u, mid, hl, hmid, hu⟩

/-- The span was made for a piece of the text. -/
def Places (s : Source) (span : Span) : Prop :=
  s.text.Shows span.offset span.length ∧ s.spanAt span.offset span.length = span

theorem places_spanAt {offset length : Nat} (h : s.text.Shows offset length) :
    s.Places (s.spanAt offset length) := ⟨h, rfl⟩

/-- The piece of the line that is cut out for the column. -/
theorem exists_column {offset length : Nat} (h : s.text.Shows offset length) :
    ∃ l front mid after, s.lines[s.lineOf offset - 1]? = some l ∧ s.text = front ++ mid ++ after ∧
      byteSize front = l.start ∧ byteSize front + byteSize mid = offset := by
  obtain ⟨before, after, htext, rfl⟩ := h.exists_append
  obtain ⟨l, front, mid, hl, rfl, hfront⟩ := exists_line htext h.ne_nil
  exact ⟨l, front, mid, after, hl, htext, hfront, (byteSize_append ..).symm⟩

theorem Places.locates {span : Span} (h : s.Places span) : s.Locates span := by
  obtain ⟨hshows, hspan⟩ := h
  have hline : span.line = s.lineOf span.offset := congrArg Span.line hspan.symm
  obtain ⟨l, front, mid, after, hl, htext, hfront, hoffset⟩ := exists_column hshows
  refine ⟨hshows.exists_append, hshows.le_byteSize, hline, ?_, ?_, l, front, mid, after, hline ▸ hl,
    htext, hfront, hoffset, ?_⟩
  · exact hline ▸ s.lineOf_pos span.offset
  · exact hline ▸ lineOf_le_lineCount hshows.ne_nil span.offset
  · have hcolumn : span.column = (s.slice (lineStart s.lines (s.lineOf span.offset)) span.offset).length + 1 :=
      congrArg Span.column hspan.symm
    rw [hcolumn, lineStart, hl]
    dsimp only
    rw [← hfront, ← hoffset, slice, htext, slice_append, Nat.add_comm]

/-- The slice that is taken for the column fits. -/
theorem Places.checked {span : Span} (h : s.Places span) :
    Checked.spanAt s span.offset span.length = some span := by
  obtain ⟨hshows, hspan⟩ := h
  obtain ⟨l, front, mid, after, hl, htext, hfront, hoffset⟩ := exists_column hshows
  have hstart : lineStart s.lines (s.lineOf span.offset) = byteSize front := by
    rw [lineStart, hl, hfront]
  have hmin : min span.offset s.size = byteSize front + byteSize mid := by
    have hle := hshows.le_byteSize
    rw [hoffset]
    exact Nat.min_eq_left (show span.offset ≤ byteSize s.text by omega)
  have hslice : slice? s.text (byteSize front) (byteSize front + byteSize mid) = some mid :=
    slice?_eq_some_iff.mpr ⟨front, after, htext, rfl, rfl⟩
  have hcut : s.slice (byteSize front) span.offset = mid := by
    rw [slice, htext, ← hoffset, slice_append]
  rw [Checked.spanAt, hstart, hmin, hslice]
  simp only [spanAt, hstart, hcut] at hspan
  exact congrArg some hspan

end Source

end SchemaReview
