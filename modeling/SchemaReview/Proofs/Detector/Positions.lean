import SchemaReview.Proofs.Detector.CascadeAttribution
import SchemaReview.Proofs.Pattern.Extent
import SchemaReview.Proofs.Source.Span
import SchemaReview.Ddl.Check
import SchemaReview.Ddl.Index
import SchemaReview.Scope.Column

/-!
# Proofs.Detector.Positions — where the things that detectors report stand

Offsets are counted in the text of a clause, of an item, of a statement or of the whole source.  A match
stands in the text it was found in (`shows_of_matchAt`), an item or a statement stands in the source, and so
a clause of theirs stands in the source at the sum of the offsets.
-/

namespace SchemaReview

open Text

/-! ## Clauses in a text -/

/-- A match shows as many bytes as the pattern asks for. -/
theorem Pattern.shows_of_matchAt {p : Pattern} {t : Text} {m : Match} {n : Nat}
    (hin : Cursor.In t m.start) (hm : p.matchAt m.start = some m) (hpos : 0 < p.least)
    (hn : n ≤ p.least) : t.Shows m.start.offset n := by
  obtain ⟨before, mid, ht, hbefore, -, hmid⟩ := exists_append_of_matchAt hin hm
  refine ⟨before, mid, m.stop.rest, ht, hbefore, ?_, hn.trans hmid⟩
  rintro rfl
  exact absurd (hpos.trans_le hmid) (Nat.lt_irrefl 0)

theorem shows_of_mem_foreignKeys {t : Text} {fk : ForeignKey} (h : fk ∈ foreignKeys t) :
    t.Shows fk.offset 0 := by
  obtain ⟨m, hm, rfl⟩ := List.mem_map.mp h
  obtain ⟨hin, hmatch⟩ := Pattern.matchAt_of_mem_findAll hm
  exact Pattern.shows_of_matchAt hin hmatch (by decide) (Nat.zero_le _)

/-- A clause shows its keyword, which has ten letters. -/
theorem shows_of_mem_references {t : Text} {r : Reference} (h : r ∈ references t) :
    t.Shows r.offset 10 := by
  obtain ⟨m, hm, rfl⟩ := List.mem_map.mp h
  obtain ⟨hin, hmatch⟩ := Pattern.matchAt_of_mem_findAll hm
  exact Pattern.shows_of_matchAt hin hmatch (by decide) (by decide)

/-- What is behind a column definition stands in its text. -/
theorem Column.exists_rest {t : Text} {c : Column} (h : ofText? t = some c) :
    ∃ before, t = before ++ c.rest ∧ byteSize before = c.restOffset := by
  obtain ⟨m, hm, -, hrest, hoffset⟩ := exists_match h
  obtain ⟨-, w, hw, -⟩ := Pattern.matchAt_eq_some hm
  have hstop : m.stop.offset = 0 + byteSize w := hw.offset
  refine ⟨w, ?_, by omega⟩
  rw [hrest]
  exact hw.rest

theorem Column.byteSize_name_le {t : Text} {c : Column} (h : ofText? t = some c) :
    c.name.utf8ByteSize ≤ byteSize t := by
  obtain ⟨m, hm, hname, -⟩ := exists_match h
  rw [hname, Match.groupString, ← byteSize_toList, String.toList_ofList]
  exact Pattern.byteSize_groupText_le hm 2

theorem Column.shows_reference? {t : Text} {c : Column} (h : ofText? t = some c) {fk : ForeignKey}
    (hfk : fk ∈ c.reference?) : t.Shows fk.offset 0 := by
  obtain ⟨before, ht, hbefore⟩ := exists_rest h
  obtain ⟨r, hr, rfl⟩ := Option.map_eq_some_iff.mp hfk
  obtain ⟨m, hm, rfl⟩ := Option.map_eq_some_iff.mp hr
  obtain ⟨hin, hmatch⟩ := Pattern.matchAt_of_search hm
  have hshows : c.rest.Shows m.start.offset 0 :=
    Pattern.shows_of_matchAt hin hmatch (by decide) (Nat.zero_le _)
  have hcut : t = before ++ c.rest ++ [] := by rw [List.append_nil, ht]
  have hinside := hshows.inside hcut
  rwa [hbefore] at hinside

theorem exists_of_mem_checksFrom {resume : Nat} {before : Option Char} {offset : Nat} {t : Text}
    {check : Check} (h : check ∈ checksFrom resume before offset t) :
    ∃ w m, Cursor.Passes ⟨before, offset, t⟩ w m.start ∧
      Pattern.checkOpening.matchAt m.start = some m ∧ check.offset = m.start.offset := by
  induction t generalizing resume before offset with
  | nil => cases h
  | cons x xs ih =>
    have hlater : ∀ {resume : Nat}, check ∈ checksFrom resume (some x) (offset + x.utf8Size) xs →
        ∃ w m, Cursor.Passes ⟨before, offset, x :: xs⟩ w m.start ∧
          Pattern.checkOpening.matchAt m.start = some m ∧ check.offset = m.start.offset := by
      intro resume hmem
      obtain ⟨w, m, hw, hm, hoffset⟩ := ih hmem
      exact ⟨_, m, (Cursor.Passes.past rfl).trans hw, hm, hoffset⟩
    rw [checksFrom] at h
    split at h
    · exact hlater h
    · split at h
      · exact hlater h
      · rename_i m hm
        split at h
        · cases h
        · rcases List.mem_cons.mp h with rfl | h
          · have hstart := (Pattern.matchAt_eq_some hm).1
            exact ⟨[], m, hstart ▸ .refl _, hstart ▸ hm, by rw [hstart]⟩
          · exact hlater h

/-- A check shows its keyword, which has five letters. -/
theorem shows_of_mem_checks {t : Text} {check : Check} (h : check ∈ checks t) :
    t.Shows check.offset 5 := by
  obtain ⟨w, m, hw, hm, hoffset⟩ := exists_of_mem_checksFrom h
  rw [hoffset]
  exact Pattern.shows_of_matchAt ⟨w, hw⟩ hm (by decide) (by decide)

/-! ## Things in a source -/

namespace Source

variable {s : Source}

theorem shows_item {mode : ScopeMode} {item : TableItem} (h : item ∈ s.itemsIn mode) :
    s.text.Shows item.piece.offset (byteSize item.piece.text) := by
  have hitem := s.isItem_of_mem_itemsIn h
  obtain ⟨before, after, htext, hbefore⟩ := hitem.stands
  exact ⟨before, item.piece.text, after, htext, hbefore, hitem.ne_nil, le_rfl⟩

/-- A clause of an item. -/
theorem shows_clause {mode : ScopeMode} {item : TableItem} (h : item ∈ s.itemsIn mode) {o n : Nat}
    (hclause : item.piece.text.Shows o n) : s.text.Shows (item.piece.offset + o) n := by
  obtain ⟨before, after, htext, hbefore⟩ := (s.isItem_of_mem_itemsIn h).stands
  exact hbefore ▸ hclause.inside htext

theorem exists_item_of_mem_columns {c : DeclaredColumn} (h : c ∈ s.columns) :
    ∃ item ∈ s.items, c.piece = item.piece ∧ Column.ofText? item.piece.text = some c.column := by
  obtain ⟨item, hitem, hc⟩ := List.mem_filterMap.mp h
  obtain ⟨column, hcolumn, rfl⟩ := Option.map_eq_some_iff.mp hc
  exact ⟨item, hitem, rfl, hcolumn⟩

theorem shows_column {c : DeclaredColumn} (h : c ∈ s.columns) :
    s.text.Shows c.piece.offset (byteSize c.piece.text) := by
  obtain ⟨item, hitem, hpiece, -⟩ := exists_item_of_mem_columns h
  rw [hpiece]
  exact shows_item hitem

theorem shows_columnName {c : DeclaredColumn} (h : c ∈ s.columns) :
    s.text.Shows c.piece.offset c.column.name.utf8ByteSize := by
  obtain ⟨item, hitem, hpiece, hcolumn⟩ := exists_item_of_mem_columns h
  obtain ⟨before, mid, after, htext, hbefore, hmid, hle⟩ := shows_item hitem
  rw [hpiece]
  exact ⟨before, mid, after, htext, hbefore, hmid, (Column.byteSize_name_le hcolumn).trans hle⟩

theorem shows_table {table : TableDecl} (h : table ∈ s.tables) : s.text.Shows table.offset 0 := by
  obtain ⟨c, header, hin, hheader, -, hoffset⟩ := exists_header_of_mem_tables h
  obtain ⟨m, hm, -⟩ := Option.map_eq_some_iff.mp hheader
  have hstart := (Pattern.matchAt_eq_some hm).1
  rw [← hoffset, ← hstart]
  exact Pattern.shows_of_matchAt (hstart ▸ hin) (hstart ▸ hm) (by decide) (Nat.zero_le _)

theorem shows_index {i : Index} (h : i ∈ s.indexes) : s.text.Shows i.offset 0 := by
  obtain ⟨m, hm, rfl⟩ := List.mem_map.mp h
  obtain ⟨hin, hmatch⟩ := Pattern.matchAt_of_mem_findAll hm
  exact Pattern.shows_of_matchAt hin hmatch (by decide) (Nat.zero_le _)

theorem shows_edge {e : CascadeEdge} (h : e ∈ s.cascadeGraph) : s.text.Shows e.offset 10 := by
  obtain ⟨st, hst, he⟩ := List.mem_flatMap.mp h
  unfold cascadeEdgesOf at he
  split at he
  · cases he
  · obtain ⟨r, hr, rfl⟩ := List.mem_map.mp he
    obtain ⟨before, after, htext, hbefore, -⟩ := stands_of_mem_statements hst
    exact hbefore ▸ (shows_of_mem_references (List.mem_filter.mp hr).1).inside htext

end Source

end SchemaReview
