import SchemaReview.Proofs.Ddl.Padding
import SchemaReview.Proofs.Scope.Append
import SchemaReview.Proofs.Sequence
import SchemaReview.Proofs.Source.Padding
import SchemaReview.Scope.Column
import SchemaReview.Scope.TableKeys

/-!
# Proofs.Scope.Shift — what a source declares, further on

* `Source.Moves d s s'`: the two sources declare the same, at positions that differ by `d`.
* From this follows how items, columns, tables and keys move: `Source.Moves.items` and so on.
* `Source.moves_padding`: a source moves when spaces, tabs and line feeds are put in front of it.
-/

namespace SchemaReview

open Text

/-! ## Sources that declare the same -/

def Index.shift (d : Shift) (i : Index) : Index :=
  { i with offset := d.bytes + i.offset, line := d.lines + i.line }

/-- The sources declare the same, and in the second one it stands further on.  Added foreign keys are
compared without their positions, which no one looks at. -/
structure Source.Moves (d : Shift) (s s' : Source) : Prop where
  spanAt : ∀ o length, s'.spanAt (d.bytes + o) length = (s.spanAt o length).shift d
  events : ∀ mode, s'.scopeEvents mode = (s.scopeEvents mode).map (.shift d)
  indexes : s'.indexes = s.indexes.map (.shift d)
  added : s'.addedForeignKeys.map AddedForeignKey.content =
    s.addedForeignKeys.map AddedForeignKey.content
  edges : s'.cascadeGraph = s.cascadeGraph.map (.shift d.bytes)

def TableItem.shift (d : Shift) (item : TableItem) : TableItem :=
  ⟨item.table.shift d, item.piece.shift d⟩

def DeclaredColumn.shift (d : Shift) (c : DeclaredColumn) : DeclaredColumn :=
  ⟨c.table.shift d, c.piece.shift d, c.column⟩

def TableKeys.shift (d : Shift) (t : TableKeys) : TableKeys :=
  { t with line := d.lines + t.line, span := t.span.shift d }

section

variable (d : Shift)

@[simp] theorem TableDecl.name_shift (t : TableDecl) : (t.shift d).name = t.name := rfl

@[simp] theorem TableDecl.key_shift (t : TableDecl) : (t.shift d).key = t.key := rfl

@[simp] theorem Piece.text_shift (p : Piece) : (p.shift d).text = p.text := rfl

@[simp] theorem TableItem.table_shift (item : TableItem) : (item.shift d).table = item.table.shift d := rfl

@[simp] theorem TableItem.piece_shift (item : TableItem) : (item.shift d).piece = item.piece.shift d := rfl

@[simp] theorem DeclaredColumn.table_shift (c : DeclaredColumn) :
    (c.shift d).table = c.table.shift d := rfl

@[simp] theorem DeclaredColumn.piece_shift (c : DeclaredColumn) :
    (c.shift d).piece = c.piece.shift d := rfl

@[simp] theorem DeclaredColumn.column_shift (c : DeclaredColumn) : (c.shift d).column = c.column := rfl

@[simp] theorem Index.name_shift (i : Index) : (i.shift d).name = i.name := rfl

@[simp] theorem Index.table_shift (i : Index) : (i.shift d).table = i.table := rfl

@[simp] theorem Index.tableKey_shift (i : Index) : (i.shift d).tableKey = i.tableKey := rfl

@[simp] theorem Index.unique_shift (i : Index) : (i.shift d).unique = i.unique := rfl

@[simp] theorem Index.columns_shift (i : Index) : (i.shift d).columns = i.columns := rfl

@[simp] theorem TableKeys.name_shift (t : TableKeys) : (t.shift d).name = t.name := rfl

@[simp] theorem TableKeys.span_shift (t : TableKeys) : (t.shift d).span = t.span.shift d := rfl

@[simp] theorem TableKeys.primaryKey_shift (t : TableKeys) : (t.shift d).primaryKey = t.primaryKey := rfl

@[simp] theorem TableKeys.uniques_shift (t : TableKeys) : (t.shift d).uniques = t.uniques := rfl

end

namespace Source.Moves

variable {d : Shift} {s s' : Source} (h : s.Moves d s')
include h

/-! ## Spans -/

theorem lineOf (o : Nat) : s'.lineOf (d.bytes + o) = d.lines + s.lineOf o :=
  congrArg Span.line (h.spanAt o 0)

theorem spanOf (p : Piece) : s'.spanOf (p.shift d) = (s.spanOf p).shift d := h.spanAt p.offset _

theorem columnSpan (c : DeclaredColumn) : s'.columnSpan (c.shift d) = (s.columnSpan c).shift d :=
  h.spanAt c.piece.offset _

/-- A clause inside a piece. -/
theorem spanAt_clause (p : Piece) (o length : Nat) :
    s'.spanAt ((p.shift d).offset + o) length = (s.spanAt (p.offset + o) length).shift d := by
  have hoffset : (p.shift d).offset + o = d.bytes + (p.offset + o) := Nat.add_assoc ..
  rw [hoffset, h.spanAt]

/-! ## Tables and items -/

theorem itemsIn (mode : ScopeMode) : s'.itemsIn mode = (s.itemsIn mode).map (.shift d) := by
  rw [Source.itemsIn, Source.itemsIn, h.events, List.filterMap_map, List.map_filterMap]
  refine List.filterMap_congr fun event _ => ?_
  cases event <;> rfl

theorem items : s'.items = s.items.map (.shift d) := h.itemsIn .replace

theorem tables : s'.tables = s.tables.map (.shift d) := by
  rw [Source.tables, Source.tables, h.events, List.filterMap_map, List.map_filterMap]
  refine List.filterMap_congr fun event _ => ?_
  cases event <;> rfl

theorem columns : s'.columns = s.columns.map (.shift d) := by
  rw [Source.columns, Source.columns, h.items, List.filterMap_map, List.map_filterMap]
  refine List.filterMap_congr fun item _ => ?_
  rw [Function.comp_apply, TableItem.column?, TableItem.column?, Option.map_map]
  rfl

/-- What is read from the text of each item and the key of its table is the same. -/
theorem flatMap_items {β : Type} (f : String → Text → List β) :
    (s'.items.flatMap fun item => f item.table.key item.piece.text) =
      s.items.flatMap fun item => f item.table.key item.piece.text := by
  rw [h.items, List.flatMap_map]
  rfl

theorem keysOf (items : List (String × TableItem)) (table : TableDecl) :
    s'.keysOf (items.map fun entry => (entry.1, entry.2.shift d)) (table.shift d) =
      (s.keysOf items table).shift d := by
  have hspan : s'.spanAt (table.shift d).offset 0 = (s.spanAt table.offset 0).shift d :=
    h.spanAt table.offset 0
  have hown : (items.map fun entry => (entry.1, entry.2.shift d)).filter
        (fun entry => entry.1 = table.key) =
      (items.filter fun entry => entry.1 = table.key).map fun entry => (entry.1, entry.2.shift d) := by
    rw [List.filter_map]
    rfl
  have hkey : (table.shift d).key = table.key := rfl
  unfold Source.keysOf
  simp only [hkey, hown, hspan, List.map_map, List.flatMap_map]
  rfl

theorem tableKeys : s'.tableKeys = s.tableKeys.map (.shift d) := by
  have hitems : (s.items.map (TableItem.shift d)).map (fun item => (item.table.key, item)) =
      (s.items.map fun item => (item.table.key, item)).map fun entry => (entry.1, entry.2.shift d) := by
    rw [List.map_map, List.map_map]
    rfl
  have hfirst : firstBy TableDecl.key (s.tables.map (TableDecl.shift d)) =
      (firstBy TableDecl.key s.tables).map (TableDecl.shift d) := firstBy_map (fun _ => rfl) s.tables
  unfold Source.tableKeys
  dsimp only
  rw [h.tables, h.items, hitems, hfirst]
  generalize (s.items.map fun item => (item.table.key, item)) = items
  rw [List.map_map, List.map_map]
  exact List.map_congr_left fun table _ => h.keysOf items table

end Source.Moves

/-! ## Sources behind padding -/

/-- Nothing is declared in padding, and no scope opens there. -/
theorem eventsFrom_padding (s : Source) (mode : ScopeMode) {w : Text} (hw : IsPadding w)
    (before : Option Char) (offset : Nat) (t : Text) :
    s.eventsFrom mode 0 ⟨[], none⟩ before offset (w ++ t) =
      s.eventsFrom mode 0 ⟨[], none⟩ (w.getLast?.or before) (offset + byteSize w) t := by
  induction w generalizing before offset with
  | nil => rfl
  | cons x w ih =>
    have hletter : (!(CharClass.letter 'C').holds x) = true :=
      hw.holds (p := fun c => !(CharClass.letter 'C').holds c) (by decide) List.mem_cons_self
    have hnone : TableHeader.at? ⟨before, offset, x :: (w ++ t)⟩ = none :=
      TableHeader.at?_eq_none_of_not_holds (by simpa using hletter) _ _ _
    rw [List.cons_append, Source.eventsFrom, if_neg (Nat.not_lt_zero _), hnone, ite_self,
      getLast?_cons_or, byteSize_cons, ← Nat.add_assoc]
    exact ih hw.tail (some x) _

section

variable {w : Text} (hw : IsPadding w) (hline : EndsLine w) {t : Text} (ht : t ≠ [])
include hw

theorem scopeEvents_padding (hlines : ∀ o < (Source.ofMasked t).size,
      (Source.ofMasked (w ++ t)).lineOf ((Source.shiftOf w).bytes + o) =
        (Source.shiftOf w).lines + (Source.ofMasked t).lineOf o) (mode : ScopeMode) :
    (Source.ofMasked (w ++ t)).scopeEvents mode =
      ((Source.ofMasked t).scopeEvents mode).map (.shift (Source.shiftOf w)) := by
  rw [← eventsFrom_behind hlines hw.getLast?_any_isWord mode]
  have hskip := eventsFrom_padding (Source.ofMasked (w ++ t)) mode hw none 0 t
  rw [Option.or_none, Nat.zero_add] at hskip
  exact hskip

theorem addedForeignKeys_padding :
    (Source.ofMasked (w ++ t)).addedForeignKeys.map AddedForeignKey.content =
      (Source.ofMasked t).addedForeignKeys.map AddedForeignKey.content := by
  have hsame : ∀ st st' : Statement, st.Pads (byteSize w) st' →
      addedContents st'.text = (addedContents st.text).map id := by
    rintro st st' ⟨v, hv, htext, -⟩
    rw [htext, addedContents_padding hv, List.map_id]
  have hstatements := flatMap_of_forall₂ (statements_padding hw t) hsame
  rw [List.map_id] at hstatements
  rw [content_addedForeignKeys, content_addedForeignKeys]
  exact hstatements

theorem cascadeGraph_padding : (Source.ofMasked (w ++ t)).cascadeGraph =
    (Source.ofMasked t).cascadeGraph.map (.shift (byteSize w)) := by
  refine flatMap_of_forall₂ (statements_padding hw t) ?_
  rintro ⟨start, u⟩ ⟨start', u'⟩ ⟨v, hv, rfl, hstart⟩
  exact cascadeEdgesOf_padding hv u hstart

include hline ht

/-- A source that is not empty moves when padding is put in front of it. -/
theorem Source.moves_padding :
    (Source.ofMasked t).Moves (Source.shiftOf w) (Source.ofMasked (w ++ t)) where
  spanAt := Source.spanAt_append hline ht
  events := scopeEvents_padding hw fun o _ => Source.lineOf_append_right hline ht o
  indexes := by
    have hfind : Pattern.createIndex.findAll (Source.ofMasked (w ++ t)).text =
        (Pattern.createIndex.findAll (Source.ofMasked t).text).map (Pattern.behind w) :=
      Pattern.findAll_padding (by decide) hw t
    rw [Source.indexes, Source.indexes, hfind, List.map_map, List.map_map]
    refine List.map_congr_left fun m hm => ?_
    obtain ⟨c, hc⟩ := Pattern.exists_matchAt_of_mem_findAllFrom hm
    have hunique : ((Pattern.behind w m).group? 1).isSome = (m.group? 1).isSome := by
      rw [Pattern.behind, Placement.group?_hit, Option.isSome_map]
    simp only [Function.comp_apply, Index.ofMatch, Index.shift, Pattern.groupString_behind w hc,
      Pattern.groupText_behind w hc, hunique, Pattern.offset_start_behind,
      Source.lineOf_append_right hline ht]
    rfl
  added := addedForeignKeys_padding hw
  edges := cascadeGraph_padding hw

end

end SchemaReview
