import SchemaReview.Detector.Run
import SchemaReview.Proofs.Detector.NotNull
import SchemaReview.Proofs.Scope.Shift

/-!
# Proofs.Detector.Shift — findings move with the text

`Finding.outline` is what is left of a finding without the texts that show line numbers.  When a source
declares the same things as another one further on (`Source.Moves`), each detector gives the same findings
in the same order, with all spans moved: no detector compares positions, and each span is made from the
position of a declaration or of a clause in it.

* `Detector.outline_find`: one lemma for each detector, put together.
* `run_padding`: so spaces, tabs and line feeds in front of a script move its findings and do nothing else.
-/

namespace SchemaReview

open Text

/-! ## Findings without texts that show positions -/

/-- A finding without its messages. -/
structure Finding.Outline where
  kind : FindingKind
  severity : Severity
  span : Option Span
  help : Option String
  table : Option String
  columns : List String
  index : Option String
  /-- The spans of the notes. -/
  noteSpans : List Span
deriving DecidableEq, Repr

def Finding.outline (f : Finding) : Finding.Outline :=
  ⟨f.kind, f.severity, f.span, f.help, f.table, f.columns, f.index, f.notes.map (·.span)⟩

/-- The finding as it is where the text stands further on. -/
def Finding.moved (d : Shift) (f : Finding) : Finding.Outline :=
  { f.outline with
    span := f.outline.span.map (.shift d), noteSpans := f.outline.noteSpans.map (.shift d) }

namespace Finding

variable (f : Finding)

@[simp] theorem outline_new (severity : Severity) (kind : FindingKind) (message : String) :
    (new severity kind message).outline = ⟨kind, severity, none, none, none, [], none, []⟩ := rfl

@[simp] theorem outline_withSpan (span : Span) :
    (f.withSpan span).outline = { f.outline with span := some span } := rfl

@[simp] theorem outline_withHelp (help : String) :
    (f.withHelp help).outline = { f.outline with help := some help } := rfl

@[simp] theorem outline_withTable (table : String) :
    (f.withTable table).outline = { f.outline with table := some table } := rfl

@[simp] theorem outline_withIndex (index : String) :
    (f.withIndex index).outline = { f.outline with index := some index } := rfl

@[simp] theorem outline_withColumns (columns : List String) :
    (f.withColumns columns).outline = { f.outline with columns := f.outline.columns ++ columns } := rfl

@[simp] theorem outline_withNotes (notes : List Note) : (f.withNotes notes).outline =
    { f.outline with noteSpans := f.outline.noteSpans ++ notes.map (·.span) } := by
  simp [outline, withNotes]

@[simp] theorem outline_withNote (message : String) (span : Span) :
    (f.withNote message span).outline =
      { f.outline with noteSpans := f.outline.noteSpans ++ [span] } := by
  simp [outline, withNote]

@[simp] theorem moved_eq (d : Shift) : f.moved d = { f.outline with
    span := f.outline.span.map (.shift d), noteSpans := f.outline.noteSpans.map (.shift d) } := rfl

end Finding

namespace Source.Moves

variable {d : Shift} {s s' : Source} (h : s.Moves d s')
include h

/-! ## Columns -/

theorem outline_typeConflict? (key : String) (uses : List DeclaredColumn) :
    (typeConflict? s' key (uses.map (.shift d))).map Finding.outline =
      (typeConflict? s key uses).map (Finding.moved d) := by
  have htypes : groupBy (fun c : DeclaredColumn => c.column.type.key)
      (uses.map (DeclaredColumn.shift d)) =
      (groupBy (fun c : DeclaredColumn => c.column.type.key) uses).map
        fun entry => (entry.1, entry.2.map (DeclaredColumn.shift d)) :=
    groupBy_map (fun _ => rfl) uses
  have hnote : ∀ c : DeclaredColumn, (typeNote s' (c.shift d)).span = (typeNote s c).span.shift d :=
    h.columnSpan
  unfold typeConflict?
  dsimp only
  rw [htypes, List.flatMap_map, ← List.map_flatMap, List.length_map]
  cases (groupBy (fun c : DeclaredColumn => c.column.type.key) uses).flatMap (·.2) with
  | nil => rfl
  | cons first others =>
    simp only [List.map_cons]
    split
    · rfl
    · simp [h.columnSpan, hnote]

theorem outline_typeConflicts :
    (typeConflicts s').map Finding.outline = (typeConflicts s).map (Finding.moved d) := by
  have hgroups : groupBy (fun c : DeclaredColumn => c.column.key) (s.columns.map (DeclaredColumn.shift d)) =
      (groupBy (fun c : DeclaredColumn => c.column.key) s.columns).map
        fun entry => (entry.1, entry.2.map (DeclaredColumn.shift d)) := groupBy_map (fun _ => rfl) s.columns
  unfold typeConflicts
  rw [h.columns, hgroups]
  exact map_filterMap_congr fun entry _ => h.outline_typeConflict? entry.1 entry.2

theorem outline_defaultConflict? (c : DeclaredColumn) :
    (defaultConflict? s' (c.shift d)).map Finding.outline =
      (defaultConflict? s c).map (Finding.moved d) := by
  have hspan : s'.spanOf (c.shift d).piece = (s.spanOf c.piece).shift d := h.spanOf c.piece
  have hcolumn : (c.shift d).column = c.column := rfl
  have hname : (c.shift d).table.name = c.table.name := rfl
  unfold defaultConflict?
  rw [hcolumn, hname, hspan]
  cases c.column.default? with
  | none => rfl
  | some raw =>
    simp only [Option.bind_eq_bind, Option.bind_some]
    split
    · rfl
    · cases defaultMisfit? c.column.type raw with
      | none => rfl
      | some misfit => simp

theorem outline_defaultConflicts :
    (defaultConflicts s').map Finding.outline = (defaultConflicts s).map (Finding.moved d) := by
  unfold defaultConflicts
  rw [h.columns]
  exact map_filterMap_congr fun c _ => h.outline_defaultConflict? c

theorem outline_reservedWordColumns :
    (reservedWordColumns s').map Finding.outline = (reservedWordColumns s).map (Finding.moved d) := by
  have hnamed : (s.columns.map (DeclaredColumn.shift d)).filter
      (fun c => !c.column.quoted && isReservedWord c.column.name.toList) =
      (s.columns.filter fun c => !c.column.quoted && isReservedWord c.column.name.toList).map
        (DeclaredColumn.shift d) := List.filter_map
  have hfirst : ∀ cs : List DeclaredColumn,
      firstBy (fun c => (c.table.key, c.column.key)) (cs.map (DeclaredColumn.shift d)) =
        (firstBy (fun c => (c.table.key, c.column.key)) cs).map (DeclaredColumn.shift d) :=
    firstBy_map fun _ => rfl
  unfold reservedWordColumns
  dsimp only
  rw [h.columns, hnamed, hfirst]
  refine map_map_congr fun c _ => ?_
  simp [reservedWordFinding, h.columnSpan]

/-! ## Keys -/

end Source.Moves

def SeenColumn.shift (d : Shift) (c : SeenColumn) : SeenColumn := { c with piece := c.piece.shift d }

theorem seenColumn?_shift (d : Shift) (seen : List SeenColumn) (tableKey columnKey : String) :
    seenColumn? (seen.map (.shift d)) tableKey columnKey =
      (seenColumn? seen tableKey columnKey).map (.shift d) := by
  unfold seenColumn?
  rw [List.find?_map]
  rfl

theorem keysFor?_shift (d : Shift) (keys : List TableKeys) (table : String) :
    Source.keysFor? (keys.map (.shift d)) table = (Source.keysFor? keys table).map (.shift d) := by
  unfold Source.keysFor?
  rw [List.find?_map]
  rfl

/-- Indexes are not picked by their positions. -/
theorem any_map_shift (d : Shift) {p : Index → Bool} (hp : ∀ i : Index, p (i.shift d) = p i)
    (indexes : List Index) : (indexes.map (.shift d)).any p = indexes.any p := by
  have hcomp : p ∘ Index.shift d = p := funext hp
  rw [List.any_map, hcomp]

theorem filter_map_shift (d : Shift) {p : Index → Bool} (hp : ∀ i : Index, p (i.shift d) = p i)
    (indexes : List Index) :
    (indexes.map (.shift d)).filter p = (indexes.filter p).map (.shift d) := by
  have hcomp : p ∘ Index.shift d = p := funext hp
  rw [List.filter_map, hcomp]

namespace Source.Moves

variable {d : Shift} {s s' : Source} (h : s.Moves d s')
include h

theorem outline_listedNullableKeys (seen : List SeenColumn) (item : TableItem) :
    (listedNullableKeys s' (seen.map (.shift d)) (item.shift d)).map Finding.outline =
      (listedNullableKeys s seen item).map (Finding.moved d) := by
  have hkey : (item.shift d).table.key = item.table.key := rfl
  unfold listedNullableKeys
  rw [List.map_filterMap, List.map_filterMap]
  refine List.filterMap_congr fun key _ => ?_
  rw [hkey, seenColumn?_shift]
  cases seenColumn? seen item.table.key key with
  | none => rfl
  | some column =>
    have hnull : (column.shift d).notNull = column.notNull := rfl
    have hcolumn : (column.shift d).columnKey = column.columnKey := rfl
    have hpiece : (column.shift d).piece = column.piece.shift d := rfl
    simp only [Option.map_some, hnull]
    split
    · rfl
    · simp [listedNullableKey, hcolumn, hpiece, h.spanOf]

/-- By induction on the items, with the definitions read so far moved as well. -/
theorem outline_nullableKeysFrom (seen : List SeenColumn) (items : List TableItem) :
    (nullableKeysFrom s' (seen.map (.shift d)) (items.map (.shift d))).map Finding.outline =
      (nullableKeysFrom s seen items).map (Finding.moved d) := by
  induction items generalizing seen with
  | nil => rfl
  | cons item items ih =>
    have htext : (item.shift d).piece.text = item.piece.text := rfl
    rw [List.map_cons, nullableKeysFrom, nullableKeysFrom, htext]
    cases Column.ofText? item.piece.text with
    | none =>
      simp only [List.map_append, ih]
      rw [h.outline_listedNullableKeys]
    | some column =>
      have hrest := ih (⟨item.table.key, column.key, column.name, column.isNotNull, item.piece⟩ :: seen)
      simp only [List.map_append]
      refine congrArg₂ _ ?_ hrest
      split
      · simp [inlineNullableKey, h.spanOf]
      · rfl

theorem outline_nullableKeys :
    (nullableKeys s').map Finding.outline = (nullableKeys s).map (Finding.moved d) := by
  unfold nullableKeys
  rw [h.items]
  exact h.outline_nullableKeysFrom [] s.items

theorem outline_missingKeys :
    (missingKeys s').map Finding.outline = (missingKeys s).map (Finding.moved d) := by
  have hlacks : lacksKey (s.indexes.map (.shift d)) ∘ TableKeys.shift d = lacksKey s.indexes := by
    funext t
    rw [Function.comp_apply, lacksKey, lacksKey, any_map_shift d fun _ => rfl]
    rfl
  unfold missingKeys
  dsimp only
  rw [h.indexes, h.tableKeys, List.filter_map, hlacks]
  exact map_map_congr fun t _ => by simp [missingKey]

theorem outline_missingAlternates :
    (missingAlternates s').map Finding.outline = (missingAlternates s).map (Finding.moved d) := by
  have hother : ∀ t : TableKeys, hasAlternateKey (s.indexes.map (.shift d)) (t.shift d) =
      hasAlternateKey s.indexes t := by
    intro t
    unfold hasAlternateKey
    dsimp only
    rw [any_map_shift d fun _ => rfl]
    rfl
  unfold missingAlternates
  dsimp only
  rw [h.indexes, h.tableKeys]
  refine map_filterMap_congr fun t _ => ?_
  rw [TableKeys.primaryKey_shift, hother]
  split
  · split
    · simp [missingAlternate]
    · rfl
  · rfl

/-! ## Indexes -/

theorem indexSpan (i : Index) : s'.indexSpan (i.shift d) = (s.indexSpan i).shift d := h.spanAt i.offset 0

theorem outline_indexAnomaly (t : TableKeys) (i : Index) :
    (indexAnomaly s' (t.shift d) (i.shift d)).map Finding.outline =
      (indexAnomaly s t i).map (Finding.moved d) := by
  unfold indexAnomaly
  dsimp only
  rw [List.map_append, List.map_append, TableKeys.primaryKey_shift, TableKeys.uniques_shift,
    Index.columns_shift, Index.unique_shift]
  refine congrArg₂ (· ++ ·) ?_ ?_
  · split
    · simp [coversPrimaryKey, h.indexSpan]
    · rfl
  · split
    · rfl
    · rw [List.map_map, List.map_map]
      exact List.map_congr_left fun u _ => by simp [coversUniqueKey, h.indexSpan]

theorem outline_indexAnomalies :
    (indexAnomalies s').map Finding.outline = (indexAnomalies s).map (Finding.moved d) := by
  unfold indexAnomalies
  dsimp only
  rw [h.indexes, h.tableKeys]
  refine map_flatMap_congr fun i _ => ?_
  rw [Index.tableKey_shift, keysFor?_shift]
  cases Source.keysFor? s.tableKeys i.tableKey with
  | none => rfl
  | some t => exact h.outline_indexAnomaly t i

theorem outline_redundantIndexes :
    (redundantIndexes s').map Finding.outline = (redundantIndexes s).map (Finding.moved d) := by
  unfold redundantIndexes
  dsimp only
  rw [h.indexes, h.tableKeys, filter_map_shift d fun _ => rfl]
  refine map_filterMap_congr fun i _ => ?_
  rw [Index.tableKey_shift, keysFor?_shift]
  cases Source.keysFor? s.tableKeys i.tableKey with
  | none => rfl
  | some t =>
    have hspan : s'.indexSpan (i.shift d) = (s.indexSpan i).shift d := h.indexSpan i
    change (if !t.primaryKey.isEmpty && decide (sortedSet i.columns = sortedSet t.primaryKey) then
        some (redundantIndex s' (t.shift d) (i.shift d)) else none).map Finding.outline =
      (if !t.primaryKey.isEmpty && decide (sortedSet i.columns = sortedSet t.primaryKey) then
        some (redundantIndex s t i) else none).map (Finding.moved d)
    split
    · simp [redundantIndex, hspan]
    · rfl

end Source.Moves

def ConstantColumn.shift (d : Shift) (c : ConstantColumn) : ConstantColumn :=
  { c with line := d.lines + c.line }

theorem coveringBases_shift (d : Shift) (keys : List TableKeys) (indexes : List Index)
    (tableKey : String) :
    coveringBases (keys.map (.shift d)) (indexes.map (.shift d)) tableKey =
      coveringBases keys indexes tableKey := by
  unfold coveringBases
  rw [keysFor?_shift, filter_map_shift d fun _ => rfl, List.map_map]
  refine congrArg₂ (· ++ ·) ?_ rfl
  cases Source.keysFor? keys tableKey with
  | none => rfl
  | some t => rfl

namespace Source.Moves

variable {d : Shift} {s s' : Source} (h : s.Moves d s')
include h

theorem constantColumns : s'.constantColumns = s.constantColumns.map (.shift d) := by
  unfold Source.constantColumns
  rw [h.items, List.flatMap_map, List.map_flatMap]
  refine List.flatMap_congr fun item _ => ?_
  rw [List.map_filterMap]
  refine List.filterMap_congr fun check _ => ?_
  have hoffset : (item.shift d).piece.offset + check.offset =
      d.bytes + (item.piece.offset + check.offset) := Nat.add_assoc ..
  rw [Option.map_map, hoffset, h.lineOf]
  rfl

theorem outline_unnecessaryIndexes :
    (unnecessaryIndexes s').map Finding.outline = (unnecessaryIndexes s).map (Finding.moved d) := by
  unfold unnecessaryIndexes
  dsimp only
  rw [h.constantColumns, h.indexes, h.tableKeys, List.map_append, List.map_append]
  refine congrArg₂ (· ++ ·) ?_ ?_
  · refine map_flatMap_congr fun c _ => ?_
    rw [filter_map_shift d fun _ => rfl]
    have hcolumn : (c.shift d).columnKey = c.columnKey := rfl
    refine map_map_congr fun i _ => ?_
    simp [constantIndex, hcolumn, h.indexSpan]
  · refine map_filterMap_congr fun i _ => ?_
    rw [coveringBases_shift, Index.tableKey_shift, Index.columns_shift, Option.map_map, Option.map_map]
    refine congrArg (Option.map · _) (funext fun base => ?_)
    simp [supersetIndex, h.indexSpan]

/-! ## Checks -/

theorem outline_uselessChecks :
    (uselessChecks s').map Finding.outline = (uselessChecks s).map (Finding.moved d) := by
  unfold uselessChecks
  rw [h.items]
  refine map_flatMap_congr fun item _ => ?_
  rw [List.map_filterMap, List.map_filterMap]
  refine List.filterMap_congr fun check _ => ?_
  rw [Option.map_map, Option.map_map]
  refine congrArg (Option.map · _) (funext fun cls => ?_)
  simp [uselessCheck, h.spanAt_clause]

/-! ## Relations -/

theorem relatedTables : relatedTables s' = relatedTables s := by
  have hadded : ∀ s : Source, (s.addedForeignKeys.flatMap fun a =>
      [nameKey a.table, a.foreignKey.tableKey]) =
        (s.addedForeignKeys.map AddedForeignKey.content).flatMap
          fun c => [nameKey c.1, nameKey c.2.2.1] := by
    intro s
    rw [List.flatMap_map]
    rfl
  unfold SchemaReview.relatedTables
  rw [h.flatMap_items fun key text => (references text).flatMap fun r => [key, nameKey r.table],
    hadded, hadded, h.added]

theorem outline_isolatedTables :
    (isolatedTables s').map Finding.outline = (isolatedTables s).map (Finding.moved d) := by
  have hisolated : ((fun t : TableDecl => decide (t.key ∉ SchemaReview.relatedTables s)) ∘ TableDecl.shift d) =
      fun t => decide (t.key ∉ SchemaReview.relatedTables s) := rfl
  have hfirst : ∀ ts : List TableDecl, firstBy TableDecl.key (ts.map (.shift d)) =
      (firstBy TableDecl.key ts).map (TableDecl.shift d) := firstBy_map fun _ => rfl
  unfold isolatedTables
  dsimp only
  rw [h.relatedTables, h.tables, List.filter_map, hisolated, hfirst]
  refine map_map_congr fun t _ => ?_
  have hspan : s'.spanAt (t.shift d).offset 0 = (s.spanAt t.offset 0).shift d := h.spanAt t.offset 0
  simp [isolatedTable, hspan]

/-! ### Foreign keys -/

end Source.Moves

def ForeignKeyUse.shift (d : Shift) (u : ForeignKeyUse) : ForeignKeyUse :=
  ⟨u.table.shift d, u.piece.shift d, u.foreignKey⟩

def Relation.shift (d : Shift) (r : Relation) : Relation := { r with span := r.span.shift d }

def SelfReference.shift (d : Shift) (r : SelfReference) : SelfReference :=
  { r with table := r.table.shift d, span := r.span.shift d }

namespace Source.Moves

variable {d : Shift} {s s' : Source} (h : s.Moves d s')
include h

theorem foreignKeyUses : s'.foreignKeyUses = s.foreignKeyUses.map (.shift d) := by
  unfold Source.foreignKeyUses
  rw [h.items, List.flatMap_map, List.map_flatMap]
  refine List.flatMap_congr fun item _ => ?_
  rw [List.map_map]
  rfl

theorem outline_foreignKeyConflict? (table : String) (first second : ForeignKeyUse) :
    (foreignKeyConflict? s' table (first.shift d) (second.shift d)).map Finding.outline =
      (foreignKeyConflict? s table first second).map (Finding.moved d) := by
  have hspan : ∀ u : ForeignKeyUse, s'.spanOf (u.shift d).piece = (s.spanOf u.piece).shift d :=
    fun u => h.spanOf u.piece
  have hnote : ∀ u : ForeignKeyUse,
      (foreignKeyNote s' (u.shift d)).span = (foreignKeyNote s u).span.shift d := hspan
  have hcolumns : ∀ u : ForeignKeyUse, (u.shift d).columnSet = u.columnSet := fun _ => rfl
  have htarget : ∀ u : ForeignKeyUse, (u.shift d).target = u.target := fun _ => rfl
  unfold foreignKeyConflict?
  simp only [hcolumns, htarget]
  split
  · rfl
  · simp [hspan, hnote]

theorem outline_conflictingPairs (table : String) (uses : List ForeignKeyUse) :
    (conflictingPairs s' table (uses.map (.shift d))).map Finding.outline =
      (conflictingPairs s table uses).map (Finding.moved d) := by
  induction uses with
  | nil => rfl
  | cons first others ih =>
    rw [List.map_cons, conflictingPairs, conflictingPairs, List.map_append, List.map_append, ih]
    refine congrArg (· ++ _) ?_
    exact map_filterMap_congr fun second _ => h.outline_foreignKeyConflict? table first second

theorem outline_foreignKeyConflicts :
    (foreignKeyConflicts s').map Finding.outline = (foreignKeyConflicts s).map (Finding.moved d) := by
  have hgroups : ∀ us : List ForeignKeyUse,
      groupBy (fun u : ForeignKeyUse => u.table.key) (us.map (.shift d)) =
        (groupBy (fun u => u.table.key) us).map fun entry =>
          (entry.1, entry.2.map (ForeignKeyUse.shift d)) := groupBy_map fun _ => rfl
  unfold foreignKeyConflicts
  rw [h.foreignKeyUses, hgroups]
  refine map_flatMap_congr fun entry _ => ?_
  have hname : (((entry.2.map (ForeignKeyUse.shift d)).head?.map fun u => u.table.name).getD "") =
      (entry.2.head?.map fun u => u.table.name).getD "" := by
    rw [List.head?_map, Option.map_map]
    rfl
  dsimp only
  rw [hname]
  exact h.outline_conflictingPairs _ entry.2

theorem foreignKeyEnds : s'.foreignKeyEnds = s.foreignKeyEnds := by
  have hadded : ∀ s : Source, (s.addedForeignKeys.map fun a =>
      ForeignKeyEnds.ofForeignKey (nameKey a.table) a.foreignKey) =
        (s.addedForeignKeys.map AddedForeignKey.content).map fun c =>
          ForeignKeyEnds.ofForeignKey (nameKey c.1) ⟨c.2.1, c.2.2.1, c.2.2.2, false, 0⟩ := by
    intro s
    rw [List.map_map]
    rfl
  unfold Source.foreignKeyEnds
  rw [hadded, hadded, h.added, h.items, List.flatMap_map]
  rfl

theorem primaryKeyRefs : s'.primaryKeyRefs = s.primaryKeyRefs := by
  unfold Source.primaryKeyRefs
  rw [h.items, List.flatMap_map]
  rfl

theorem plainColumns : s'.plainColumns = s.plainColumns.map (.shift d) := by
  unfold Source.plainColumns
  rw [h.columns]
  exact List.filter_map

theorem outline_undefinedRelation? (primary : List ColumnRef) (ends : ForeignKeyEnds) (column : String)
    (uses : List DeclaredColumn) :
    (undefinedRelation? s' primary ends column (uses.map (.shift d))).map Finding.outline =
      (undefinedRelation? s primary ends column uses).map (Finding.moved d) := by
  have hkeys : (uses.map (DeclaredColumn.shift d)).map (·.table.key) = uses.map (·.table.key) := by
    rw [List.map_map]
    rfl
  unfold undefinedRelation?
  dsimp only
  rw [hkeys]
  cases uses with
  | nil => rfl
  | cons first others =>
    simp only [List.map_cons]
    split
    · rfl
    · simp [h.spanOf, Function.comp_def]

theorem outline_undefinedRelations :
    (undefinedRelations s').map Finding.outline = (undefinedRelations s).map (Finding.moved d) := by
  have hgroups : ∀ cs : List DeclaredColumn,
      groupBy (fun c : DeclaredColumn => (c.column.key, c.column.type.key)) (cs.map (.shift d)) =
        (groupBy (fun c => (c.column.key, c.column.type.key)) cs).map fun entry =>
          (entry.1, entry.2.map (DeclaredColumn.shift d)) := groupBy_map fun _ => rfl
  unfold undefinedRelations
  dsimp only
  rw [h.primaryKeyRefs, h.foreignKeyEnds, h.plainColumns, hgroups]
  exact map_filterMap_congr fun entry _ => h.outline_undefinedRelation? _ _ entry.1.1 entry.2

theorem relations : s'.relations = s.relations.map (.shift d) := by
  unfold Source.relations
  rw [h.itemsIn, List.flatMap_map, List.map_flatMap]
  refine List.flatMap_congr fun item _ => ?_
  unfold relationsOf
  rw [List.map_filterMap]
  refine List.filterMap_congr fun fk _ => ?_
  simp only [TableItem.piece_shift, TableItem.table_shift, h.spanAt_clause]
  split <;> rfl

theorem outline_mutualReferences :
    (mutualReferences s').map Finding.outline = (mutualReferences s).map (Finding.moved d) := by
  have hgroups : ∀ rs : List Relation, groupBy Relation.pair (rs.map (.shift d)) =
      (groupBy Relation.pair rs).map fun entry => (entry.1, entry.2.map (Relation.shift d)) :=
    groupBy_map fun _ => rfl
  unfold mutualReferences
  rw [h.relations, hgroups]
  refine map_filterMap_congr fun entry _ => ?_
  dsimp only
  match entry.2 with
  | [] => rfl
  | [_] => rfl
  | _ :: _ :: _ :: _ => rfl
  | [first, second] =>
    have hfrom : ∀ r : Relation, (r.shift d).fromTable = r.fromTable := fun _ => rfl
    have hcolumn : ∀ r : Relation, (r.shift d).fromColumn = r.fromColumn := fun _ => rfl
    have hspan : ∀ r : Relation, (r.shift d).span = r.span.shift d := fun _ => rfl
    have hnote : ∀ r : Relation, (r.shift d).note.span = r.note.span.shift d := fun _ => rfl
    simp only [List.map_cons, List.map_nil, mutualReference?, hfrom]
    split
    · rfl
    · simp [hcolumn, hspan, hnote]

theorem selfReferencesOf (item : TableItem) :
    selfReferencesOf s' (item.shift d) = (selfReferencesOf s item).map (.shift d) := by
  unfold SchemaReview.selfReferencesOf
  rw [List.map_flatMap]
  refine List.flatMap_congr fun fk _ => ?_
  rw [TableItem.piece_shift, h.spanAt_clause, List.map_map]
  rfl

theorem outline_selfReferences :
    (selfReferences s').map Finding.outline = (selfReferences s).map (Finding.moved d) := by
  have hreferences : s'.items.flatMap (SchemaReview.selfReferencesOf s') =
      (s.items.flatMap (SchemaReview.selfReferencesOf s)).map (.shift d) := by
    rw [h.items, List.flatMap_map, List.map_flatMap]
    exact List.flatMap_congr fun item _ => h.selfReferencesOf item
  have hnull : ((fun r : SelfReference => declaredNotNull (s.columns.map (.shift d)) r.table.key
      r.columnKey) ∘ SelfReference.shift d) =
        fun r => declaredNotNull s.columns r.table.key r.columnKey := by
    funext r
    rw [Function.comp_apply, declaredNotNull_eq_any, declaredNotNull_eq_any, List.any_map]
    rfl
  unfold selfReferences
  dsimp only
  rw [hreferences, h.columns, List.filter_map, hnull]
  refine map_map_congr fun r _ => ?_
  simp [selfReferenceFinding, SelfReference.shift]

/-! ### Cascades -/

end Source.Moves

namespace CascadeGraph

variable (n : Nat) (g : CascadeGraph)

theorem tableNames_map_shift : tableNames (g.map (.shift n)) = g.tableNames := by
  rw [tableNames, List.flatMap_map]
  rfl

theorem firstCycle?_map_shift : firstCycle? (g.map (.shift n)) = g.firstCycle? := by
  rw [firstCycle?, nodes, arrows_map_shift, tableNames_map_shift]
  rfl

theorem edgeOffset?_map_shift (source target : String) :
    edgeOffset? (g.map (.shift n)) source target = (g.edgeOffset? source target).map (n + ·) := by
  have hedge : ((fun e : CascadeEdge => decide (e.fromKey = source ∧ e.toKey = target)) ∘
      CascadeEdge.shift n) = fun e => decide (e.fromKey = source ∧ e.toKey = target) := rfl
  rw [edgeOffset?, List.find?_map, hedge, edgeOffset?, Option.map_map, Option.map_map]
  rfl

end CascadeGraph

namespace Source.Moves

variable {d : Shift} {s s' : Source} (h : s.Moves d s')
include h

theorem outline_cascadeFinding (g : CascadeGraph) (cycle : List String) :
    (cascadeFinding s' (g.map (.shift d.bytes)) cycle).outline =
      (cascadeFinding s g cycle).moved d := by
  have hnotes : ∀ edges : List (String × String),
      (edges.filterMap (cascadeNote? s' (g.map (.shift d.bytes)))).map Note.span =
        ((edges.filterMap (cascadeNote? s g)).map Note.span).map (.shift d) := by
    intro edges
    rw [List.map_map, List.map_filterMap, List.map_filterMap]
    refine List.filterMap_congr fun edge _ => ?_
    rw [cascadeNote?, cascadeNote?, CascadeGraph.edgeOffset?_map_shift, Option.map_map, Option.map_map,
      Option.map_map]
    exact congrArg (Option.map · _) (funext fun offset => h.spanAt offset 10)
  unfold cascadeFinding
  simp only [Finding.moved_eq, Finding.outline_withHelp, Finding.outline_withNotes, hnotes, ← List.head?_map]
  rw [List.head?_map (f := Span.shift d)]
  rfl

theorem outline_cascadeCycles :
    (cascadeCycles s').map Finding.outline = (cascadeCycles s).map (Finding.moved d) := by
  unfold cascadeCycles
  dsimp only
  rw [h.edges, CascadeGraph.firstCycle?_map_shift]
  cases s.cascadeGraph.firstCycle? with
  | none => rfl
  | some cycle => exact congrArg ([·]) (h.outline_cascadeFinding s.cascadeGraph cycle)

/-! ## All detectors -/

theorem outline_find (det : Detector) :
    (det.find s').map Finding.outline = (det.find s).map (Finding.moved d) := by
  cases det with
  | conflictingTypes => exact h.outline_typeConflicts
  | defaultValueConflict => exact h.outline_defaultConflicts
  | reservedWords => exact h.outline_reservedWordColumns
  | nullPrimaryKey => exact h.outline_nullableKeys
  | indexAnomalies => exact h.outline_indexAnomalies
  | redundantUniqueIndex => exact h.outline_redundantIndexes
  | tablesWithoutRelations => exact h.outline_isolatedTables
  | missingPotentialKeys => exact h.outline_missingKeys
  | unnecessaryIndexes => exact h.outline_unnecessaryIndexes
  | wrongAlternateKey => exact h.outline_missingAlternates
  | unnecessaryCheckConstraints => exact h.outline_uselessChecks
  | unnecessaryForeignKeys => exact h.outline_foreignKeyConflicts
  | undefinedRelations => exact h.outline_undefinedRelations
  | overlappingRelations => exact h.outline_mutualReferences
  | incorrectRecursiveRelation => exact h.outline_selfReferences
  | infiniteDeleteCascade => exact h.outline_cascadeCycles

end Source.Moves

/-- Where nothing is declared, nothing is found. -/
theorem Detector.find_eq_nil {s : Source} (hevents : ∀ mode, s.scopeEvents mode = [])
    (hindexes : s.indexes = []) (hstatements : s.statements = []) (d : Detector) : d.find s = [] := by
  have hitems : ∀ mode, s.itemsIn mode = [] := fun mode => by rw [Source.itemsIn, hevents]; rfl
  have htables : s.tables = [] := by rw [Source.tables, hevents]; rfl
  have hcolumns : s.columns = [] := by rw [Source.columns, Source.items, hitems]; rfl
  have hkeys : s.tableKeys = [] := by rw [Source.tableKeys, htables]; rfl
  have hgraph : s.cascadeGraph = [] := by rw [Source.cascadeGraph, hstatements]; rfl
  cases d with
  | conflictingTypes => rw [find, typeConflicts, hcolumns]; rfl
  | defaultValueConflict => rw [find, defaultConflicts, hcolumns]; rfl
  | reservedWords => rw [find, reservedWordColumns, hcolumns]; rfl
  | nullPrimaryKey => rw [find, nullableKeys, Source.items, hitems]; rfl
  | indexAnomalies => rw [find, SchemaReview.indexAnomalies, hindexes]; rfl
  | redundantUniqueIndex => rw [find, redundantIndexes, hindexes]; rfl
  | tablesWithoutRelations => rw [find, isolatedTables, htables]; rfl
  | missingPotentialKeys => rw [find, missingKeys, hkeys]; rfl
  | unnecessaryIndexes =>
    rw [find, SchemaReview.unnecessaryIndexes, Source.constantColumns, hindexes, Source.items, hitems]
    rfl
  | wrongAlternateKey => rw [find, missingAlternates, hkeys]; rfl
  | unnecessaryCheckConstraints => rw [find, uselessChecks, Source.items, hitems]; rfl
  | unnecessaryForeignKeys => rw [find, foreignKeyConflicts, Source.foreignKeyUses, Source.items, hitems]; rfl
  | undefinedRelations => rw [find, SchemaReview.undefinedRelations, Source.plainColumns, hcolumns]; rfl
  | overlappingRelations => rw [find, mutualReferences, Source.relations, hitems]; rfl
  | incorrectRecursiveRelation => rw [find, selfReferences, Source.items, hitems]; rfl
  | infiniteDeleteCascade => rw [find, cascadeCycles, hgraph]; rfl

/-! ## Padding in front of a script -/

/-- Nothing is found in padding. -/
theorem Detector.find_padding_nil {w : Text} (hw : IsPadding w) (d : Detector) :
    d.find (Source.ofMasked w) = [] := by
  have hnil : w ++ [] = w := List.append_nil w
  refine d.find_eq_nil (fun mode => ?_) ?_ ?_
  · have hskip := eventsFrom_padding (Source.ofMasked w) mode hw none 0 []
    rw [hnil] at hskip
    exact hskip.trans rfl
  · have hfind := Pattern.findAll_padding (p := Pattern.createIndex) (by decide) hw []
    rw [hnil] at hfind
    rw [Source.indexes]
    exact congrArg (List.map _) hfind
  · have hstatements := statements_padding hw []
    rw [hnil] at hstatements
    exact List.forall₂_nil_left_iff.mp hstatements

theorem Detector.outline_find_padding {w : Text} (hw : IsPadding w) (hline : EndsLine w) (t : Text)
    (d : Detector) : (d.find (Source.ofMasked (w ++ t))).map Finding.outline =
      (d.find (Source.ofMasked t)).map (Finding.moved ⟨byteSize w, w.count '\n'⟩) := by
  by_cases ht : t = []
  · -- there is no line to count on from, and nothing to move
    subst ht
    rw [List.append_nil, d.find_padding_nil hw, d.find_padding_nil isPadding_nil]
    rfl
  · rw [← shiftOf_padding hw hline]
    exact (Source.moves_padding hw hline ht).outline_find d

/-- **Findings move with the text.**  Spaces, tabs and line feeds in front of a script, the last of them a
line feed, change no finding of any detector but for its spans: these stand as many bytes further on as
were put in front and as many lines as there are line feeds, in the same column and with the same length. -/
theorem run_padding (d : Detector) {w : String} (hw : ∀ c ∈ w.toList, c ∈ [' ', '\t', '\n'])
    (hend : w.toList.getLast? = some '\n') (sql : String) :
    (d.run (w ++ sql)).map Finding.outline =
      (d.run sql).map (Finding.moved ⟨w.utf8ByteSize, w.toList.count '\n'⟩) := by
  have hpad : IsPadding w.toList := hw
  have hline : EndsLine w.toList := fun c hc => by
    rw [hend] at hc
    exact (Option.some.inj hc).symm
  have hmasked : Source.ofString (w ++ sql) =
      Source.ofMasked (w.toList ++ maskComments sql.toList) := by
    rw [Source.ofString, Source.ofText, String.toList_append, hpad.maskComments_append hline]
  rw [Detector.run, hmasked, d.outline_find_padding hpad hline, byteSize_toList]
  rfl

/-- Two lines in front of a script with a primary key column that allows null values. -/
theorem run_padding_nullableKey :
    (∀ c ∈ " \n\t\n".toList, c ∈ [' ', '\t', '\n']) ∧ " \n\t\n".toList.getLast? = some '\n' ∧
    Detector.nullPrimaryKey.run "CREATE TABLE é (id INT,\n PRIMARY KEY (id));" ≠ [] ∧
    (Detector.nullPrimaryKey.run (" \n\t\n" ++ "CREATE TABLE é (id INT,\n PRIMARY KEY (id));")).map
        Finding.outline =
      (Detector.nullPrimaryKey.run "CREATE TABLE é (id INT,\n PRIMARY KEY (id));").map
        (Finding.moved ⟨" \n\t\n".utf8ByteSize, " \n\t\n".toList.count '\n'⟩) := by
  have hpad : ∀ c ∈ " \n\t\n".toList, c ∈ [' ', '\t', '\n'] := by
    rw [show " \n\t\n".toList = [' ', '\n', '\t', '\n'] by decide]
    simp
  exact ⟨hpad, by decide, by decide +kernel, run_padding .nullPrimaryKey hpad (by decide) _⟩

end SchemaReview
