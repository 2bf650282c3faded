import SchemaReview.Detector.Run
import SchemaReview.Proofs.Detector.NotNull
import SchemaReview.Proofs.Scope.FoldCase

/-!
# Proofs.Detector.FoldCase — findings do not depend on the case of letters

`Finding.shape` is what is left of a finding without names and texts.  Each detector gives findings
of the same shapes for a source and for its folded form, one after the other: it compares names by
key, and what it decides it decides by functions that do not see folding.
-/

namespace SchemaReview

open Text

/-- A finding without names and texts. -/
structure Finding.Shape where
  kind : FindingKind
  severity : Severity
  span : Option Span
  columns : List String
  noteSpans : List Span
deriving DecidableEq, Repr

def Finding.shape (f : Finding) : Finding.Shape :=
  ⟨f.kind, f.severity, f.span, f.columns, f.notes.map (·.span)⟩

namespace Finding

variable (f : Finding)

@[simp] theorem shape_new (severity : Severity) (kind : FindingKind) (message : String) :
    (new severity kind message).shape = ⟨kind, severity, none, [], []⟩ := rfl

@[simp] theorem shape_withSpan (span : Span) :
    (f.withSpan span).shape = { f.shape with span := some span } := rfl

@[simp] theorem shape_withHelp (help : String) : (f.withHelp help).shape = f.shape := rfl

@[simp] theorem shape_withTable (table : String) : (f.withTable table).shape = f.shape := rfl

@[simp] theorem shape_withIndex (index : String) : (f.withIndex index).shape = f.shape := rfl

@[simp] theorem shape_withColumns (columns : List String) :
    (f.withColumns columns).shape = { f.shape with columns := f.shape.columns ++ columns } := rfl

@[simp] theorem shape_withNotes (notes : List Note) : (f.withNotes notes).shape =
    { f.shape with noteSpans := f.shape.noteSpans ++ notes.map (·.span) } := by
  simp [shape, withNotes]

@[simp] theorem shape_withNote (message : String) (span : Span) :
    (f.withNote message span).shape =
      { f.shape with noteSpans := f.shape.noteSpans ++ [span] } := by
  simp [shape, withNote]

end Finding

section

variable (s : Source)

/-! ## Columns -/

theorem shape_typeConflict? (key : String) (uses : List DeclaredColumn) :
    (typeConflict? s.foldCase key (uses.map DeclaredColumn.foldCase)).map Finding.shape =
      (typeConflict? s key uses).map Finding.shape := by
  have htypes : groupBy (fun c : DeclaredColumn => c.column.type.key)
      (uses.map DeclaredColumn.foldCase) =
      (groupBy (fun c : DeclaredColumn => c.column.type.key) uses).map
        fun entry => (entry.1, entry.2.map DeclaredColumn.foldCase) :=
    groupBy_map (fun c => c.column.type.key_foldCase) uses
  have hnote : ∀ c : DeclaredColumn, (typeNote s.foldCase c.foldCase).span = (typeNote s c).span :=
    s.columnSpan_foldCase
  unfold typeConflict?
  dsimp only
  rw [htypes, List.flatMap_map, ← List.map_flatMap, List.length_map]
  cases (groupBy (fun c : DeclaredColumn => c.column.type.key) uses).flatMap (·.2) with
  | nil => rfl
  | cons first others =>
    simp only [List.map_cons]
    split
    · rfl
    · simp [s.columnSpan_foldCase, hnote]

theorem shape_typeConflicts :
    (typeConflicts s.foldCase).map Finding.shape = (typeConflicts s).map Finding.shape := by
  unfold typeConflicts
  rw [s.columns_foldCase, groupBy_map (fun c => c.column.key_foldCase)]
  exact map_filterMap_congr fun entry _ => shape_typeConflict? s entry.1 entry.2

theorem kind_defaultMisfit? (type : DeclaredType) (raw : Text) :
    (defaultMisfit? type.foldCase raw.foldCase).map (·.1) = (defaultMisfit? type raw).map (·.1) := by
  have hlength : type.foldCase.length? = type.length? := rfl
  have hvalue : (if isQuotedLiteral raw then unquote raw.foldCase else raw.foldCase) =
      Text.foldCase (if isQuotedLiteral raw then unquote raw else raw) := by
    rw [unquote_foldCase]
    split <;> rfl
  unfold defaultMisfit?
  rw [DeclaredType.family_foldCase, isQuotedLiteral_foldCase, hlength]
  cases type.family with
  | text =>
    dsimp only
    split
    · rfl
    · cases type.length? with
      | none => rfl
      | some limit =>
        dsimp only
        rw [unquote_foldCase, length_foldCase]
        split <;> rfl
  | numeric =>
    dsimp only
    rw [hvalue, trim_foldCase, isFloat_foldCase]
    cases isFloat (trim (if isQuotedLiteral raw then unquote raw else raw)) <;> rfl
  | other => rfl

theorem shape_defaultConflict? (c : DeclaredColumn) :
    (defaultConflict? s.foldCase c.foldCase).map Finding.shape =
      (defaultConflict? s c).map Finding.shape := by
  have hdefault : c.foldCase.column.default? = c.column.default?.map Text.foldCase :=
    c.column.default?_foldCase
  have hspan : s.foldCase.spanOf c.foldCase.piece = s.spanOf c.piece := s.spanOf_foldCase c.piece
  have hkey : c.foldCase.column.key = c.column.key := c.column.key_foldCase
  unfold defaultConflict?
  rw [hdefault]
  cases c.column.default? with
  | none => simp only [Option.map_none, Option.bind_eq_bind, Option.bind_none]
  | some raw =>
    have hkind := kind_defaultMisfit? c.column.type raw
    simp only [Option.map_some, Option.bind_eq_bind, Option.bind_some, isNullWord_foldCase, hspan,
      hkey]
    split
    · rfl
    · have htype : c.foldCase.column.type = c.column.type.foldCase := rfl
      rw [htype]
      cases hfolded : defaultMisfit? c.column.type.foldCase raw.foldCase <;>
        cases hplain : defaultMisfit? c.column.type raw <;>
        rw [hfolded, hplain] at hkind <;> simp_all

theorem shape_defaultConflicts :
    (defaultConflicts s.foldCase).map Finding.shape = (defaultConflicts s).map Finding.shape := by
  unfold defaultConflicts
  rw [s.columns_foldCase]
  exact map_filterMap_congr fun c _ => shape_defaultConflict? s c

theorem shape_reservedWordColumns :
    (reservedWordColumns s.foldCase).map Finding.shape =
      (reservedWordColumns s).map Finding.shape := by
  have hnamed : ((fun c : DeclaredColumn => !c.column.quoted && isReservedWord c.column.name.toList) ∘
      DeclaredColumn.foldCase) =
      fun c => !c.column.quoted && isReservedWord c.column.name.toList := by
    funext c
    simp [DeclaredColumn.foldCase, Column.foldCase, isReservedWord, equalsIgnoringCase_eq]
  have hkey : ∀ c : DeclaredColumn, (c.foldCase.table.key, c.foldCase.column.key) =
      (c.table.key, c.column.key) := by
    intro c
    simp [DeclaredColumn.foldCase]
  unfold reservedWordColumns
  dsimp only
  rw [s.columns_foldCase, List.filter_map, hnamed, firstBy_map hkey]
  refine map_map_congr fun c _ => ?_
  have hcolumn : c.foldCase.column.key = c.column.key := c.column.key_foldCase
  simp [reservedWordFinding, s.columnSpan_foldCase, hcolumn]

/-! ## Keys -/

def SeenColumn.foldCase (c : SeenColumn) : SeenColumn :=
  { c with name := foldString c.name, piece := c.piece.foldCase }

theorem seenColumn?_foldCase (seen : List SeenColumn) (tableKey columnKey : String) :
    seenColumn? (seen.map SeenColumn.foldCase) tableKey columnKey =
      (seenColumn? seen tableKey columnKey).map SeenColumn.foldCase := by
  unfold seenColumn?
  rw [List.find?_map]
  rfl

theorem shape_listedNullableKeys (seen : List SeenColumn) (item : TableItem) :
    (listedNullableKeys s.foldCase (seen.map SeenColumn.foldCase) item.foldCase).map Finding.shape =
      (listedNullableKeys s seen item).map Finding.shape := by
  unfold listedNullableKeys
  rw [TableItem.text_foldCase, primaryKeyColumns?_foldCase, TableItem.key_foldCase,
    List.map_filterMap, List.map_filterMap]
  refine List.filterMap_congr fun key _ => ?_
  rw [seenColumn?_foldCase]
  cases seenColumn? seen item.table.key key with
  | none => rfl
  | some column =>
    have hnull : column.foldCase.notNull = column.notNull := rfl
    have hcolumn : column.foldCase.columnKey = column.columnKey := rfl
    have hseen : s.foldCase.spanOf column.foldCase.piece = s.spanOf column.piece :=
      s.spanOf_foldCase column.piece
    have hitem : s.foldCase.spanOf item.foldCase.piece = s.spanOf item.piece :=
      s.spanOf_foldCase item.piece
    simp only [Option.map_some, hnull]
    split
    · rfl
    · simp [listedNullableKey, hcolumn, hseen, hitem]

theorem shape_nullableKeysFrom (seen : List SeenColumn) (items : List TableItem) :
    (nullableKeysFrom s.foldCase (seen.map SeenColumn.foldCase)
        (items.map TableItem.foldCase)).map Finding.shape =
      (nullableKeysFrom s seen items).map Finding.shape := by
  induction items generalizing seen with
  | nil => rfl
  | cons item items ih =>
    have hitem : s.foldCase.spanOf item.foldCase.piece = s.spanOf item.piece :=
      s.spanOf_foldCase item.piece
    rw [List.map_cons, nullableKeysFrom, nullableKeysFrom, TableItem.text_foldCase,
      Column.ofText?_foldCase]
    cases Column.ofText? item.piece.text with
    | none =>
      simp only [Option.map_none, List.map_append, ih, shape_listedNullableKeys]
    | some column =>
      have hrest := ih (⟨item.table.key, column.key, column.name, column.isNotNull, item.piece⟩ :: seen)
      simp only [Option.map_some, List.map_append, Column.isNotNull_foldCase,
        Column.isPrimaryKey_foldCase, Column.key_foldCase, TableItem.key_foldCase]
      refine congrArg₂ _ ?_ hrest
      split
      · simp [inlineNullableKey, hitem]
      · rfl

theorem shape_nullableKeys :
    (nullableKeys s.foldCase).map Finding.shape = (nullableKeys s).map Finding.shape := by
  unfold nullableKeys
  rw [s.items_foldCase]
  exact shape_nullableKeysFrom s [] s.items

/-- Indexes are picked by properties that do not see folding. -/
theorem any_map_foldCase {p : Index → Bool} (hp : ∀ i : Index, p i.foldCase = p i)
    (indexes : List Index) : (indexes.map Index.foldCase).any p = indexes.any p := by
  have hcomp : p ∘ Index.foldCase = p := funext hp
  rw [List.any_map, hcomp]

theorem filter_map_foldCase {p : Index → Bool} (hp : ∀ i : Index, p i.foldCase = p i)
    (indexes : List Index) :
    (indexes.map Index.foldCase).filter p = (indexes.filter p).map Index.foldCase := by
  have hcomp : p ∘ Index.foldCase = p := funext hp
  rw [List.filter_map, hcomp]

theorem lacksKey_foldCase (indexes : List Index) (t : TableKeys) :
    lacksKey (indexes.map Index.foldCase) t.foldCase = lacksKey indexes t := by
  unfold lacksKey
  rw [any_map_foldCase fun i => by rw [Index.tableKey_foldCase]; rfl]
  rfl

theorem shape_missingKeys :
    (missingKeys s.foldCase).map Finding.shape = (missingKeys s).map Finding.shape := by
  have hlacks : lacksKey (s.indexes.map Index.foldCase) ∘ TableKeys.foldCase = lacksKey s.indexes :=
    funext (lacksKey_foldCase s.indexes)
  unfold missingKeys
  dsimp only
  rw [s.indexes_foldCase, s.tableKeys_foldCase, List.filter_map, hlacks]
  refine map_map_congr fun t _ => ?_
  have hspan : t.foldCase.span = t.span := rfl
  simp [missingKey, hspan]

theorem hasAlternateKey_foldCase (indexes : List Index) (t : TableKeys) :
    hasAlternateKey (indexes.map Index.foldCase) t.foldCase = hasAlternateKey indexes t := by
  unfold hasAlternateKey
  dsimp only
  rw [any_map_foldCase fun i => by rw [Index.tableKey_foldCase]; rfl]
  rfl

theorem shape_missingAlternates :
    (missingAlternates s.foldCase).map Finding.shape = (missingAlternates s).map Finding.shape := by
  unfold missingAlternates
  dsimp only
  rw [s.indexes_foldCase, s.tableKeys_foldCase]
  refine map_filterMap_congr fun t _ => ?_
  have hprimary : t.foldCase.primaryKey = t.primaryKey := rfl
  have hspan : t.foldCase.span = t.span := rfl
  rw [hprimary, hasAlternateKey_foldCase]
  split
  · split
    · simp [missingAlternate, hspan]
    · rfl
  · rfl

/-! ## Indexes -/

theorem indexSpan_foldCase (i : Index) : s.foldCase.indexSpan i.foldCase = s.indexSpan i :=
  s.spanAt_foldCase i.offset 0

theorem shape_indexAnomaly (t : TableKeys) (i : Index) :
    (indexAnomaly s.foldCase t.foldCase i.foldCase).map Finding.shape =
      (indexAnomaly s t i).map Finding.shape := by
  have hspan := indexSpan_foldCase s i
  have hcolumns : i.foldCase.columns = i.columns := rfl
  have hunique : i.foldCase.unique = i.unique := rfl
  have hprimary : t.foldCase.primaryKey = t.primaryKey := rfl
  have huniques : t.foldCase.uniques = t.uniques := rfl
  have hcoversPrimary : (coversPrimaryKey s.foldCase t.foldCase i.foldCase).shape =
      (coversPrimaryKey s t i).shape := by
    simp [coversPrimaryKey, hspan, hcolumns]
  have hcoversUnique : ∀ u, (coversUniqueKey s.foldCase t.foldCase i.foldCase u).shape =
      (coversUniqueKey s t i u).shape := by
    intro u
    simp [coversUniqueKey, hspan, hcolumns]
  unfold indexAnomaly
  dsimp only
  rw [hcolumns, hunique, hprimary, huniques, List.map_append, List.map_append]
  refine congrArg₂ (· ++ ·) ?_ ?_
  · split
    · rw [List.map_singleton, hcoversPrimary, List.map_singleton]
    · rfl
  · split
    · rfl
    · rw [List.map_map, List.map_map]
      exact List.map_congr_left fun u _ => hcoversUnique u

theorem shape_indexAnomalies :
    (indexAnomalies s.foldCase).map Finding.shape = (indexAnomalies s).map Finding.shape := by
  unfold indexAnomalies
  dsimp only
  rw [s.indexes_foldCase, s.tableKeys_foldCase]
  refine map_flatMap_congr fun i _ => ?_
  rw [Index.tableKey_foldCase, Source.keysFor?_foldCase]
  cases Source.keysFor? s.tableKeys i.tableKey with
  | none => rfl
  | some t => exact shape_indexAnomaly s t i

theorem shape_redundantIndexes :
    (redundantIndexes s.foldCase).map Finding.shape = (redundantIndexes s).map Finding.shape := by
  have hunique : ((fun i : Index => i.unique) ∘ Index.foldCase) = fun i => i.unique := rfl
  unfold redundantIndexes
  dsimp only
  rw [s.indexes_foldCase, s.tableKeys_foldCase, List.filter_map, hunique]
  refine map_filterMap_congr fun i _ => ?_
  have hcolumns : i.foldCase.columns = i.columns := rfl
  rw [Index.tableKey_foldCase, Source.keysFor?_foldCase, hcolumns]
  cases Source.keysFor? s.tableKeys i.tableKey with
  | none => rfl
  | some t =>
    have hprimary : t.foldCase.primaryKey = t.primaryKey := rfl
    simp only [Option.map_some, hprimary]
    split
    · simp [redundantIndex, indexSpan_foldCase, hprimary]
    · rfl

theorem Source.constantColumns_foldCase : s.foldCase.constantColumns = s.constantColumns := by
  unfold Source.constantColumns
  rw [s.items_foldCase, List.flatMap_map]
  refine List.flatMap_congr fun item _ => ?_
  have hoffset : item.foldCase.piece.offset = item.piece.offset := rfl
  rw [TableItem.text_foldCase, checks_foldCase, List.filterMap_map, TableItem.key_foldCase, hoffset]
  refine List.filterMap_congr fun check _ => ?_
  have hexpression : check.foldCase.expression = check.expression.foldCase := rfl
  have hcheck : check.foldCase.offset = check.offset := rfl
  simp only [Function.comp_apply, hexpression, hcheck, constantColumn?_foldCase, Option.map_map,
    Source.lineOf_foldCase]
  refine congrArg (Option.map · _) (funext fun column => ?_)
  simp

theorem map_snd_coveringBases (keys : List TableKeys) (indexes : List Index) (tableKey : String) :
    (coveringBases (keys.map TableKeys.foldCase) (indexes.map Index.foldCase) tableKey).map (·.2) =
      (coveringBases keys indexes tableKey).map (·.2) := by
  unfold coveringBases
  rw [Source.keysFor?_foldCase, filter_map_foldCase fun i => by rw [Index.tableKey_foldCase]; rfl]
  simp only [List.map_append, List.map_map]
  refine congrArg₂ (· ++ ·) ?_ rfl
  cases Source.keysFor? keys tableKey with
  | none => rfl
  | some t => rfl

/-- Which base is covered shows only in the message. -/
theorem shape_supersetIndex (i : Index) (base : String × List String) :
    (supersetIndex s i base).shape =
      ⟨.indexSupersetOfKey, .warning, some (s.indexSpan i), i.columns, []⟩ := by
  simp [supersetIndex]

theorem shape_unnecessaryIndexes :
    (unnecessaryIndexes s.foldCase).map Finding.shape =
      (unnecessaryIndexes s).map Finding.shape := by
  unfold unnecessaryIndexes
  dsimp only
  rw [s.constantColumns_foldCase, s.indexes_foldCase, s.tableKeys_foldCase, List.map_append,
    List.map_append]
  refine congrArg₂ (· ++ ·) ?_ ?_
  · rw [List.map_flatMap, List.map_flatMap]
    refine List.flatMap_congr fun c _ => ?_
    rw [filter_map_foldCase fun i => by rw [Index.tableKey_foldCase]; rfl]
    refine map_map_congr fun i _ => ?_
    simp [constantIndex, indexSpan_foldCase]
  · refine map_filterMap_congr fun i _ => ?_
    have hcolumns : i.foldCase.columns = i.columns := rfl
    have hfind : ∀ (covers : List String → Bool) (bases : List (String × List String))
        (shape : Finding.Shape), (bases.find? fun base => covers base.2).map (fun _ => shape) =
          ((bases.map (·.2)).find? covers).map fun _ => shape := by
      intro covers bases shape
      rw [List.find?_map, Option.map_map]
      rfl
    simp only [Option.map_map, Function.comp_def, shape_supersetIndex, hcolumns,
      Index.tableKey_foldCase, indexSpan_foldCase]
    rw [hfind, map_snd_coveringBases, ← hfind]

/-! ## Relations -/

theorem relatedTables_foldCase (hdollar : '$' ∉ s.text) : relatedTables s.foldCase = relatedTables s := by
  unfold relatedTables
  rw [s.items_foldCase, Source.addedForeignKeys_foldCase hdollar, List.flatMap_map, List.flatMap_map]
  refine congrArg₂ (· ++ ·) ?_ ?_
  · refine List.flatMap_congr fun item _ => ?_
    rw [TableItem.text_foldCase, references_foldCase, List.flatMap_map]
    refine List.flatMap_congr fun r _ => ?_
    simp [Reference.foldCase]
  · refine List.flatMap_congr fun a _ => ?_
    simp [AddedForeignKey.foldCase]

theorem shape_isolatedTables (hdollar : '$' ∉ s.text) :
    (isolatedTables s.foldCase).map Finding.shape = (isolatedTables s).map Finding.shape := by
  have hisolated : ((fun t : TableDecl => decide (t.key ∉ relatedTables s)) ∘ TableDecl.foldCase) =
      fun t => decide (t.key ∉ relatedTables s) := by
    funext t
    rw [Function.comp_apply, TableDecl.key_foldCase]
  unfold isolatedTables
  dsimp only
  rw [relatedTables_foldCase s hdollar, s.tables_foldCase, List.filter_map, hisolated,
    firstBy_map TableDecl.key_foldCase]
  refine map_map_congr fun t _ => ?_
  have hoffset : t.foldCase.offset = t.offset := rfl
  simp [isolatedTable, hoffset]

theorem shape_uselessChecks :
    (uselessChecks s.foldCase).map Finding.shape = (uselessChecks s).map Finding.shape := by
  unfold uselessChecks
  rw [s.items_foldCase]
  refine map_flatMap_congr fun item _ => ?_
  rw [TableItem.text_foldCase, checks_foldCase]
  refine map_filterMap_congr fun check _ => ?_
  have hexpression : check.foldCase.expression = check.expression.foldCase := rfl
  have hcheck : check.foldCase.offset = check.offset := rfl
  have hoffset : item.foldCase.piece.offset = item.piece.offset := rfl
  rw [hexpression, classifyCheck_foldCase, Option.map_map, Option.map_map, Option.map_map]
  refine congrArg (Option.map · _) (funext fun cls => ?_)
  cases cls <;> simp [uselessCheck, hcheck, hoffset, CheckClass.foldCase, CheckClass.kind, CheckClass.severity]

/-! ### Foreign keys -/

def ForeignKeyUse.foldCase (u : ForeignKeyUse) : ForeignKeyUse :=
  ⟨u.table.foldCase, u.piece.foldCase, u.foreignKey.foldCase⟩

@[simp] theorem ForeignKeyUse.columnSet_foldCase (u : ForeignKeyUse) :
    u.foldCase.columnSet = u.columnSet := rfl

@[simp] theorem ForeignKeyUse.target_foldCase (u : ForeignKeyUse) : u.foldCase.target = u.target := by
  simp [target, foldCase, ForeignKey.foldCase, ForeignKey.tableKey]

theorem Source.foreignKeyUses_foldCase :
    s.foldCase.foreignKeyUses = s.foreignKeyUses.map ForeignKeyUse.foldCase := by
  unfold Source.foreignKeyUses
  rw [s.items_foldCase, List.flatMap_map, List.map_flatMap]
  refine List.flatMap_congr fun item _ => ?_
  rw [TableItem.text_foldCase, foreignKeys_foldCase, List.map_map, List.map_map]
  rfl

theorem shape_foreignKeyConflict? (table table' : String) (first second : ForeignKeyUse) :
    (foreignKeyConflict? s.foldCase table' first.foldCase second.foldCase).map Finding.shape =
      (foreignKeyConflict? s table first second).map Finding.shape := by
  have hspan : ∀ u : ForeignKeyUse, s.foldCase.spanOf u.foldCase.piece = s.spanOf u.piece :=
    fun u => s.spanOf_foldCase u.piece
  have hnote : ∀ u : ForeignKeyUse, (foreignKeyNote s.foldCase u.foldCase).span =
      (foreignKeyNote s u).span := hspan
  unfold foreignKeyConflict?
  dsimp only
  rw [ForeignKeyUse.columnSet_foldCase, ForeignKeyUse.columnSet_foldCase,
    ForeignKeyUse.target_foldCase, ForeignKeyUse.target_foldCase]
  split
  · rfl
  · simp [hspan, hnote]

theorem shape_conflictingPairs (table table' : String) (uses : List ForeignKeyUse) :
    (conflictingPairs s.foldCase table' (uses.map ForeignKeyUse.foldCase)).map Finding.shape =
      (conflictingPairs s table uses).map Finding.shape := by
  induction uses with
  | nil => rfl
  | cons first others ih =>
    rw [List.map_cons, conflictingPairs, conflictingPairs, List.map_append, List.map_append, ih]
    refine congrArg (· ++ _) ?_
    exact map_filterMap_congr fun second _ => shape_foreignKeyConflict? s table table' first second

theorem shape_foreignKeyConflicts :
    (foreignKeyConflicts s.foldCase).map Finding.shape =
      (foreignKeyConflicts s).map Finding.shape := by
  unfold foreignKeyConflicts
  rw [s.foreignKeyUses_foldCase, groupBy_map (fun u => u.table.key_foldCase)]
  exact map_flatMap_congr fun entry _ => shape_conflictingPairs s _ _ entry.2

theorem TableItem.foreignKeys_foldCase (item : TableItem) :
    item.foldCase.foreignKeys = item.foreignKeys.map ForeignKey.foldCase := by
  unfold TableItem.foreignKeys
  rw [TableItem.text_foldCase, Column.ofText?_foldCase, SchemaReview.foreignKeys_foldCase]
  cases Column.ofText? item.piece.text with
  | none => rfl
  | some column =>
    simp only [Option.map_some, Column.reference?_foldCase]
    cases column.reference? <;> rfl

theorem Source.primaryKeyRefs_foldCase : s.foldCase.primaryKeyRefs = s.primaryKeyRefs := by
  unfold Source.primaryKeyRefs
  rw [s.items_foldCase, List.flatMap_map]
  refine List.flatMap_congr fun item _ => ?_
  unfold TableItem.primaryKeyRefs
  rw [TableItem.text_foldCase, Column.ofText?_foldCase, primaryKeyColumns?_foldCase,
    TableItem.key_foldCase]
  cases Column.ofText? item.piece.text with
  | none => rfl
  | some column =>
    simp only [Option.map_some, Column.isPrimaryKey_foldCase, Column.key_foldCase]

theorem ForeignKeyEnds.ofForeignKey_foldCase (tableKey : String) (fk : ForeignKey) :
    ofForeignKey tableKey fk.foldCase = ofForeignKey tableKey fk := by
  unfold ofForeignKey
  rw [ForeignKey.tableKey_foldCase]
  rfl

theorem Source.foreignKeyEnds_foldCase (hdollar : '$' ∉ s.text) :
    s.foldCase.foreignKeyEnds = s.foreignKeyEnds := by
  unfold Source.foreignKeyEnds
  rw [s.items_foldCase, Source.addedForeignKeys_foldCase hdollar, List.flatMap_map, List.map_map]
  refine congrArg ForeignKeyEnds.join (congrArg₂ (· ++ ·) ?_ ?_)
  · refine List.flatMap_congr fun item _ => ?_
    rw [TableItem.foreignKeys_foldCase, List.map_map, TableItem.key_foldCase]
    exact List.map_congr_left fun fk _ => ForeignKeyEnds.ofForeignKey_foldCase _ fk
  · refine List.map_congr_left fun a _ => ?_
    have htable : nameKey a.foldCase.table = nameKey a.table := nameKey_foldString a.table
    rw [Function.comp_apply, htable]
    exact ForeignKeyEnds.ofForeignKey_foldCase _ a.foreignKey

theorem Source.plainColumns_foldCase :
    s.foldCase.plainColumns = s.plainColumns.map DeclaredColumn.foldCase := by
  have hplain : ((fun c : DeclaredColumn => !mentionsConstraint c.piece.text) ∘
      DeclaredColumn.foldCase) = fun c => !mentionsConstraint c.piece.text := by
    funext c
    simp [DeclaredColumn.foldCase, Piece.foldCase]
  unfold Source.plainColumns
  rw [s.columns_foldCase, List.filter_map, hplain]

theorem shape_undefinedRelation? (primary : List ColumnRef) (ends : ForeignKeyEnds) (column : String)
    (uses : List DeclaredColumn) :
    (undefinedRelation? s.foldCase primary ends column
        (uses.map DeclaredColumn.foldCase)).map Finding.shape =
      (undefinedRelation? s primary ends column uses).map Finding.shape := by
  have hkeys : (uses.map DeclaredColumn.foldCase).map (·.table.key) = uses.map (·.table.key) := by
    rw [List.map_map]
    exact List.map_congr_left fun c _ => c.table.key_foldCase
  have hspan : ∀ c : DeclaredColumn, s.foldCase.spanOf c.foldCase.piece = s.spanOf c.piece :=
    fun c => s.spanOf_foldCase c.piece
  unfold undefinedRelation?
  dsimp only
  rw [hkeys]
  cases uses with
  | nil => rfl
  | cons first others =>
    simp only [List.map_cons]
    split
    · rfl
    · simp [hspan, Function.comp_def]

theorem shape_undefinedRelations (hdollar : '$' ∉ s.text) :
    (undefinedRelations s.foldCase).map Finding.shape =
      (undefinedRelations s).map Finding.shape := by
  have hkey : ∀ c : DeclaredColumn, (c.foldCase.column.key, c.foldCase.column.type.key) =
      (c.column.key, c.column.type.key) := by
    intro c
    simp only [DeclaredColumn.foldCase, Column.key_foldCase]
    exact congrArg (Prod.mk _) c.column.type.key_foldCase
  unfold undefinedRelations
  dsimp only
  rw [s.primaryKeyRefs_foldCase, s.foreignKeyEnds_foldCase hdollar, s.plainColumns_foldCase,
    groupBy_map hkey]
  exact map_filterMap_congr fun entry _ => shape_undefinedRelation? s _ _ entry.1.1 entry.2

def Relation.foldCase (r : Relation) : Relation :=
  { r with fromTable := foldString r.fromTable, toTable := foldString r.toTable }

theorem Relation.pair_foldCase (r : Relation) : r.foldCase.pair = r.pair := by
  simp [pair, foldCase]

theorem relationsOf_foldCase (item : TableItem) :
    relationsOf s.foldCase item.foldCase = (relationsOf s item).map Relation.foldCase := by
  unfold relationsOf
  rw [TableItem.text_foldCase, foreignKeys_foldCase, List.filterMap_map, List.map_filterMap]
  refine List.filterMap_congr fun fk _ => ?_
  have hoffset : item.foldCase.piece.offset = item.piece.offset := rfl
  simp only [Function.comp_apply, ForeignKey.foldCase, Source.spanAt_foldCase, hoffset]
  split <;> rfl

theorem Source.relations_foldCase : s.foldCase.relations = s.relations.map Relation.foldCase := by
  unfold Source.relations
  rw [s.itemsIn_foldCase, List.flatMap_map, List.map_flatMap]
  exact List.flatMap_congr fun item _ => relationsOf_foldCase s item

theorem shape_mutualReference? (relations : List Relation) :
    (mutualReference? (relations.map Relation.foldCase)).map Finding.shape =
      (mutualReference? relations).map Finding.shape := by
  match relations with
  | [] => rfl
  | [_] => rfl
  | _ :: _ :: _ :: _ => rfl
  | [first, second] =>
    have hfrom : ∀ r : Relation, nameKey r.foldCase.fromTable = nameKey r.fromTable :=
      fun r => nameKey_foldString r.fromTable
    have hcolumn : ∀ r : Relation, r.foldCase.fromColumn = r.fromColumn := fun _ => rfl
    have hspan : ∀ r : Relation, r.foldCase.span = r.span := fun _ => rfl
    have hnote : ∀ r : Relation, r.foldCase.note.span = r.note.span := fun _ => rfl
    simp only [List.map_cons, List.map_nil, mutualReference?, hfrom]
    split
    · rfl
    · simp [hcolumn, hspan, hnote]

theorem shape_mutualReferences :
    (mutualReferences s.foldCase).map Finding.shape = (mutualReferences s).map Finding.shape := by
  unfold mutualReferences
  rw [s.relations_foldCase, groupBy_map Relation.pair_foldCase]
  exact map_filterMap_congr fun entry _ => shape_mutualReference? entry.2

def SelfReference.foldCase (r : SelfReference) : SelfReference := { r with table := r.table.foldCase }

theorem allForeignKeys_foldCase (item : TableItem) :
    allForeignKeys item.foldCase = (allForeignKeys item).map ForeignKey.foldCase := by
  unfold allForeignKeys
  rw [TableItem.text_foldCase, foreignKeys_foldCase, Column.ofText?_foldCase, List.map_append]
  refine congrArg₂ (· ++ ·) rfl ?_
  cases Column.ofText? item.piece.text with
  | none => rfl
  | some column =>
    simp only [Option.map_some, Column.reference?_foldCase]
    cases column.reference? <;> rfl

theorem selfReferencesOf_foldCase (item : TableItem) :
    selfReferencesOf s.foldCase item.foldCase =
      (selfReferencesOf s item).map SelfReference.foldCase := by
  have hown : ((fun fk : ForeignKey => decide (fk.tableKey = item.table.key)) ∘ ForeignKey.foldCase) =
      fun fk => decide (fk.tableKey = item.table.key) := by
    funext fk
    rw [Function.comp_apply, ForeignKey.tableKey_foldCase]
  have hoffset : item.foldCase.piece.offset = item.piece.offset := rfl
  unfold selfReferencesOf
  rw [allForeignKeys_foldCase, TableItem.key_foldCase, List.filter_map, hown, List.flatMap_map,
    List.map_flatMap]
  refine List.flatMap_congr fun fk _ => ?_
  rw [hoffset, Source.spanAt_foldCase, List.map_map]
  rfl

theorem declaredNotNull_foldCase (columns : List DeclaredColumn) (tableKey columnKey : String) :
    declaredNotNull (columns.map DeclaredColumn.foldCase) tableKey columnKey =
      declaredNotNull columns tableKey columnKey := by
  rw [declaredNotNull_eq_any, declaredNotNull_eq_any, List.any_map]
  refine congrArg columns.any (funext fun c => ?_)
  have htable : c.foldCase.table.key = c.table.key := c.table.key_foldCase
  have hcolumn : c.foldCase.column.key = c.column.key := c.column.key_foldCase
  have hnull : c.foldCase.column.isNotNull = c.column.isNotNull := c.column.isNotNull_foldCase
  rw [Function.comp_apply, htable, hcolumn, hnull]

theorem shape_selfReferences :
    (selfReferences s.foldCase).map Finding.shape = (selfReferences s).map Finding.shape := by
  have hnull : ((fun r : SelfReference => declaredNotNull s.columns r.table.key r.columnKey) ∘
      SelfReference.foldCase) = fun r => declaredNotNull s.columns r.table.key r.columnKey := by
    funext r
    have htable : r.foldCase.table.key = r.table.key := r.table.key_foldCase
    rw [Function.comp_apply, htable]
    rfl
  have hreferences : (s.items.map TableItem.foldCase).flatMap (selfReferencesOf s.foldCase) =
      (s.items.flatMap (selfReferencesOf s)).map SelfReference.foldCase := by
    rw [List.flatMap_map, List.map_flatMap]
    exact List.flatMap_congr fun item _ => selfReferencesOf_foldCase s item
  unfold selfReferences
  simp only [s.columns_foldCase, s.items_foldCase, declaredNotNull_foldCase, hreferences,
    List.filter_map, hnull]
  exact map_map_congr fun r _ => by simp [selfReferenceFinding, SelfReference.foldCase]

/-! ### Cascades -/

def CascadeEdge.foldCase (e : CascadeEdge) : CascadeEdge :=
  { e with fromTable := foldString e.fromTable, toTable := foldString e.toTable }

theorem cascadeEdgesOf_foldCase (statement : Statement) :
    cascadeEdgesOf statement.foldCase = (cascadeEdgesOf statement).map CascadeEdge.foldCase := by
  have htext : statement.foldCase.text = statement.text.foldCase := rfl
  have hoffset : statement.foldCase.offset = statement.offset := rfl
  have htable : ((TableHeader.find? statement.text.foldCase 0).map (·.name) <|>
      alteredTable? statement.text.foldCase) =
      ((TableHeader.find? statement.text 0).map (·.name) <|>
        alteredTable? statement.text).map foldString := by
    rw [TableHeader.find?_foldCase, alteredTable?_foldCase]
    cases TableHeader.find? statement.text 0 <;> rfl
  unfold cascadeEdgesOf
  rw [htext, hoffset, htable, references_foldCase]
  cases ((TableHeader.find? statement.text 0).map (·.name) <|> alteredTable? statement.text) with
  | none => rfl
  | some table =>
    have hcascades : ((fun r : Reference => r.cascades) ∘ Reference.foldCase) = fun r => r.cascades :=
      rfl
    simp only [Option.map_some, List.filter_map, hcascades, List.map_map]
    rfl

theorem Source.cascadeGraph_foldCase (hdollar : '$' ∉ s.text) :
    s.foldCase.cascadeGraph = s.cascadeGraph.map CascadeEdge.foldCase := by
  unfold Source.cascadeGraph
  rw [Source.statements_foldCase hdollar, List.flatMap_map, List.map_flatMap]
  exact List.flatMap_congr fun statement _ => cascadeEdgesOf_foldCase statement

namespace CascadeGraph

variable (g : CascadeGraph)

theorem arrows_foldCase : arrows (g.map CascadeEdge.foldCase) = g.arrows := by
  unfold arrows
  rw [List.map_map]
  refine List.map_congr_left fun e _ => ?_
  simp [CascadeEdge.fromKey, CascadeEdge.toKey, CascadeEdge.foldCase]

theorem nodes_foldCase : nodes (g.map CascadeEdge.foldCase) = g.nodes := by
  unfold nodes tableNames
  rw [List.flatMap_map, List.map_flatMap, List.map_flatMap]
  refine congrArg distinct (List.flatMap_congr fun e _ => ?_)
  simp [CascadeEdge.foldCase]

theorem firstCycle?_foldCase : firstCycle? (g.map CascadeEdge.foldCase) = g.firstCycle? := by
  unfold firstCycle?
  rw [arrows_foldCase, nodes_foldCase]

theorem edgeOffset?_foldCase (source target : String) :
    edgeOffset? (g.map CascadeEdge.foldCase) source target = g.edgeOffset? source target := by
  have hedge : ((fun e : CascadeEdge => decide (e.fromKey = source ∧ e.toKey = target)) ∘
      CascadeEdge.foldCase) = fun e => decide (e.fromKey = source ∧ e.toKey = target) := by
    funext e
    have hfrom : e.foldCase.fromKey = e.fromKey := nameKey_foldString e.fromTable
    have hto : e.foldCase.toKey = e.toKey := nameKey_foldString e.toTable
    rw [Function.comp_apply, hfrom, hto]
  unfold edgeOffset?
  rw [List.find?_map, hedge, Option.map_map]
  rfl

end CascadeGraph

theorem shape_cascadeFinding (g : CascadeGraph) (cycle : List String) :
    (cascadeFinding s.foldCase (g.map CascadeEdge.foldCase) cycle).shape =
      (cascadeFinding s g cycle).shape := by
  have hnotes : ∀ edges : List (String × String),
      (edges.filterMap (cascadeNote? s.foldCase (g.map CascadeEdge.foldCase))).map Note.span =
        (edges.filterMap (cascadeNote? s g)).map Note.span := by
    intro edges
    rw [List.map_filterMap, List.map_filterMap]
    refine List.filterMap_congr fun edge _ => ?_
    simp only [cascadeNote?, CascadeGraph.edgeOffset?_foldCase, Source.spanAt_foldCase,
      Option.map_map]
    rfl
  unfold cascadeFinding
  simp only [Finding.shape_withHelp, Finding.shape_withNotes, ← List.head?_map, hnotes]
  rfl

theorem shape_cascadeCycles (hdollar : '$' ∉ s.text) :
    (cascadeCycles s.foldCase).map Finding.shape = (cascadeCycles s).map Finding.shape := by
  unfold cascadeCycles
  dsimp only
  rw [s.cascadeGraph_foldCase hdollar, CascadeGraph.firstCycle?_foldCase]
  cases s.cascadeGraph.firstCycle? with
  | none => rfl
  | some cycle => exact congrArg ([·]) (shape_cascadeFinding s s.cascadeGraph cycle)

end

/-! ## All detectors -/

theorem Detector.shape_find_foldCase (d : Detector) {s : Source} (hdollar : '$' ∉ s.text) :
    (d.find s.foldCase).map Finding.shape = (d.find s).map Finding.shape := by
  cases d with
  | conflictingTypes => exact shape_typeConflicts s
  | defaultValueConflict => exact shape_defaultConflicts s
  | reservedWords => exact shape_reservedWordColumns s
  | nullPrimaryKey => exact shape_nullableKeys s
  | indexAnomalies => exact shape_indexAnomalies s
  | redundantUniqueIndex => exact shape_redundantIndexes s
  | tablesWithoutRelations => exact shape_isolatedTables s hdollar
  | missingPotentialKeys => exact shape_missingKeys s
  | unnecessaryIndexes => exact shape_unnecessaryIndexes s
  | wrongAlternateKey => exact shape_missingAlternates s
  | unnecessaryCheckConstraints => exact shape_uselessChecks s
  | unnecessaryForeignKeys => exact shape_foreignKeyConflicts s
  | undefinedRelations => exact shape_undefinedRelations s hdollar
  | overlappingRelations => exact shape_mutualReferences s
  | incorrectRecursiveRelation => exact shape_selfReferences s
  | infiniteDeleteCascade => exact shape_cascadeCycles s hdollar

theorem Detector.shape_run_foldString (d : Detector) {sql : String} (hdollar : '$' ∉ sql.toList) :
    (d.run (foldString sql)).map Finding.shape = (d.run sql).map Finding.shape := by
  have hmasked : '$' ∉ (Source.ofString sql).text :=
    fun h => hdollar (mem_of_mem_maskComments (by decide) h)
  have hsource : Source.ofString (foldString sql) = (Source.ofString sql).foldCase := by
    rw [Source.ofString, toList_foldString, Source.ofText_foldCase]
    rfl
  rw [Detector.run, hsource]
  exact d.shape_find_foldCase hmasked

/-- **Detectors do not see the case of ASCII letters.**  In scripts without dollar signs that are the
same up to case, each detector finds the same things in the same order: kinds, severities, spans,
columns and the spans of all notes agree. -/
theorem run_eq_of_equalsIgnoringCase {sql sql' : String} (hdollar : '$' ∉ sql.toList)
    (hcase : Text.equalsIgnoringCase sql.toList sql'.toList = true) (d : Detector) :
    (d.run sql).map Finding.shape = (d.run sql').map Finding.shape := by
  rw [Text.equalsIgnoringCase_eq, beq_iff_eq] at hcase
  have hdollar' : '$' ∉ sql'.toList := by
    rw [← mem_foldCase_iff (by decide), ← hcase, mem_foldCase_iff (by decide)]
    exact hdollar
  have hfold : foldString sql = foldString sql' := by
    rw [foldString, foldString, hcase]
  rw [← d.shape_run_foldString hdollar, hfold, d.shape_run_foldString hdollar']

/-- A primary key column that allows null values, in capitals and in small letters. -/
theorem run_eq_of_equalsIgnoringCase_nullableKey :
    '$' ∉ "CREATE TABLE Orders (Id INT, PRIMARY KEY (ID));".toList ∧
    Text.equalsIgnoringCase "CREATE TABLE Orders (Id INT, PRIMARY KEY (ID));".toList
      "create table orders (ID int, primary key (id));".toList = true ∧
    Detector.nullPrimaryKey.run "CREATE TABLE Orders (Id INT, PRIMARY KEY (ID));" ≠ [] ∧
    (Detector.nullPrimaryKey.run "CREATE TABLE Orders (Id INT, PRIMARY KEY (ID));").map
        Finding.shape =
      (Detector.nullPrimaryKey.run "create table orders (ID int, primary key (id));").map
        Finding.shape :=
  ⟨by decide, by decide, by decide +kernel,
    run_eq_of_equalsIgnoringCase (by decide) (by decide) .nullPrimaryKey⟩

end SchemaReview
