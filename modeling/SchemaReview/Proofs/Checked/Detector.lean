import SchemaReview.Proofs.Checked.Scan
import SchemaReview.Proofs.Detector.Spans

/-!
# Proofs.Checked.Detector — detectors with checked slices and look-ups

`Checked.run d sql` runs a detector so that every slice of a text, every look-up by number and every span is
checked, and gives nothing as soon as one of them is refused.

* `Checked.find_eq`: no check is ever refused, and the findings are those of the detector without checks.
* `run_checked_and_located`: so it is for every script, and each span in a finding says where something
  stands in the script.
-/

namespace SchemaReview

open Text

namespace Checked

/-! ## Spans -/

section

variable {s : Source}

theorem spanAt_eq {offset length : Nat} (h : s.text.Shows offset length) :
    spanAt s offset length = some (s.spanAt offset length) := (Source.places_spanAt h).checked

/-- Takes the spans of a finding again, checked. -/
def locate (s : Source) (f : Finding) : Option Finding := do
  let span ← f.span.mapM fun p => spanAt s p.offset p.length
  let notes ← f.notes.mapM fun n => do
    let span ← spanAt s n.span.offset n.span.length
    return { n with span }
  return { f with span, notes }

theorem locate_eq {f : Finding} (h : f.Placed s) : locate s f = some f := by
  have hspan : f.span.mapM (fun p => spanAt s p.offset p.length) = some f.span := by
    cases hp : f.span with
    | none => rfl
    | some p =>
      rw [Option.mapM_some, (h.span p hp).checked]
      rfl
  have hnotes : f.notes.mapM (fun n => do
      let span ← spanAt s n.span.offset n.span.length
      return ({ n with span } : Note)) = some (f.notes.map id) := by
    refine mapM_eq_some fun n hn => ?_
    rw [(h.notes n hn).checked]
    rfl
  rw [locate, hspan, hnotes, List.map_id]
  rfl

/-- Takes the spans of several findings again, checked. -/
def locateAll (s : Source) (found : List Finding) : Option (List Finding) := found.mapM (locate s)

theorem locateAll_eq {found : List Finding} (h : ∀ f ∈ found, f.Placed s) :
    locateAll s found = some found := by
  have hall := mapM_eq_some fun f hf => locate_eq (h f hf)
  rwa [List.map_id'] at hall

end

/-! ## Items, tables and columns -/

section

variable (s : Source)

/-- The items of all table bodies. -/
def itemsIn (mode : ScopeMode) : Option (List TableItem) := do
  let events ← scopeEvents s mode
  return events.filterMap ScopeEvent.item?

@[simp] theorem itemsIn_eq (mode : ScopeMode) : itemsIn s mode = some (s.itemsIn mode) := by
  rw [itemsIn, scopeEvents_eq]
  rfl

/-- The items of all table bodies, where a header inside a body replaces the table. -/
def items : Option (List TableItem) := itemsIn s .replace

@[simp] theorem items_eq : items s = some s.items := itemsIn_eq s .replace

/-- The declared tables. -/
def tables : Option (List TableDecl) := do
  let events ← scopeEvents s .replace
  return events.filterMap ScopeEvent.opened?

@[simp] theorem tables_eq : tables s = some s.tables := by
  rw [tables, scopeEvents_eq]
  rfl

/-- The column definitions. -/
def columns : Option (List DeclaredColumn) := do
  let items ← items s
  items.filterMapM fun item => do
    let column ← column item.piece.text
    return column.map fun c => ⟨item.table, item.piece, c⟩

@[simp] theorem columns_eq : columns s = some s.columns := by
  rw [columns, items_eq]
  refine filterMapM_eq_some fun item _ => ?_
  rw [column_eq]
  rfl

/-- The items of all table bodies, each of which can be read as a column. -/
def readItems : Option (List TableItem) := do
  let items ← items s
  let _ ← items.mapM fun item => column item.piece.text
  return items

@[simp] theorem readItems_eq : readItems s = some s.items := by
  have hcolumns : s.items.mapM (fun item => column item.piece.text) = some _ :=
    mapM_eq_some fun item _ => column_eq item.piece.text
  rw [readItems, items_eq]
  simp only [Option.bind_eq_bind, Option.bind_some, hcolumns]
  rfl

/-- The keys of every declared table. -/
def tableKeys : Option (List TableKeys) := do
  let tables ← tables s
  let items ← readItems s
  (firstBy TableDecl.key tables).mapM fun table => do
    let span ← spanAt s table.offset 0
    return { s.keysOf (items.map fun item => (item.table.key, item)) table with span }

@[simp] theorem tableKeys_eq : tableKeys s = some s.tableKeys := by
  rw [tableKeys, tables_eq, readItems_eq]
  refine mapM_eq_some fun table htable => ?_
  rw [spanAt_eq (Source.shows_table (mem_of_mem_firstBy _ htable))]
  rfl

/-- The foreign keys that one statement adds. -/
def addedBy (statement : Statement) : Option (List AddedForeignKey) :=
  match alteredTable? statement.text with
  | none => some []
  | some table => do
    let found ← foreignKeys statement.text
    return found.map fun fk => ⟨table, s.lineOf (statement.offset + fk.offset), fk⟩

/-- The foreign keys added by `ALTER TABLE` statements. -/
def addedForeignKeys : Option (List AddedForeignKey) := do
  let statements ← statements s
  statements.flatMapM (addedBy s)

@[simp] theorem addedForeignKeys_eq : addedForeignKeys s = some s.addedForeignKeys := by
  rw [addedForeignKeys, statements_eq]
  refine flatMapM_eq_some fun statement _ => ?_
  unfold addedBy Source.addedBy
  cases alteredTable? statement.text with
  | none => rfl
  | some table =>
    simp only [foreignKeys_eq]
    rfl

/-! ## Detectors of columns and keys -/

/-- Columns declared with different types.  Each definition gets a span, whether its type conflicts or not. -/
def typeConflicts : Option (List Finding) := do
  let columns ← columns s
  let _ ← columns.mapM fun c => spanAt s c.piece.offset c.column.name.utf8ByteSize
  locateAll s <| (groupBy (fun c => c.column.key) columns).filterMap fun (key, uses) =>
    typeConflict? s key uses

theorem typeConflicts_eq : typeConflicts s = some (SchemaReview.typeConflicts s) := by
  have hspans : s.columns.mapM (fun c => spanAt s c.piece.offset c.column.name.utf8ByteSize) = some _ :=
    mapM_eq_some fun c hc => spanAt_eq (Source.shows_columnName hc)
  rw [typeConflicts, columns_eq]
  simp only [Option.bind_eq_bind, Option.bind_some, hspans]
  exact locateAll_eq fun f hf => (reported_of_mem_typeConflicts hf).placed

/-- Default values that do not fit the declared type.  Each value is judged, also where nothing is found. -/
def defaultConflicts : Option (List Finding) := do
  let columns ← columns s
  let found ← columns.filterMapM fun c => do
    let _ ← c.column.default?.mapM (defaultMisfit c.column.type)
    return defaultConflict? s c
  locateAll s found

theorem defaultConflicts_eq : defaultConflicts s = some (SchemaReview.defaultConflicts s) := by
  have hfound : s.columns.filterMapM (fun c => do
      let _ ← c.column.default?.mapM (defaultMisfit c.column.type)
      return defaultConflict? s c) = some (SchemaReview.defaultConflicts s) := by
    refine filterMapM_eq_some fun c _ => ?_
    cases c.column.default? with
    | none => rfl
    | some raw =>
      rw [Option.mapM_some, defaultMisfit_eq]
      rfl
  rw [defaultConflicts, columns_eq]
  simp only [Option.bind_eq_bind, Option.bind_some] at hfound ⊢
  rw [hfound]
  exact locateAll_eq fun f hf => (reported_of_mem_defaultConflicts hf).placed

/-- Columns named with a reserved word. -/
def reservedWordColumns : Option (List Finding) := do
  let columns ← columns s
  let named := columns.filter fun c => !c.column.quoted && isReservedWord c.column.name.toList
  locateAll s <| (firstBy (fun c => (c.table.key, c.column.key)) named).map (reservedWordFinding s)

theorem reservedWordColumns_eq : reservedWordColumns s = some (SchemaReview.reservedWordColumns s) := by
  rw [reservedWordColumns, columns_eq]
  exact locateAll_eq fun f hf => (reported_of_mem_reservedWordColumns hf).placed

/-- Primary key columns that allow null values. -/
def nullableKeys : Option (List Finding) := do
  let items ← readItems s
  locateAll s (nullableKeysFrom s [] items)

theorem nullableKeys_eq : nullableKeys s = some (SchemaReview.nullableKeys s) := by
  rw [nullableKeys, readItems_eq]
  exact locateAll_eq fun f hf => (reported_of_mem_nullableKeys hf).placed

/-- Tables without any guarantee that rows are unique. -/
def missingKeys : Option (List Finding) := do
  let keys ← tableKeys s
  return (keys.filter (lacksKey s.indexes)).map missingKey

theorem missingKeys_eq : missingKeys s = some (SchemaReview.missingKeys s) := by
  rw [missingKeys, tableKeys_eq]
  rfl

/-- Tables whose primary key is one surrogate column and that have no other key. -/
def missingAlternates : Option (List Finding) := do
  let keys ← tableKeys s
  return keys.filterMap fun t =>
    match t.primaryKey with
    | [column] =>
      if isSurrogateKey column.toList && !hasAlternateKey s.indexes t then some (missingAlternate t column)
      else none
    | _ => none

theorem missingAlternates_eq : missingAlternates s = some (SchemaReview.missingAlternates s) := by
  rw [missingAlternates, tableKeys_eq]
  rfl

/-- Keys of the tables that take part in a foreign key. -/
def relatedTables : Option (List String) := do
  let items ← items s
  let inside ← items.flatMapM fun item => do
    let found ← references item.piece.text
    return found.flatMap fun r => [item.table.key, nameKey r.table]
  let added ← addedForeignKeys s
  return inside ++ added.flatMap fun a => [nameKey a.table, a.foreignKey.tableKey]

theorem relatedTables_eq : relatedTables s = some (SchemaReview.relatedTables s) := by
  simp only [relatedTables, items_eq, addedForeignKeys_eq, references_eq, Option.bind_eq_bind,
    Option.bind_some, Option.pure_def]
  rw [flatMapM_eq_some fun item _ => rfl]
  rfl

/-- Tables that take part in no foreign key. -/
def isolatedTables : Option (List Finding) := do
  let related ← relatedTables s
  let tables ← tables s
  locateAll s <| (firstBy TableDecl.key (tables.filter fun t => t.key ∉ related)).map (isolatedTable s)

theorem isolatedTables_eq : isolatedTables s = some (SchemaReview.isolatedTables s) := by
  rw [isolatedTables, relatedTables_eq, tables_eq]
  exact locateAll_eq fun f hf => (reported_of_mem_isolatedTables hf).placed

/-! ## Detectors of indexes and checks -/

/-- Indexes that contain a key and more.  Each index gets a span, whether it does or not. -/
def indexAnomalies : Option (List Finding) := do
  let keys ← tableKeys s
  let _ ← s.indexes.mapM fun i => spanAt s i.offset 0
  locateAll s <| s.indexes.flatMap fun i =>
    match Source.keysFor? keys i.tableKey with
    | some t => indexAnomaly s t i
    | none => []

theorem indexAnomalies_eq : indexAnomalies s = some (SchemaReview.indexAnomalies s) := by
  have hspans : s.indexes.mapM (fun i => spanAt s i.offset 0) = some _ :=
    mapM_eq_some fun i hi => spanAt_eq (Source.shows_index hi)
  rw [indexAnomalies, tableKeys_eq]
  simp only [Option.bind_eq_bind, Option.bind_some, hspans]
  exact locateAll_eq fun f hf => (reported_of_mem_indexAnomalies hf).placed

/-- Unique indexes whose columns are exactly the primary key. -/
def redundantIndexes : Option (List Finding) := do
  let keys ← tableKeys s
  locateAll s <| (s.indexes.filter (·.unique)).filterMap fun i =>
    match Source.keysFor? keys i.tableKey with
    | some t =>
      if !t.primaryKey.isEmpty && decide (sortedSet i.columns = sortedSet t.primaryKey) then
        some (redundantIndex s t i)
      else none
    | none => none

theorem redundantIndexes_eq : redundantIndexes s = some (SchemaReview.redundantIndexes s) := by
  rw [redundantIndexes, tableKeys_eq]
  exact locateAll_eq fun f hf => (reported_of_mem_redundantIndexes hf).placed

/-- The columns that checks pin to one value. -/
def constantColumns : Option (List ConstantColumn) := do
  let items ← items s
  items.flatMapM fun item => do
    let found ← checks item.piece.text
    return found.filterMap fun check =>
      (constantColumn? check.expression).map fun column =>
        ⟨item.table.key, nameKey column, s.lineOf (item.piece.offset + check.offset)⟩

theorem constantColumns_eq : constantColumns s = some s.constantColumns := by
  rw [constantColumns, items_eq]
  refine flatMapM_eq_some fun item _ => ?_
  rw [checks_eq]
  rfl

/-- Indexes that cannot help. -/
def unnecessaryIndexes : Option (List Finding) := do
  let keys ← tableKeys s
  let constants ← constantColumns s
  let indexes := s.indexes
  locateAll s <|
    (constants.flatMap fun c =>
      (indexes.filter fun i => decide (i.tableKey = c.tableKey) && i.columns.contains c.columnKey).map
        (constantIndex s c)) ++
    indexes.filterMap fun i =>
      ((coveringBases keys indexes i.tableKey).find? fun base =>
        strictlyCovers (sortedSet i.columns) base.2).map (supersetIndex s i)

theorem unnecessaryIndexes_eq : unnecessaryIndexes s = some (SchemaReview.unnecessaryIndexes s) := by
  rw [unnecessaryIndexes, tableKeys_eq, constantColumns_eq]
  exact locateAll_eq fun f hf => (reported_of_mem_unnecessaryIndexes hf).placed

/-- Checks that restrict nothing or always fail. -/
def uselessChecks : Option (List Finding) := do
  let items ← items s
  let found ← items.flatMapM fun item => do
    let found ← checks item.piece.text
    found.filterMapM fun check => do
      let cls ← classify check.expression
      return cls.map (uselessCheck s item check)
  locateAll s found

theorem uselessChecks_eq : uselessChecks s = some (SchemaReview.uselessChecks s) := by
  have hitem : ∀ item : TableItem, (SchemaReview.checks item.piece.text).filterMapM (fun check =>
      some ((classifyCheck check.expression).map (uselessCheck s item check))) = some _ :=
    fun item => filterMapM_eq_some fun check _ => rfl
  simp only [uselessChecks, items_eq, checks_eq, classify_eq, Option.bind_eq_bind, Option.bind_some,
    Option.pure_def, hitem]
  rw [flatMapM_eq_some fun item _ => rfl]
  exact locateAll_eq fun f hf => (reported_of_mem_uselessChecks hf).placed

/-! ## Detectors of relations -/

/-- The members from position `n` on, which may not be behind the end. -/
def from? {α : Type} (xs : List α) (n : Nat) : Option (List α) :=
  if n ≤ xs.length then some (xs.drop n) else none

theorem from?_eq {α : Type} {xs : List α} {n : Nat} (h : n ≤ xs.length) : from? xs n = some (xs.drop n) :=
  if_pos h

/-- The findings for the pairs of `uses` whose first member is at position `i` or later. -/
def pairsFrom (table : String) (uses : List ForeignKeyUse) (i : Nat) :
    List ForeignKeyUse → Option (List Finding)
  | [] => some []
  | first :: others => do
    let behind ← from? uses (i + 1)
    let later ← pairsFrom table uses (i + 1) others
    return behind.filterMap (foreignKeyConflict? s table first) ++ later

theorem pairsFrom_eq (table : String) {uses rest : List ForeignKeyUse} {i : Nat} (h : uses.drop i = rest) :
    pairsFrom s table uses i rest = some (conflictingPairs s table rest) := by
  induction rest generalizing i with
  | nil => rfl
  | cons first others ih =>
    have hnext : uses.drop (i + 1) = others := by
      rw [← List.drop_drop, h]
      rfl
    have hle : i + 1 ≤ uses.length := by
      have hlength := congrArg List.length h
      rw [List.length_drop, List.length_cons] at hlength
      omega
    rw [pairsFrom, from?_eq hle, ih hnext, hnext]
    rfl

/-- The findings for all pairs. -/
def pairs (table : String) (uses : List ForeignKeyUse) : Option (List Finding) :=
  pairsFrom s table uses 0 uses

theorem pairs_eq (table : String) (uses : List ForeignKeyUse) :
    pairs s table uses = some (conflictingPairs s table uses) := pairsFrom_eq s table rfl

/-- Pairs of foreign keys of one table that share columns but have different targets. -/
def foreignKeyConflicts : Option (List Finding) := do
  let items ← items s
  let uses ← items.flatMapM fun item => do
    let found ← foreignKeys item.piece.text
    return found.map fun fk => (⟨item.table, item.piece, fk⟩ : ForeignKeyUse)
  let found ← (groupBy (fun u => u.table.key) uses).flatMapM fun (_, uses) =>
    pairs s ((uses.head?.map (·.table.name)).getD "") uses
  locateAll s found

theorem foreignKeyConflicts_eq : foreignKeyConflicts s = some (SchemaReview.foreignKeyConflicts s) := by
  simp only [foreignKeyConflicts, items_eq, foreignKeys_eq, Option.bind_eq_bind, Option.bind_some,
    Option.pure_def, pairs_eq]
  rw [flatMapM_eq_some fun item _ => rfl, Option.bind_some, flatMapM_eq_some fun entry _ => rfl]
  exact locateAll_eq fun f hf => (reported_of_mem_foreignKeyConflicts hf).placed

/-- The one-column relations of an item.  Each foreign key gets a span, however many columns it has. -/
def relationsOf (item : TableItem) : Option (List Relation) := do
  let found ← foreignKeys item.piece.text
  found.filterMapM fun fk => do
    let span ← spanAt s (item.piece.offset + fk.offset) 0
    return match fk.columns, fk.targets with
      | [fromColumn], [toColumn] => some ⟨item.table.name, fromColumn, fk.table, toColumn, span⟩
      | _, _ => none

/-- Pairs of tables that reference each other. -/
def mutualReferences : Option (List Finding) := do
  let items ← itemsIn s .nested
  let relations ← items.flatMapM (relationsOf s)
  return (groupBy Relation.pair relations).filterMap fun (_, relations) => mutualReference? relations

variable {s} in
theorem relationsOf_eq {item : TableItem} (h : item ∈ s.itemsIn .nested) :
    relationsOf s item = some (SchemaReview.relationsOf s item) := by
  rw [relationsOf, foreignKeys_eq]
  refine filterMapM_eq_some fun fk hfk => ?_
  rw [spanAt_eq (Source.shows_clause h (shows_of_mem_foreignKeys hfk))]
  rfl

theorem mutualReferences_eq : mutualReferences s = some (SchemaReview.mutualReferences s) := by
  have hrelations : (s.itemsIn .nested).flatMapM (relationsOf s) = some s.relations :=
    flatMapM_eq_some fun item hitem => relationsOf_eq hitem
  rw [mutualReferences, itemsIn_eq]
  simp only [Option.bind_eq_bind, Option.bind_some, hrelations]
  rfl

/-- The foreign keys of an item: the inline one of a column, or the table-level ones. -/
def itemForeignKeys (item : TableItem) : Option (List ForeignKey) := do
  let some column ← column item.piece.text | foreignKeys item.piece.text
  let found ← inlineReference column
  return found.toList

@[simp] theorem itemForeignKeys_eq (item : TableItem) : itemForeignKeys item = some item.foreignKeys := by
  rw [itemForeignKeys, TableItem.foreignKeys, column_eq]
  cases Column.ofText? item.piece.text with
  | none => exact foreignKeys_eq _
  | some column =>
    simp only [Option.bind_eq_bind, Option.bind_some, inlineReference_eq]
    rfl

/-- The ends of all declared foreign keys. -/
def foreignKeyEnds : Option ForeignKeyEnds := do
  let items ← items s
  let declared ← items.flatMapM fun item => do
    let found ← itemForeignKeys item
    return found.map (ForeignKeyEnds.ofForeignKey item.table.key)
  let added ← addedForeignKeys s
  return .join <|
    declared ++ added.map fun a => ForeignKeyEnds.ofForeignKey (nameKey a.table) a.foreignKey

theorem foreignKeyEnds_eq : foreignKeyEnds s = some s.foreignKeyEnds := by
  simp only [foreignKeyEnds, items_eq, itemForeignKeys_eq, addedForeignKeys_eq, Option.bind_eq_bind,
    Option.bind_some, Option.pure_def]
  rw [flatMapM_eq_some fun item _ => rfl]
  rfl

/-- The primary key columns of all tables. -/
def primaryKeyRefs : Option (List ColumnRef) := do
  let items ← readItems s
  return items.flatMap TableItem.primaryKeyRefs

theorem primaryKeyRefs_eq : primaryKeyRefs s = some s.primaryKeyRefs := by
  rw [primaryKeyRefs, readItems_eq]
  rfl

/-- The definitions that mention no constraint.  Each of them gets a span. -/
def plainColumns : Option (List DeclaredColumn) := do
  let columns ← columns s
  let plain := columns.filter fun c => !mentionsConstraint c.piece.text
  let _ ← plain.mapM fun c => spanAt s c.piece.offset c.piece.text.byteSize
  return plain

theorem plainColumns_eq : plainColumns s = some s.plainColumns := by
  have hspans : s.plainColumns.mapM (fun c => spanAt s c.piece.offset c.piece.text.byteSize) = some _ :=
    mapM_eq_some fun c hc => spanAt_eq (Source.shows_column (List.mem_filter.mp hc).1)
  rw [Source.plainColumns] at hspans ⊢
  rw [plainColumns, columns_eq]
  simp only [Option.bind_eq_bind, Option.bind_some, hspans]
  rfl

/-- Columns with the same name and type in several tables without a foreign key. -/
def undefinedRelations : Option (List Finding) := do
  let primary ← primaryKeyRefs s
  let ends ← foreignKeyEnds s
  let plain ← plainColumns s
  let found ← (groupBy (fun c => (c.column.key, c.column.type.key)) plain).filterMapM
    fun ((column, _), uses) => do
      -- the finding stands at the first definition
      let _ ← uses[0]?
      return undefinedRelation? s primary ends column uses
  locateAll s found

theorem undefinedRelations_eq : undefinedRelations s = some (SchemaReview.undefinedRelations s) := by
  have hfound : (groupBy (fun c => (c.column.key, c.column.type.key)) s.plainColumns).filterMapM
      (fun ((column, _), uses) => do
        let _ ← uses[0]?
        return undefinedRelation? s s.primaryKeyRefs s.foreignKeyEnds column uses) =
      some (SchemaReview.undefinedRelations s) := by
    refine filterMapM_eq_some fun ⟨key, uses⟩ hentry => ?_
    obtain ⟨first, others, rfl⟩ := List.exists_cons_of_ne_nil (ne_nil_of_mem_groupBy hentry)
    rfl
  simp only [undefinedRelations, primaryKeyRefs_eq, foreignKeyEnds_eq, plainColumns_eq,
    Option.bind_eq_bind, Option.bind_some] at hfound ⊢
  rw [hfound]
  exact locateAll_eq fun f hf => (reported_of_mem_undefinedRelations hf).placed

/-- The foreign keys of an item: table-level ones first, then the inline one. -/
def allForeignKeys (item : TableItem) : Option (List ForeignKey) := do
  let listed ← foreignKeys item.piece.text
  let some column ← column item.piece.text | return listed
  let found ← inlineReference column
  return listed ++ found.toList

@[simp] theorem allForeignKeys_eq (item : TableItem) :
    allForeignKeys item = some (SchemaReview.allForeignKeys item) := by
  rw [allForeignKeys, SchemaReview.allForeignKeys, foreignKeys_eq, column_eq]
  cases Column.ofText? item.piece.text with
  | none => simp
  | some column =>
    simp only [Option.bind_eq_bind, Option.bind_some, inlineReference_eq]
    rfl

/-- The self-references of an item. -/
def selfReferencesOf (item : TableItem) : Option (List SelfReference) := do
  let found ← allForeignKeys item
  (found.filter fun fk => fk.tableKey = item.table.key).flatMapM fun fk =>
    fk.columns.mapM fun column => do
      let span ← spanAt s (item.piece.offset + fk.offset) 0
      return ⟨item.table, column, span⟩

variable {s} in
theorem selfReferencesOf_eq {item : TableItem} (h : item ∈ s.items) :
    selfReferencesOf s item = some (SchemaReview.selfReferencesOf s item) := by
  rw [selfReferencesOf, allForeignKeys_eq]
  refine flatMapM_eq_some fun fk hfk => mapM_eq_some fun column _ => ?_
  rw [spanAt_eq (Source.shows_clause h (shows_of_mem_allForeignKeys (List.mem_filter.mp hfk).1))]
  rfl

/-- Self-references through columns that forbid null values. -/
def selfReferences : Option (List Finding) := do
  let columns ← columns s
  let items ← items s
  let found ← items.flatMapM (selfReferencesOf s)
  return (found.filter fun r => declaredNotNull columns r.table.key r.columnKey).map selfReferenceFinding

theorem selfReferences_eq : selfReferences s = some (SchemaReview.selfReferences s) := by
  have hfound : s.items.flatMapM (selfReferencesOf s) = some _ :=
    flatMapM_eq_some fun item hitem => selfReferencesOf_eq hitem
  rw [selfReferences, columns_eq, items_eq]
  simp only [Option.bind_eq_bind, Option.bind_some, hfound]
  rfl

end

/-! ## Cycles of cascading deletes -/

/-- The edges that one statement declares. -/
def cascadeEdgesOf (statement : Statement) : Option (List CascadeEdge) :=
  match (TableHeader.find? statement.text 0).map (·.name) <|> alteredTable? statement.text with
  | none => some []
  | some table => do
    let found ← references statement.text
    return (found.filter (·.cascades)).map fun r => ⟨table, r.table, statement.offset + r.offset⟩

@[simp] theorem cascadeEdgesOf_eq (statement : Statement) :
    cascadeEdgesOf statement = some (SchemaReview.cascadeEdgesOf statement) := by
  unfold cascadeEdgesOf SchemaReview.cascadeEdgesOf
  cases (TableHeader.find? statement.text 0).map (·.name) <|> alteredTable? statement.text with
  | none => rfl
  | some table =>
    simp only [references_eq]
    rfl

/-- The first cycle that the search meets below `node`, cut out of the path. -/
def cycleBelow (arrows : List (String × String)) :
    Nat → String → List String → List String → Option (Option (List String))
  | 0, _, _, _ => some none
  | fuel + 1, node, path, visited =>
    (CascadeGraph.targets arrows node).findSomeM? fun next =>
      match (path ++ [node]).idxOf? next with
      | some i => do
        let cycle ← from? (path ++ [node]) i
        return some cycle
      | none =>
        if next ∈ visited.insert node then some none
        else cycleBelow arrows fuel next (path ++ [node]) (visited.insert node)

/-- On a path that meets no table twice, what comes from a table on is the table and what comes behind it. -/
theorem drop_eq_of_idxOf? {path : List String} (hpath : path.Nodup) {next : String} {i : Nat}
    (hi : path.idxOf? next = some i) :
    path.drop i = next :: (path.reverse.takeWhile (· ≠ next)).reverse := by
  obtain ⟨hlt, hget, -⟩ := List.idxOf?_eq_some_iff.mp hi
  have hcut : path = path.take i ++ next :: path.drop (i + 1) := by
    rw [← hget, List.getElem_cons_drop, List.take_append_drop]
  have hnext : next ∉ path.drop (i + 1) := by
    rw [hcut] at hpath
    exact (List.nodup_cons.mp (List.nodup_append.mp hpath).2.1).1
  -- seen from the end of the path, the table is met right behind what comes after it
  have hback : path.reverse.takeWhile (· ≠ next) = (path.drop (i + 1)).reverse := by
    have hall : ∀ x ∈ (path.drop (i + 1)).reverse, decide (x ≠ next) = true := by
      intro x hx
      refine decide_eq_true ?_
      rintro rfl
      exact hnext (List.mem_reverse.mp hx)
    conv_lhs => rw [hcut, List.reverse_append, List.reverse_cons, List.append_assoc]
    rw [List.takeWhile_append_of_pos hall]
    simp
  rw [hback, List.reverse_reverse, ← hget, List.getElem_cons_drop]

/-- The tables on the path differ: the search goes on only to tables that are not on it. -/
theorem cycleBelow_eq (arrows : List (String × String)) (fuel : Nat) {node : String} {path : List String}
    (hpath : (path ++ [node]).Nodup) (visited : List String) :
    cycleBelow arrows fuel node path visited =
      some (CascadeGraph.cycleBelow? arrows fuel node path.reverse visited) := by
  induction fuel generalizing node path visited with
  | zero => rfl
  | succ fuel ih =>
    rw [cycleBelow, CascadeGraph.cycleBelow?]
    refine findSomeM?_eq_some fun next _ => ?_
    have hreverse : node :: path.reverse = (path ++ [node]).reverse := by simp
    rw [hreverse]
    cases hi : (path ++ [node]).idxOf? next with
    | some i =>
      obtain ⟨hlt, hget, -⟩ := List.idxOf?_eq_some_iff.mp hi
      have hmem : next ∈ (path ++ [node]).reverse := List.mem_reverse.mpr (hget ▸ List.getElem_mem hlt)
      rw [if_pos hmem, ← drop_eq_of_idxOf? hpath hi]
      simp only [from?_eq hlt.le]
      rfl
    | none =>
      have hmem : next ∉ path ++ [node] := List.idxOf?_eq_none_iff.mp hi
      have hlonger : (path ++ [node] ++ [next]).Nodup := by
        rw [← List.concat_eq_append]
        exact hpath.concat hmem
      rw [if_neg fun h => hmem (List.mem_reverse.mp h)]
      dsimp only
      by_cases hvisited : next ∈ visited.insert node
      · rw [if_pos hvisited, if_pos hvisited]
      · rw [if_neg hvisited, if_neg hvisited]
        exact ih hlonger _

/-- The first cycle. -/
def firstCycle (g : CascadeGraph) : Option (Option (List String)) :=
  g.nodes.findSomeM? fun start => cycleBelow g.arrows g.nodes.length start [] []

theorem firstCycle_eq (g : CascadeGraph) : firstCycle g = some g.firstCycle? :=
  findSomeM?_eq_some fun start _ => cycleBelow_eq g.arrows _ (List.nodup_singleton start) []

/-- The neighbours in a list, looked up by position. -/
def neighbours (xs : List String) : Option (List (String × String)) :=
  (List.range (xs.length - 1)).mapM fun i => do
    let first ← xs[i]?
    let second ← xs[i + 1]?
    return (first, second)

theorem neighbours_eq (xs : List String) : neighbours xs = some (xs.zip (xs.drop 1)) := by
  have hpairs : ∀ i ∈ List.range (xs.length - 1), (do
      let first ← xs[i]?
      let second ← xs[i + 1]?
      return (first, second)) = some (xs.getD i "", xs.getD (i + 1) "") := by
    intro i hi
    rw [List.mem_range] at hi
    have hfirst : i < xs.length := by omega
    have hsecond : i + 1 < xs.length := by omega
    simp [hfirst, hsecond]
  rw [neighbours, mapM_eq_some hpairs]
  congr 1
  refine List.ext_getElem (by simp) fun i hi _ => ?_
  rw [List.length_map, List.length_range] at hi
  have hfirst : i < xs.length := by omega
  have hsecond : i + 1 < xs.length := by omega
  simp [hfirst, hsecond]

/-- The first cycle of cascading deletes. -/
def cascadeCycles (s : Source) : Option (List Finding) := do
  let statements ← statements s
  let g ← statements.flatMapM cascadeEdgesOf
  let some cycle ← firstCycle g | return []
  let edges ← neighbours (cycle ++ cycle.take 1)
  let notes := edges.filterMap (cascadeNote? s g)
  locateAll s [{ cascadeFinding s g cycle with span := notes.head?.map Note.span, notes }]

theorem cascadeCycles_eq (s : Source) : cascadeCycles s = some (SchemaReview.cascadeCycles s) := by
  have hgraph : s.statements.flatMapM cascadeEdgesOf = some s.cascadeGraph :=
    flatMapM_eq_some fun statement _ => cascadeEdgesOf_eq statement
  have hplaced : ∀ f ∈ SchemaReview.cascadeCycles s, f.Placed s :=
    fun f hf => (reported_of_mem_cascadeCycles hf).placed
  simp only [SchemaReview.cascadeCycles] at hplaced ⊢
  simp only [cascadeCycles, statements_eq, hgraph, firstCycle_eq, Option.bind_eq_bind, Option.bind_some]
  cases hcycle : s.cascadeGraph.firstCycle? with
  | none => rfl
  | some cycle =>
    rw [hcycle] at hplaced
    simp only [neighbours_eq, Option.bind_some]
    exact locateAll_eq hplaced

/-! ## All detectors -/

/-- The findings of a detector in a prepared source. -/
def find : Detector → Source → Option (List Finding)
  | .conflictingTypes => typeConflicts
  | .defaultValueConflict => defaultConflicts
  | .reservedWords => reservedWordColumns
  | .nullPrimaryKey => nullableKeys
  | .indexAnomalies => indexAnomalies
  | .redundantUniqueIndex => redundantIndexes
  | .tablesWithoutRelations => isolatedTables
  | .missingPotentialKeys => missingKeys
  | .unnecessaryIndexes => unnecessaryIndexes
  | .wrongAlternateKey => missingAlternates
  | .unnecessaryCheckConstraints => uselessChecks
  | .unnecessaryForeignKeys => foreignKeyConflicts
  | .undefinedRelations => undefinedRelations
  | .overlappingRelations => mutualReferences
  | .incorrectRecursiveRelation => selfReferences
  | .infiniteDeleteCascade => cascadeCycles

/-- The findings of a detector in a script. -/
def run (d : Detector) (sql : String) : Option (List Finding) := find d (Source.ofString sql)

theorem find_eq (d : Detector) (s : Source) : find d s = some (d.find s) := by
  cases d with
  | conflictingTypes => exact typeConflicts_eq s
  | defaultValueConflict => exact defaultConflicts_eq s
  | reservedWords => exact reservedWordColumns_eq s
  | nullPrimaryKey => exact nullableKeys_eq s
  | indexAnomalies => exact indexAnomalies_eq s
  | redundantUniqueIndex => exact redundantIndexes_eq s
  | tablesWithoutRelations => exact isolatedTables_eq s
  | missingPotentialKeys => exact missingKeys_eq s
  | unnecessaryIndexes => exact unnecessaryIndexes_eq s
  | wrongAlternateKey => exact missingAlternates_eq s
  | unnecessaryCheckConstraints => exact uselessChecks_eq s
  | unnecessaryForeignKeys => exact foreignKeyConflicts_eq s
  | undefinedRelations => exact undefinedRelations_eq s
  | overlappingRelations => exact mutualReferences_eq s
  | incorrectRecursiveRelation => exact selfReferences_eq s
  | infiniteDeleteCascade => exact cascadeCycles_eq s

end Checked

/-! ## Scripts -/

/-- Masking keeps the number of bytes. -/
theorem Source.size_ofString (sql : String) : (Source.ofString sql).size = sql.utf8ByteSize := by
  show byteSize (maskFrom .code sql.toList) = sql.utf8ByteSize
  rw [byteSize_eq_of_blanked (blanked_maskFrom .code sql.toList), byteSize_toList]

/-- **No detector ever cuts a text inside a character or out of range, nor looks past the end of a list, and
every span that it gives is right.**  On each script the run with all checks goes through and finds what the
detector finds.  Each span of a finding, its own or that of a note, begins between two characters of the
masked text and ends inside the script; its line is the one that holds the offset, among the lines of the
script, and its column counts the characters of that line in front of the offset. -/
theorem run_checked_and_located (d : Detector) (sql : String) :
    Checked.run d sql = some (d.run sql) ∧
      ∀ f ∈ d.run sql, ∀ span ∈ f.spans,
        (Source.ofString sql).Locates span ∧ span.offset + span.length ≤ sql.utf8ByteSize := by
  refine ⟨Checked.find_eq d (Source.ofString sql), fun f hf span hspan => ?_⟩
  have hplaced : f.Placed (Source.ofString sql) := Detector.placed_of_mem_find hf
  have hlocates := (hplaced.of_mem_spans hspan).locates
  exact ⟨hlocates, Source.size_ofString sql ▸ hlocates.within⟩

end SchemaReview
