import Mathlib.Data.Finset.Lattice.Lemmas
import Mathlib.Data.List.Permutation
import SchemaReview.Detector.Run
import SchemaReview.Proofs.Ddl.Pieces
import SchemaReview.Proofs.Detector.CascadeCycle
import SchemaReview.Proofs.Detector.NotNull
import SchemaReview.Proofs.Rearrangement
import SchemaReview.Proofs.Scope.Pieces

/-!
# Proofs.Detector.Rearranged — findings do not depend on the order of declarations

`Finding.summary` says what a finding is about: its kind, table, columns and index.  `Source.Rearranges`
says that two sources declare the same things in another order, where the items of each table keep
theirs.  Each detector then gives findings with the same summaries in some order.

* What a detector reads item by item or index by index needs no more than the same items and indexes.
* Keys of tables, nullable keys and conflicts of foreign keys are found table by table, in the order of
  the items of the table.
* Groups of columns and of relations, and the graph of cascading deletes, are read as sets.
-/

namespace SchemaReview

open Text

/-- What a finding is about. -/
structure Finding.Summary where
  kind : FindingKind
  /-- The key of the table. -/
  table : Option String
  columns : Finset String
  index : Option String
deriving DecidableEq

def Finding.summary (f : Finding) : Finding.Summary :=
  ⟨f.kind, f.table.map nameKey, f.columns.toFinset, f.index⟩

namespace Finding

variable (f : Finding)

@[simp] theorem summary_new (severity : Severity) (kind : FindingKind) (message : String) :
    (new severity kind message).summary = ⟨kind, none, ∅, none⟩ := rfl

@[simp] theorem summary_withSpan (span : Span) : (f.withSpan span).summary = f.summary := rfl

@[simp] theorem summary_withHelp (help : String) : (f.withHelp help).summary = f.summary := rfl

@[simp] theorem summary_withNote (message : String) (span : Span) :
    (f.withNote message span).summary = f.summary := rfl

@[simp] theorem summary_withNotes (notes : List Note) : (f.withNotes notes).summary = f.summary := rfl

@[simp] theorem summary_withTable (table : String) :
    (f.withTable table).summary = { f.summary with table := some (nameKey table) } := rfl

@[simp] theorem summary_withIndex (index : String) :
    (f.withIndex index).summary = { f.summary with index := some index } := rfl

@[simp] theorem summary_withColumns (columns : List String) : (f.withColumns columns).summary =
    { f.summary with columns := f.summary.columns ∪ columns.toFinset } := by
  simp [summary, withColumns]

end Finding

/-- The sources declare the same in another order, where the items of each table keep theirs. -/
structure Source.Rearranges (s s' : Source) : Prop where
  tables : Rearranged TableDecl.key s.tables s'.tables
  items : AgreeBy (fun c => nameKey c.1) (s.items.map TableItem.content) (s'.items.map TableItem.content)
  nested : Rearranged TableItem.content (s.itemsIn .nested) (s'.itemsIn .nested)
  indexes : Rearranged Index.content s.indexes s'.indexes
  added : Rearranged AddedForeignKey.content s.addedForeignKeys s'.addedForeignKeys
  arrows : s.cascadeGraph.arrows.Perm s'.cascadeGraph.arrows

/-! ## What contents tell -/

theorem TableItem.content_eq {a b : TableItem} (h : a.content = b.content) :
    a.table.name = b.table.name ∧ a.table.key = b.table.key ∧ a.piece.text = b.piece.text := by
  rw [content, content, Prod.mk.injEq] at h
  exact ⟨h.1, congrArg nameKey h.1, h.2⟩

theorem Index.content_eq {i j : Index} (h : i.content = j.content) :
    i.name = j.name ∧ i.table = j.table ∧ i.unique = j.unique ∧ i.columns = j.columns := by
  simpa [content] using h

/-- A column definition without its position. -/
def DeclaredColumn.content (c : DeclaredColumn) : String × Text × Column :=
  (c.table.name, c.piece.text, c.column)

theorem DeclaredColumn.content_eq {c d : DeclaredColumn} (h : c.content = d.content) :
    c.table.name = d.table.name ∧ c.table.key = d.table.key ∧ c.piece.text = d.piece.text ∧
      c.column = d.column := by
  simp only [content, Prod.mk.injEq] at h
  exact ⟨h.1, congrArg nameKey h.1, h.2.1, h.2.2⟩

section

variable {s s' : Source}

theorem Source.Rearranges.items_rearranged (h : s.Rearranges s') :
    Rearranged TableItem.content s.items s'.items :=
  h.items.perm

/-- The items of one table are the same in the same order. -/
theorem Source.Rearranges.own_items (h : s.Rearranges s') (k : String) :
    (s.items.filter fun item => item.table.key = k).map TableItem.content =
      (s'.items.filter fun item => item.table.key = k).map TableItem.content := by
  have hown := h.items k
  rw [List.filter_map, List.filter_map] at hown
  exact hown

theorem Source.Rearranges.columns (h : s.Rearranges s') :
    Rearranged DeclaredColumn.content s.columns s'.columns := by
  refine h.items_rearranged.filterMap fun a b hab => ?_
  obtain ⟨hname, -, htext⟩ := TableItem.content_eq hab
  rw [TableItem.column?, TableItem.column?, Option.map_map, Option.map_map, htext]
  refine congrArg₂ Option.map (funext fun column => ?_) rfl
  simp [DeclaredColumn.content, hname, htext]

/-! ## Columns -/

theorem summary_typeConflict? (s : Source) (key : String) (uses : List DeclaredColumn) :
    (typeConflict? s key uses).map Finding.summary =
      if (distinct (uses.map fun c => c.column.type.key)).length < 2 then none
      else some ⟨.conflictingColumnTypes, none, {key}, none⟩ := by
  have hlength : (groupBy (fun c : DeclaredColumn => c.column.type.key) uses).length =
      (distinct (uses.map fun c => c.column.type.key)).length := by
    rw [groupBy_eq, List.length_map]
  unfold typeConflict?
  dsimp only
  rw [hlength]
  cases uses with
  | nil => rfl
  | cons c uses =>
    have hmem : c ∈ (groupBy (fun c : DeclaredColumn => c.column.type.key) (c :: uses)).flatMap (·.2) := by
      rw [groupBy_eq, List.flatMap_map, List.mem_flatMap]
      exact ⟨c.column.type.key, by simp, by simp⟩
    obtain ⟨first, others, hcons⟩ := List.exists_cons_of_ne_nil (List.ne_nil_of_mem hmem)
    rw [hcons]
    dsimp only
    split
    · rfl
    · simp

theorem rearranged_typeConflicts (h : s.Rearranges s') :
    Rearranged Finding.summary (typeConflicts s) (typeConflicts s') := by
  refine h.columns.groupBy_filterMap (fun c d hcd => ?_) fun k uses uses' huses => ?_
  · rw [(DeclaredColumn.content_eq hcd).2.2.2]
  · have htypes : Rearranged (fun c : DeclaredColumn => c.column.type.key) uses uses' :=
      huses.of_comp fun c d hcd => by rw [(DeclaredColumn.content_eq hcd).2.2.2]
    rw [summary_typeConflict?, summary_typeConflict?, (perm_distinct fun _ => htypes.mem_iff).length_eq]

theorem summary_defaultConflict? (s : Source) (c : DeclaredColumn) :
    (defaultConflict? s c).map Finding.summary =
      c.column.default?.bind fun raw =>
        if isNullWord raw then none
        else (defaultMisfit? c.column.type raw).map fun misfit =>
          ⟨misfit.1, some (nameKey c.table.name), {c.column.key}, none⟩ := by
  unfold defaultConflict?
  cases c.column.default? with
  | none => rfl
  | some raw =>
    simp only [Option.bind_eq_bind, Option.bind_some]
    split
    · rfl
    · cases defaultMisfit? c.column.type raw with
      | none => rfl
      | some misfit => simp

theorem rearranged_defaultConflicts (h : s.Rearranges s') :
    Rearranged Finding.summary (defaultConflicts s) (defaultConflicts s') := by
  refine h.columns.filterMap fun c d hcd => ?_
  obtain ⟨hname, -, -, hcolumn⟩ := DeclaredColumn.content_eq hcd
  rw [summary_defaultConflict?, summary_defaultConflict?, hname, hcolumn]

theorem rearranged_reservedWordColumns (h : s.Rearranges s') :
    Rearranged Finding.summary (reservedWordColumns s) (reservedWordColumns s') := by
  have hnamed : Rearranged DeclaredColumn.content
      (s.columns.filter fun c => !c.column.quoted && isReservedWord c.column.name.toList)
      (s'.columns.filter fun c => !c.column.quoted && isReservedWord c.column.name.toList) :=
    h.columns.filter fun c d hcd => by rw [(DeclaredColumn.content_eq hcd).2.2.2]
  have hkeys := hnamed.of_comp (v := fun c => (c.table.key, c.column.key)) fun c d hcd => by
    obtain ⟨-, hkey, -, hcolumn⟩ := DeclaredColumn.content_eq hcd
    rw [hkey, hcolumn]
  refine (rearranged_firstBy (fun _ _ => id) fun _ => hkeys.mem_iff).map fun c d hcd => ?_
  have htable : nameKey c.table.name = nameKey d.table.name := congrArg Prod.fst hcd
  have hcolumn : c.column.key = d.column.key := congrArg Prod.snd hcd
  simp [reservedWordFinding, htable, hcolumn]

/-! ## Nullable keys -/

/-- A definition that has been read, without its position. -/
def SeenColumn.content (c : SeenColumn) : String × String × Bool :=
  (c.tableKey, c.columnKey, c.notNull)

theorem seenColumn?_filter (seen : List SeenColumn) (tableKey columnKey : String) :
    seenColumn? (seen.filter fun c => some c.tableKey = some tableKey) tableKey columnKey =
      seenColumn? seen tableKey columnKey := by
  unfold seenColumn?
  rw [List.find?_filter]
  refine congrArg (fun p => List.find? p seen) (funext fun c => ?_)
  by_cases hkey : c.tableKey = tableKey
  · simp [hkey]
  · simp [hkey]

theorem listedNullableKeys_filter (s : Source) (seen : List SeenColumn) (item : TableItem) :
    listedNullableKeys s (seen.filter fun c => some c.tableKey = some item.table.key) item =
      listedNullableKeys s seen item := by
  unfold listedNullableKeys
  simp only [seenColumn?_filter]

theorem table_of_mem_listedNullableKeys {seen : List SeenColumn} {item : TableItem} {f : Finding}
    (hf : f ∈ listedNullableKeys s seen item) : f.table.map nameKey = some item.table.key := by
  obtain ⟨key, -, hkey⟩ := List.mem_filterMap.mp hf
  cases hseen : seenColumn? seen item.table.key key with
  | none =>
    rw [hseen] at hkey
    cases hkey
  | some column =>
    rw [hseen] at hkey
    dsimp only at hkey
    split at hkey
    · cases hkey
    · cases hkey
      rfl

/-- What is found for one table depends on its own items only. -/
theorem filter_nullableKeysFrom (s : Source) (k : Option String) (seen : List SeenColumn)
    (items : List TableItem) :
    (nullableKeysFrom s seen items).filter (fun f => f.table.map nameKey = k) =
      nullableKeysFrom s (seen.filter fun c => some c.tableKey = k)
        (items.filter fun item => some item.table.key = k) := by
  induction items generalizing seen with
  | nil => rfl
  | cons item items ih =>
    -- all findings of an item are about its table
    have hlisted : ∀ f ∈ listedNullableKeys s seen item, f.table.map nameKey = some item.table.key :=
      fun f hf => table_of_mem_listedNullableKeys hf
    have hinline : ∀ column, (inlineNullableKey s item column).table.map nameKey =
        some item.table.key := fun _ => rfl
    by_cases hk : some item.table.key = k
    · subst hk
      rw [List.filter_cons_of_pos (by simp), nullableKeysFrom, nullableKeysFrom]
      cases Column.ofText? item.piece.text with
      | none =>
        dsimp only
        rw [List.filter_append, ih, listedNullableKeys_filter,
          List.filter_eq_self.mpr fun f hf => decide_eq_true (hlisted f hf)]
      | some column =>
        dsimp only
        rw [List.filter_append, ih, List.filter_cons_of_pos (by simp)]
        refine congrArg₂ (· ++ ·) ?_ rfl
        split
        · exact List.filter_cons_of_pos (decide_eq_true (hinline column))
        · rfl
    · rw [List.filter_cons_of_neg (by simpa using hk), nullableKeysFrom]
      cases Column.ofText? item.piece.text with
      | none =>
        dsimp only
        rw [List.filter_append, ih, List.filter_eq_nil_iff.mpr, List.nil_append]
        intro f hf
        rwa [decide_eq_true_eq, hlisted f hf]
      | some column =>
        dsimp only
        rw [List.filter_append, ih, List.filter_cons_of_neg (by simpa using hk),
          List.filter_eq_nil_iff.mpr, List.nil_append]
        intro f hf
        rw [List.mem_ite_nil_right, List.mem_singleton] at hf
        rwa [decide_eq_true_eq, hf.2, hinline]

theorem content_seenColumn? {seen seen' : List SeenColumn}
    (hseen : List.Forall₂ (fun c d => c.content = d.content) seen seen') (tableKey columnKey : String) :
    (seenColumn? seen tableKey columnKey).map SeenColumn.content =
      (seenColumn? seen' tableKey columnKey).map SeenColumn.content := by
  unfold seenColumn?
  induction hseen with
  | nil => rfl
  | @cons c d _ _ hcd _ ih =>
    have hparts := hcd
    simp only [SeenColumn.content, Prod.mk.injEq] at hparts
    rw [List.find?_cons, List.find?_cons, hparts.1, hparts.2.1]
    split
    · exact congrArg some hcd
    · exact ih

theorem summary_listedNullableKeys {a b : TableItem} (hab : a.content = b.content)
    {seen seen' : List SeenColumn}
    (hseen : List.Forall₂ (fun c d => c.content = d.content) seen seen') :
    (listedNullableKeys s seen a).map Finding.summary =
      (listedNullableKeys s' seen' b).map Finding.summary := by
  obtain ⟨hname, hkey, htext⟩ := TableItem.content_eq hab
  unfold listedNullableKeys
  rw [htext, hkey, List.map_filterMap, List.map_filterMap]
  refine List.filterMap_congr fun key _ => ?_
  have hcolumn := content_seenColumn? hseen b.table.key key
  cases hc : seenColumn? seen b.table.key key with
  | none =>
    rw [hc, Option.map_none, eq_comm, Option.map_eq_none_iff] at hcolumn
    rw [hcolumn]
  | some c =>
    rw [hc, Option.map_some, eq_comm, Option.map_eq_some_iff] at hcolumn
    obtain ⟨d, hd, hdc⟩ := hcolumn
    simp only [SeenColumn.content, Prod.mk.injEq] at hdc
    rw [hd]
    dsimp only
    rw [hdc.2.2]
    split
    · rfl
    · simp [listedNullableKey, hname, hdc.2.1]

theorem summary_nullableKeysFrom {items items' : List TableItem}
    (hitems : List.Forall₂ (fun a b => a.content = b.content) items items')
    {seen seen' : List SeenColumn}
    (hseen : List.Forall₂ (fun c d => c.content = d.content) seen seen') :
    (nullableKeysFrom s seen items).map Finding.summary =
      (nullableKeysFrom s' seen' items').map Finding.summary := by
  induction hitems generalizing seen seen' with
  | nil => rfl
  | @cons a b as bs hab _ ih =>
    obtain ⟨hname, hkey, htext⟩ := TableItem.content_eq hab
    rw [nullableKeysFrom, nullableKeysFrom, htext]
    cases Column.ofText? b.piece.text with
    | none =>
      dsimp only
      rw [List.map_append, List.map_append, summary_listedNullableKeys hab hseen, ih hseen]
    | some column =>
      dsimp only
      rw [List.map_append, List.map_append, ih (.cons ?_ hseen)]
      · refine congrArg₂ (· ++ ·) ?_ rfl
        split
        · simp [inlineNullableKey, hname]
        · rfl
      · simp [SeenColumn.content, hkey]

theorem rearranged_nullableKeys (h : s.Rearranges s') :
    Rearranged Finding.summary (nullableKeys s) (nullableKeys s') := by
  have hagree : AgreeBy Finding.Summary.table ((nullableKeys s).map Finding.summary)
      ((nullableKeys s').map Finding.summary) := by
    intro k
    have hown : ∀ s : Source, ((nullableKeys s).map Finding.summary).filter (fun f => f.table = k) =
        (nullableKeysFrom s [] (s.items.filter fun item => some item.table.key = k)).map
          Finding.summary := by
      intro s
      rw [List.filter_map]
      exact congrArg _ (filter_nullableKeysFrom s k [] s.items)
    rw [hown, hown]
    refine summary_nullableKeysFrom (forall₂_of_map_eq ?_) .nil
    cases k with
    | none => simp
    | some k => simpa using h.own_items k
  exact hagree.perm

/-! ## Keys of tables -/

/-- The keys of a table without its position. -/
def TableKeys.content (t : TableKeys) : String × String × List String × List UniqueKey :=
  (t.key, nameKey t.name, t.primaryKey, t.uniques)

theorem TableKeys.content_eq {t u : TableKeys} (h : t.content = u.content) :
    t.key = u.key ∧ nameKey t.name = nameKey u.name ∧ t.primaryKey = u.primaryKey ∧
      t.uniques = u.uniques := by
  simpa [content] using h

/-- Tables with the same key have the same keys. -/
theorem Source.Rearranges.content_keysOf (h : s.Rearranges s') {t t' : TableDecl}
    (hkey : t.key = t'.key) :
    (s.keysOf (s.items.map fun item => (item.table.key, item)) t).content =
      (s'.keysOf (s'.items.map fun item => (item.table.key, item)) t').content := by
  have hown : ∀ items : List TableItem,
      ((items.map fun item => (item.table.key, item)).filter fun entry => entry.1 = t'.key).map (·.2) =
        items.filter fun item => item.table.key = t'.key := by
    intro items
    simp [List.filter_map, Function.comp_def]
  have hprimary : ∀ a b : TableItem, a.content = b.content →
      a.primaryKeyColumns = b.primaryKeyColumns := by
    intro a b hab
    rw [TableItem.primaryKeyColumns, TableItem.primaryKeyColumns, (TableItem.content_eq hab).2.2]
  have huniques : ∀ a b : TableItem, a.content = b.content → a.uniqueKeys = b.uniqueKeys := by
    intro a b hab
    rw [TableItem.uniqueKeys, TableItem.uniqueKeys, (TableItem.content_eq hab).2.2]
  have hname : nameKey t.name = nameKey t'.name := hkey
  have hitems := forall₂_of_map_eq (h.own_items t'.key)
  unfold Source.keysOf
  simp only [TableKeys.content, hkey, hown, hname, flatMap_eq_of_forall₂ hprimary hitems,
    flatMap_eq_of_forall₂ huniques hitems]

theorem Source.Rearranges.tableKeys (h : s.Rearranges s') :
    Rearranged TableKeys.content s.tableKeys s'.tableKeys :=
  (rearranged_firstBy (fun _ _ => id) fun _ => h.tables.mem_iff).map fun _ _ => h.content_keysOf

theorem Source.keysFor?_tableKeys (s : Source) (k : String) :
    Source.keysFor? s.tableKeys k = (s.tables.find? fun t => t.key = k).map
      (s.keysOf (s.items.map fun item => (item.table.key, item))) := by
  unfold Source.keysFor? Source.tableKeys
  dsimp only
  rw [List.find?_map, ← find?_firstBy]
  rfl

/-- Both sources have keys for a table, and the same ones, or none has. -/
theorem Source.Rearranges.keysFor?_cases (h : s.Rearranges s') (k : String) :
    (Source.keysFor? s.tableKeys k = none ∧ Source.keysFor? s'.tableKeys k = none) ∨
      ∃ t t', Source.keysFor? s.tableKeys k = some t ∧ Source.keysFor? s'.tableKeys k = some t' ∧
        t.content = t'.content := by
  have hnone : ∀ {ts : List TableDecl}, k ∉ ts.map TableDecl.key →
      (ts.find? fun t => t.key = k) = none := by
    intro ts hk
    rw [List.find?_eq_none]
    intro t ht htk
    rw [decide_eq_true_eq] at htk
    exact hk (List.mem_map.mpr ⟨t, ht, htk⟩)
  have hsome : ∀ {ts : List TableDecl}, k ∈ ts.map TableDecl.key →
      ∃ t, (ts.find? fun t => t.key = k) = some t ∧ t.key = k := by
    intro ts hk
    obtain ⟨t, ht, htk⟩ := List.mem_map.mp hk
    have hfound : (ts.find? fun t => t.key = k).isSome = true :=
      List.find?_isSome.mpr ⟨t, ht, decide_eq_true htk⟩
    obtain ⟨t', ht'⟩ := Option.isSome_iff_exists.mp hfound
    have htk' := List.find?_some ht'
    rw [decide_eq_true_eq] at htk'
    exact ⟨t', ht', htk'⟩
  rw [s.keysFor?_tableKeys, s'.keysFor?_tableKeys]
  by_cases hk : k ∈ s.tables.map TableDecl.key
  · right
    obtain ⟨t, ht, htk⟩ := hsome hk
    obtain ⟨t', ht', htk'⟩ := hsome (h.tables.mem_iff.mp hk)
    exact ⟨_, _, congrArg _ ht, congrArg _ ht', h.content_keysOf (htk.trans htk'.symm)⟩
  · left
    rw [hnone hk, hnone (mt h.tables.mem_iff.mpr hk)]
    exact ⟨rfl, rfl⟩

theorem rearranged_missingKeys (h : s.Rearranges s') :
    Rearranged Finding.summary (missingKeys s) (missingKeys s') := by
  have hlacks : ∀ t t' : TableKeys, t.content = t'.content →
      lacksKey s.indexes t = lacksKey s'.indexes t' := by
    intro t t' ht
    obtain ⟨hkey, -, hprimary, huniques⟩ := TableKeys.content_eq ht
    unfold lacksKey
    rw [hkey, hprimary, huniques, h.indexes.any_eq]
    intro i j hij
    obtain ⟨-, htable, hunique, -⟩ := Index.content_eq hij
    rw [Index.tableKey, Index.tableKey, htable, hunique]
  refine (h.tableKeys.filter hlacks).map fun t t' ht => ?_
  have hname := (TableKeys.content_eq ht).2.1
  simp [missingKey, hname]

theorem rearranged_missingAlternates (h : s.Rearranges s') :
    Rearranged Finding.summary (missingAlternates s) (missingAlternates s') := by
  refine h.tableKeys.filterMap fun t t' ht => ?_
  obtain ⟨hkey, hname, hprimary, huniques⟩ := TableKeys.content_eq ht
  have halternate : hasAlternateKey s.indexes t = hasAlternateKey s'.indexes t' := by
    unfold hasAlternateKey
    dsimp only
    rw [hkey, hprimary, huniques, h.indexes.any_eq]
    intro i j hij
    obtain ⟨-, htable, hunique, hcolumns⟩ := Index.content_eq hij
    rw [Index.tableKey, Index.tableKey, htable, hunique, hcolumns]
  rw [hprimary, halternate]
  split
  · split
    · simp [missingAlternate, hname]
    · rfl
  · rfl

/-! ## Indexes -/

theorem summary_indexAnomaly {t t' : TableKeys} (ht : t.content = t'.content) {i j : Index}
    (hij : i.content = j.content) :
    (indexAnomaly s t i).map Finding.summary = (indexAnomaly s' t' j).map Finding.summary := by
  obtain ⟨-, hname, hprimary, huniques⟩ := TableKeys.content_eq ht
  obtain ⟨hindex, -, hunique, hcolumns⟩ := Index.content_eq hij
  unfold indexAnomaly
  dsimp only
  rw [hcolumns, hunique, hprimary, huniques, List.map_append, List.map_append]
  refine congrArg₂ (· ++ ·) ?_ ?_
  · split
    · simp [coversPrimaryKey, hname, hindex, hcolumns]
    · rfl
  · split
    · rfl
    · rw [List.map_map, List.map_map]
      refine List.map_congr_left fun u _ => ?_
      simp [coversUniqueKey, hname, hindex, hcolumns]

theorem rearranged_indexAnomalies (h : s.Rearranges s') :
    Rearranged Finding.summary (indexAnomalies s) (indexAnomalies s') := by
  refine h.indexes.flatMap fun i j hij => ?_
  have htable : i.tableKey = j.tableKey := congrArg nameKey (Index.content_eq hij).2.1
  rw [htable]
  rcases h.keysFor?_cases j.tableKey with ⟨hnone, hnone'⟩ | ⟨t, t', hsome, hsome', hcontent⟩
  · rw [hnone, hnone']
    exact .refl _
  · rw [hsome, hsome']
    exact .of_eq (summary_indexAnomaly hcontent hij)

theorem rearranged_redundantIndexes (h : s.Rearranges s') :
    Rearranged Finding.summary (redundantIndexes s) (redundantIndexes s') := by
  have hunique : Rearranged Index.content (s.indexes.filter (·.unique)) (s'.indexes.filter (·.unique)) :=
    h.indexes.filter fun i j hij => (Index.content_eq hij).2.2.1
  refine hunique.filterMap fun i j hij => ?_
  obtain ⟨hindex, htable, -, hcolumns⟩ := Index.content_eq hij
  rw [Index.tableKey, htable, hcolumns]
  rcases h.keysFor?_cases (nameKey j.table) with ⟨hnone, hnone'⟩ | ⟨t, t', hsome, hsome', hcontent⟩
  · rw [hnone, Index.tableKey, hnone']
  · obtain ⟨-, hname, hprimary, -⟩ := TableKeys.content_eq hcontent
    rw [hsome, Index.tableKey, hsome']
    dsimp only
    rw [hprimary]
    split
    · simp [redundantIndex, hname, hindex, hprimary]
    · rfl

/-- A constant column without its position. -/
def ConstantColumn.content (c : ConstantColumn) : String × String := (c.tableKey, c.columnKey)

theorem Source.Rearranges.constantColumns (h : s.Rearranges s') :
    Rearranged ConstantColumn.content s.constantColumns s'.constantColumns := by
  refine h.items_rearranged.flatMap fun a b hab => ?_
  obtain ⟨-, hkey, htext⟩ := TableItem.content_eq hab
  rw [Rearranged, htext, List.map_filterMap, List.map_filterMap]
  refine .of_eq (List.filterMap_congr fun check _ => ?_)
  rw [Option.map_map, Option.map_map]
  refine congrArg₂ Option.map (funext fun column => ?_) rfl
  simp [ConstantColumn.content, hkey]

/-- Whether some key is contained does not depend on which one is met first. -/
theorem any_coveringBases (h : s.Rearranges s') (k : String) (columns : List String) :
    (coveringBases s.tableKeys s.indexes k).any (fun base => strictlyCovers columns base.2) =
      (coveringBases s'.tableKeys s'.indexes k).any fun base => strictlyCovers columns base.2 := by
  have hunique : ((s.indexes.filter fun i => i.unique && decide (i.tableKey = k)).map
        fun i => ("UNIQUE INDEX " ++ i.name, sortedSet i.columns)).any
          (fun base => strictlyCovers columns base.2) =
      ((s'.indexes.filter fun i => i.unique && decide (i.tableKey = k)).map
        fun i => ("UNIQUE INDEX " ++ i.name, sortedSet i.columns)).any
          fun base => strictlyCovers columns base.2 := by
    rw [List.any_map, List.any_map, List.any_filter, List.any_filter]
    refine h.indexes.any_eq fun i j hij => ?_
    obtain ⟨-, htable, hunique, hcolumns⟩ := Index.content_eq hij
    have hkey : i.tableKey = j.tableKey := congrArg nameKey htable
    simp only [Function.comp_apply]
    rw [hkey, hunique, hcolumns]
  unfold coveringBases
  rw [List.any_append, List.any_append, hunique]
  rcases h.keysFor?_cases k with ⟨hnone, hnone'⟩ | ⟨t, t', hsome, hsome', hcontent⟩
  · rw [hnone, hnone']
  · rw [hsome, hsome']
    dsimp only
    rw [(TableKeys.content_eq hcontent).2.2.1]

/-- The indexes that contain a constant column. -/
theorem rearranged_constantIndexes (h : s.Rearranges s') : Rearranged Finding.summary
    (s.constantColumns.flatMap fun c => (s.indexes.filter fun i =>
      decide (i.tableKey = c.tableKey) && i.columns.contains c.columnKey).map (constantIndex s c))
    (s'.constantColumns.flatMap fun c => (s'.indexes.filter fun i =>
      decide (i.tableKey = c.tableKey) && i.columns.contains c.columnKey).map
        (constantIndex s' c)) := by
  refine h.constantColumns.flatMap fun c d hcd => ?_
  rw [ConstantColumn.content, ConstantColumn.content, Prod.mk.injEq] at hcd
  have hon : Rearranged Index.content
      (s.indexes.filter fun i => decide (i.tableKey = c.tableKey) && i.columns.contains c.columnKey)
      (s'.indexes.filter fun i =>
        decide (i.tableKey = d.tableKey) && i.columns.contains d.columnKey) := by
    refine h.indexes.filter fun i j hij => ?_
    obtain ⟨-, htable, -, hcolumns⟩ := Index.content_eq hij
    have hkey : i.tableKey = j.tableKey := congrArg nameKey htable
    rw [hkey, hcolumns, hcd.1, hcd.2]
  refine hon.map fun i j hij => ?_
  obtain ⟨hindex, htable, -, -⟩ := Index.content_eq hij
  simp [constantIndex, hindex, htable, hcd.2]

/-- The indexes that contain a key. -/
theorem rearranged_supersetIndexes (h : s.Rearranges s') : Rearranged Finding.summary
    (s.indexes.filterMap fun i => ((coveringBases s.tableKeys s.indexes i.tableKey).find? fun base =>
      strictlyCovers (sortedSet i.columns) base.2).map (supersetIndex s i))
    (s'.indexes.filterMap fun i =>
      ((coveringBases s'.tableKeys s'.indexes i.tableKey).find? fun base =>
        strictlyCovers (sortedSet i.columns) base.2).map (supersetIndex s' i)) := by
  refine h.indexes.filterMap fun i j hij => ?_
  obtain ⟨hindex, htable, -, hcolumns⟩ := Index.content_eq hij
  have hany := any_coveringBases h j.tableKey (sortedSet j.columns)
  have hkey : i.tableKey = j.tableKey := congrArg nameKey htable
  -- the summary does not name the key that is contained
  have hsummary : ∀ base base', (supersetIndex s i base).summary = (supersetIndex s' j base').summary := by
    intro base base'
    simp [supersetIndex, hindex, htable, hcolumns]
  rw [hkey, hcolumns, Option.map_map, Option.map_map]
  rw [← List.isSome_find?, ← List.isSome_find?] at hany
  cases hbase : (coveringBases s.tableKeys s.indexes j.tableKey).find? fun base =>
      strictlyCovers (sortedSet j.columns) base.2 with
  | none =>
    rw [hbase, Option.isSome_none, eq_comm, Option.isSome_eq_false_iff,
      Option.isNone_iff_eq_none] at hany
    rw [hany]
    rfl
  | some base =>
    rw [hbase, Option.isSome_some, eq_comm, Option.isSome_iff_exists] at hany
    obtain ⟨base', hbase'⟩ := hany
    rw [hbase']
    exact congrArg some (hsummary base base')

theorem rearranged_unnecessaryIndexes (h : s.Rearranges s') :
    Rearranged Finding.summary (unnecessaryIndexes s) (unnecessaryIndexes s') := by
  unfold Rearranged unnecessaryIndexes
  dsimp only
  rw [List.map_append, List.map_append]
  exact (rearranged_constantIndexes h).append (rearranged_supersetIndexes h)

/-! ## Checks -/

theorem rearranged_uselessChecks (h : s.Rearranges s') :
    Rearranged Finding.summary (uselessChecks s) (uselessChecks s') := by
  refine h.items_rearranged.flatMap fun a b hab => ?_
  obtain ⟨hname, -, htext⟩ := TableItem.content_eq hab
  rw [Rearranged, htext, List.map_filterMap, List.map_filterMap]
  refine .of_eq (List.filterMap_congr fun check _ => ?_)
  rw [Option.map_map, Option.map_map]
  refine congrArg₂ Option.map (funext fun cls => ?_) rfl
  simp [uselessCheck, hname]

/-! ## Foreign keys -/

theorem AddedForeignKey.content_eq {a b : AddedForeignKey} (h : a.content = b.content) :
    a.table = b.table ∧ a.foreignKey.columns = b.foreignKey.columns ∧
      a.foreignKey.table = b.foreignKey.table ∧ a.foreignKey.targets = b.foreignKey.targets := by
  simpa [content, ForeignKey.content] using h

theorem perm_relatedTables (h : s.Rearranges s') : (relatedTables s).Perm (relatedTables s') := by
  have hitems : Rearranged id
      (s.items.flatMap fun item => (references item.piece.text).flatMap fun r =>
        [item.table.key, nameKey r.table])
      (s'.items.flatMap fun item => (references item.piece.text).flatMap fun r =>
        [item.table.key, nameKey r.table]) := by
    refine h.items_rearranged.flatMap fun a b hab => ?_
    obtain ⟨-, hkey, htext⟩ := TableItem.content_eq hab
    rw [hkey, htext]
    exact .refl _
  have hadded : Rearranged id
      (s.addedForeignKeys.flatMap fun a => [nameKey a.table, a.foreignKey.tableKey])
      (s'.addedForeignKeys.flatMap fun a => [nameKey a.table, a.foreignKey.tableKey]) := by
    refine h.added.flatMap fun a b hab => ?_
    obtain ⟨htable, -, htarget, -⟩ := AddedForeignKey.content_eq hab
    rw [ForeignKey.tableKey, ForeignKey.tableKey, htable, htarget]
    exact .refl _
  rw [Rearranged, List.map_id, List.map_id] at hitems hadded
  exact hitems.append hadded

theorem rearranged_isolatedTables (h : s.Rearranges s') :
    Rearranged Finding.summary (isolatedTables s) (isolatedTables s') := by
  have hfilter : Rearranged TableDecl.key (s.tables.filter fun t => t.key ∉ relatedTables s)
      (s'.tables.filter fun t => t.key ∉ relatedTables s') := by
    refine h.tables.filter fun t t' ht => ?_
    rw [decide_eq_decide, ht, (perm_relatedTables h).mem_iff]
  refine (rearranged_firstBy (fun _ _ => id) fun _ => hfilter.mem_iff).map fun t t' ht => ?_
  have hname : nameKey t.name = nameKey t'.name := ht
  simp [isolatedTable, hname]

/-- A use of a foreign key without its position. -/
def ForeignKeyUse.content (u : ForeignKeyUse) : String × List String × String × List String :=
  (u.table.name, u.foreignKey.content)

theorem ForeignKeyUse.content_eq {u v : ForeignKeyUse} (h : u.content = v.content) :
    u.table.name = v.table.name ∧ u.columnSet = v.columnSet ∧ u.target = v.target := by
  simp only [content, ForeignKey.content, Prod.mk.injEq] at h
  obtain ⟨hname, hcolumns, htable, htargets⟩ := h
  refine ⟨hname, by rw [columnSet, columnSet, hcolumns], ?_⟩
  simp only [target, ForeignKey.tableKey, hcolumns, htable, htargets]

theorem summary_foreignKeyConflict? (table : String) {u u' v v' : ForeignKeyUse}
    (hu : u.content = u'.content) (hv : v.content = v'.content) :
    (foreignKeyConflict? s table u v).map Finding.summary =
      (foreignKeyConflict? s' table u' v').map Finding.summary := by
  obtain ⟨-, hucolumns, hutarget⟩ := ForeignKeyUse.content_eq hu
  obtain ⟨-, hvcolumns, hvtarget⟩ := ForeignKeyUse.content_eq hv
  unfold foreignKeyConflict?
  dsimp only
  rw [hucolumns, hvcolumns, hutarget, hvtarget]
  split
  · rfl
  · simp

theorem summary_conflictingPairs (table : String) {uses uses' : List ForeignKeyUse}
    (h : List.Forall₂ (fun u v => u.content = v.content) uses uses') :
    (conflictingPairs s table uses).map Finding.summary =
      (conflictingPairs s' table uses').map Finding.summary := by
  induction h with
  | nil => rfl
  | @cons u u' uses uses' hu hrest ih =>
    rw [conflictingPairs, conflictingPairs, List.map_append, List.map_append, ih]
    refine congrArg₂ (· ++ ·) ?_ rfl
    rw [List.map_filterMap, List.map_filterMap, List.filterMap_eq_flatMap_toList,
      List.filterMap_eq_flatMap_toList]
    refine flatMap_eq_of_forall₂ (fun v v' hv => ?_) hrest
    rw [summary_foreignKeyConflict? table hu hv]

theorem rearranged_foreignKeyConflicts (h : s.Rearranges s') :
    Rearranged Finding.summary (foreignKeyConflicts s) (foreignKeyConflicts s') := by
  have huses : ∀ a b : TableItem, a.content = b.content →
      ((foreignKeys a.piece.text).map fun fk => ForeignKeyUse.mk a.table a.piece fk).map
          ForeignKeyUse.content =
        ((foreignKeys b.piece.text).map fun fk => ForeignKeyUse.mk b.table b.piece fk).map
          ForeignKeyUse.content := by
    intro a b hab
    obtain ⟨hname, -, htext⟩ := TableItem.content_eq hab
    rw [List.map_map, List.map_map, htext]
    refine List.map_congr_left fun fk _ => ?_
    simp [ForeignKeyUse.content, hname]
  have hall : Rearranged ForeignKeyUse.content s.foreignKeyUses s'.foreignKeyUses :=
    h.items_rearranged.flatMap fun a b hab => .of_eq (huses a b hab)
  have htable : ∀ item : TableItem,
      ∀ u ∈ (foreignKeys item.piece.text).map fun fk => ForeignKeyUse.mk item.table item.piece fk,
        u.table.key = item.table.key := by
    intro item u hu
    obtain ⟨fk, -, rfl⟩ := List.mem_map.mp hu
    rfl
  have hhead : ∀ uses : List ForeignKeyUse, uses.head?.map (·.table.name) =
      (uses.map ForeignKeyUse.content).head?.map (·.1) := by
    intro uses
    cases uses <;> rfl
  refine rearranged_groupBy (fun k => ?_) fun k => ?_
  · exact (hall.of_comp fun u v huv => congrArg nameKey (ForeignKeyUse.content_eq huv).1).mem_iff
  · have hgroup : (s.foreignKeyUses.filter fun u => u.table.key = k).map ForeignKeyUse.content =
        (s'.foreignKeyUses.filter fun u => u.table.key = k).map ForeignKeyUse.content := by
      unfold Source.foreignKeyUses
      rw [filter_flatMap_of_key htable, filter_flatMap_of_key htable, List.map_flatMap,
        List.map_flatMap]
      exact flatMap_eq_of_forall₂ huses (forall₂_of_map_eq (h.own_items k))
    dsimp only
    rw [hhead, hhead, hgroup]
    exact .of_eq (summary_conflictingPairs _ (forall₂_of_map_eq hgroup))

/-! ## Undefined relations -/

theorem perm_sortedSet {xs ys : List String} (h : ∀ x, x ∈ xs ↔ x ∈ ys) :
    (sortedSet xs).Perm (sortedSet ys) :=
  .of_eq (sortedSet_eq_iff.mpr h)

theorem Source.Rearranges.plainColumns (h : s.Rearranges s') :
    Rearranged DeclaredColumn.content s.plainColumns s'.plainColumns :=
  h.columns.filter fun c d hcd => by rw [(DeclaredColumn.content_eq hcd).2.2.1]

theorem perm_primaryKeyRefs (h : s.Rearranges s') : s.primaryKeyRefs.Perm s'.primaryKeyRefs := by
  have hrefs : Rearranged id s.primaryKeyRefs s'.primaryKeyRefs := by
    refine h.items_rearranged.flatMap fun a b hab => ?_
    obtain ⟨-, hkey, htext⟩ := TableItem.content_eq hab
    rw [TableItem.primaryKeyRefs, TableItem.primaryKeyRefs, hkey, htext]
    exact .refl _
  rwa [Rearranged, List.map_id, List.map_id] at hrefs

/-- The ends of the foreign keys, one by one, are those of the other source. -/
theorem perm_foreignKeyEnds (h : s.Rearranges s') :
    s.foreignKeyEnds.children.Perm s'.foreignKeyEnds.children ∧
      s.foreignKeyEnds.parents.Perm s'.foreignKeyEnds.parents := by
  have hitems : Rearranged id
      (s.items.flatMap fun item => item.foreignKeys.map (ForeignKeyEnds.ofForeignKey item.table.key))
      (s'.items.flatMap fun item =>
        item.foreignKeys.map (ForeignKeyEnds.ofForeignKey item.table.key)) := by
    refine h.items_rearranged.flatMap fun a b hab => ?_
    obtain ⟨-, hkey, htext⟩ := TableItem.content_eq hab
    rw [TableItem.foreignKeys, TableItem.foreignKeys, hkey, htext]
    exact .refl _
  have hadded : Rearranged id
      (s.addedForeignKeys.map fun a => ForeignKeyEnds.ofForeignKey (nameKey a.table) a.foreignKey)
      (s'.addedForeignKeys.map fun a =>
        ForeignKeyEnds.ofForeignKey (nameKey a.table) a.foreignKey) := by
    refine h.added.map fun a b hab => ?_
    obtain ⟨htable, hcolumns, htarget, htargets⟩ := AddedForeignKey.content_eq hab
    simp only [ForeignKeyEnds.ofForeignKey, ForeignKey.tableKey, htable, hcolumns, htarget, htargets]
  rw [Rearranged, List.map_id, List.map_id] at hitems hadded
  have hends := hitems.append hadded
  exact ⟨hends.flatMap_right _, hends.flatMap_right _⟩

theorem summary_undefinedRelation? (s : Source) (primary : List ColumnRef) (ends : ForeignKeyEnds)
    (column : String) (uses : List DeclaredColumn) :
    (undefinedRelation? s primary ends column uses).map Finding.summary =
      if (sortedSet (uses.map (·.table.key))).length < 2 ||
          (sortedSet (uses.map (·.table.key))).all (fun t => primary.contains ⟨t, column⟩) ||
          ((sortedSet (uses.map (·.table.key))).any (fun t => ends.children.contains ⟨t, column⟩) &&
            (sortedSet (uses.map (·.table.key))).any fun t => ends.parents.contains ⟨t, column⟩) then
        none
      else some ⟨.undefinedRelation, none, {column}, none⟩ := by
  unfold undefinedRelation?
  dsimp only
  cases uses with
  | nil =>
    have hnone : sortedSet [] = [] := by simp [sortedSet, distinct, firstBy, firstByFrom]
    simp [hnone]
  | cons first others =>
    dsimp only
    split
    · rfl
    · simp

theorem rearranged_undefinedRelations (h : s.Rearranges s') :
    Rearranged Finding.summary (undefinedRelations s) (undefinedRelations s') := by
  have hprimary : ∀ ref, s.primaryKeyRefs.contains ref = s'.primaryKeyRefs.contains ref :=
    fun ref => (perm_primaryKeyRefs h).contains_eq
  have hchildren : ∀ ref, s.foreignKeyEnds.children.contains ref =
      s'.foreignKeyEnds.children.contains ref := fun ref => (perm_foreignKeyEnds h).1.contains_eq
  have hparents : ∀ ref, s.foreignKeyEnds.parents.contains ref =
      s'.foreignKeyEnds.parents.contains ref := fun ref => (perm_foreignKeyEnds h).2.contains_eq
  refine h.plainColumns.groupBy_filterMap (fun c d hcd => ?_) fun k uses uses' huses => ?_
  · rw [(DeclaredColumn.content_eq hcd).2.2.2]
  · have htables : (sortedSet (uses.map (·.table.key))).Perm (sortedSet (uses'.map (·.table.key))) :=
      perm_sortedSet fun _ => (huses.of_comp fun c d hcd => (DeclaredColumn.content_eq hcd).2.1).mem_iff
    dsimp only
    simp only [summary_undefinedRelation?, hprimary, hchildren, hparents, htables.length_eq,
      htables.all_eq, htables.any_eq]

/-! ## Mutual references -/

/-- A relation without its position. -/
def Relation.content (r : Relation) : String × String × String × String :=
  (r.fromTable, r.fromColumn, r.toTable, r.toColumn)

theorem Relation.content_eq {r t : Relation} (h : r.content = t.content) :
    r.fromTable = t.fromTable ∧ r.fromColumn = t.fromColumn ∧ r.pair = t.pair := by
  simp only [content, Prod.mk.injEq] at h
  refine ⟨h.1, h.2.1, ?_⟩
  rw [pair, pair, h.1, h.2.2.1]

theorem Source.Rearranges.relations (h : s.Rearranges s') :
    Rearranged Relation.content s.relations s'.relations := by
  refine h.nested.flatMap fun a b hab => ?_
  obtain ⟨hname, -, htext⟩ := TableItem.content_eq hab
  unfold relationsOf
  rw [Rearranged, htext, List.map_filterMap, List.map_filterMap]
  refine .of_eq (List.filterMap_congr fun fk _ => ?_)
  split
  · simp [Relation.content, hname]
  · rfl

theorem mutualReference?_eq_none {relations : List Relation} (h : relations.length ≠ 2) :
    mutualReference? relations = none := by
  match relations with
  | [] | [_] | _ :: _ :: _ :: _ => rfl
  | [_, _] => exact absurd rfl h

theorem summary_mutualReference? (first second : Relation) :
    (mutualReference? [first, second]).map Finding.summary =
      if nameKey first.fromTable = nameKey second.fromTable then none
      else some ⟨.overlappingRelations, none, {first.fromColumn, second.fromColumn}, none⟩ := by
  rw [mutualReference?]
  split
  · rfl
  · simp

/-- Two relations may be given in either order. -/
theorem summary_mutualReference?_of_rearranged {relations relations' : List Relation}
    (h : Rearranged Relation.content relations relations') :
    (mutualReference? relations).map Finding.summary =
      (mutualReference? relations').map Finding.summary := by
  have hlength : relations.length = relations'.length := by simpa using List.Perm.length_eq h
  by_cases htwo : relations.length = 2
  · obtain ⟨zs, hzs, hperm⟩ := h.exists_forall₂
    obtain ⟨a, b, rfl⟩ := List.length_eq_two.mp htwo
    obtain ⟨c, d, rfl⟩ := List.length_eq_two.mp (hlength.symm.trans htwo)
    rw [summary_mutualReference?, summary_mutualReference?]
    rcases List.perm_pair.mp hperm with rfl | rfl
    · simp only [List.forall₂_cons, List.forall₂_nil_right_iff, and_true] at hzs
      obtain ⟨hafrom, hacolumn, -⟩ := Relation.content_eq hzs.1
      obtain ⟨hbfrom, hbcolumn, -⟩ := Relation.content_eq hzs.2
      rw [hafrom, hacolumn, hbfrom, hbcolumn]
    · simp only [List.forall₂_cons, List.forall₂_nil_right_iff, and_true] at hzs
      obtain ⟨hafrom, hacolumn, -⟩ := Relation.content_eq hzs.1
      obtain ⟨hbfrom, hbcolumn, -⟩ := Relation.content_eq hzs.2
      rw [hafrom, hacolumn, hbfrom, hbcolumn, Finset.pair_comm]
      exact if_congr eq_comm rfl rfl
  · rw [mutualReference?_eq_none htwo, mutualReference?_eq_none (hlength ▸ htwo)]

theorem rearranged_mutualReferences (h : s.Rearranges s') :
    Rearranged Finding.summary (mutualReferences s) (mutualReferences s') :=
  h.relations.groupBy_filterMap (fun _ _ hrt => (Relation.content_eq hrt).2.2)
    fun _ _ _ hgroup => summary_mutualReference?_of_rearranged hgroup

/-! ## Self-references -/

/-- A self-reference without its position. -/
def SelfReference.content (r : SelfReference) : String × String := (r.table.name, r.columnKey)

theorem rearranged_selfReferences (h : s.Rearranges s') :
    Rearranged Finding.summary (selfReferences s) (selfReferences s') := by
  have hnull : ∀ tableKey columnKey, declaredNotNull s.columns tableKey columnKey =
      declaredNotNull s'.columns tableKey columnKey := by
    intro tableKey columnKey
    rw [declaredNotNull_eq_any, declaredNotNull_eq_any]
    refine h.columns.any_eq fun c d hcd => ?_
    obtain ⟨-, hkey, -, hcolumn⟩ := DeclaredColumn.content_eq hcd
    rw [hkey, hcolumn]
  have hreferences : Rearranged SelfReference.content (s.items.flatMap (selfReferencesOf s))
      (s'.items.flatMap (selfReferencesOf s')) := by
    refine h.items_rearranged.flatMap fun a b hab => ?_
    obtain ⟨hname, hkey, htext⟩ := TableItem.content_eq hab
    unfold selfReferencesOf allForeignKeys
    rw [Rearranged, hkey, htext, List.map_flatMap, List.map_flatMap]
    refine .of_eq (List.flatMap_congr fun fk _ => ?_)
    rw [List.map_map, List.map_map]
    refine List.map_congr_left fun column _ => ?_
    simp [SelfReference.content, hname]
  refine (hreferences.filter fun r t hrt => ?_).map fun r t hrt => ?_
  · rw [SelfReference.content, SelfReference.content, Prod.mk.injEq] at hrt
    rw [hnull, TableDecl.key, TableDecl.key, hrt.1, hrt.2]
  · rw [SelfReference.content, SelfReference.content, Prod.mk.injEq] at hrt
    simp [selfReferenceFinding, hrt.1, hrt.2]

/-! ## Cascading deletes -/

theorem summary_cascadeFinding (s : Source) (g : CascadeGraph) (cycle : List String) :
    (cascadeFinding s g cycle).summary = ⟨.cascadeDeleteCycle, none, ∅, none⟩ := rfl

theorem rearranged_cascadeCycles (h : s.Rearranges s') :
    Rearranged Finding.summary (cascadeCycles s) (cascadeCycles s') := by
  have hleads : CascadeGraph.Leads s.cascadeGraph.arrows = CascadeGraph.Leads s'.cascadeGraph.arrows := by
    funext a b
    exact propext h.arrows.mem_iff
  have hnone : s.cascadeGraph.firstCycle? = none ↔ s'.cascadeGraph.firstCycle? = none := by
    rw [CascadeGraph.firstCycle?_eq_none_iff, CascadeGraph.firstCycle?_eq_none_iff, hleads]
  unfold cascadeCycles Rearranged
  dsimp only
  cases hcycle : s.cascadeGraph.firstCycle? with
  | none =>
    rw [hnone.mp hcycle]
    exact .refl _
  | some cycle =>
    obtain ⟨cycle', hcycle'⟩ := Option.ne_none_iff_exists'.mp
      (mt hnone.mpr (by rw [hcycle]; exact Option.some_ne_none cycle))
    rw [hcycle']
    simp [summary_cascadeFinding]

/-! ## All detectors -/

theorem Detector.rearranged_find (h : s.Rearranges s') (d : Detector) :
    Rearranged Finding.summary (d.find s) (d.find s') := by
  cases d with
  | conflictingTypes => exact rearranged_typeConflicts h
  | defaultValueConflict => exact rearranged_defaultConflicts h
  | reservedWords => exact rearranged_reservedWordColumns h
  | nullPrimaryKey => exact rearranged_nullableKeys h
  | indexAnomalies => exact rearranged_indexAnomalies h
  | redundantUniqueIndex => exact rearranged_redundantIndexes h
  | tablesWithoutRelations => exact rearranged_isolatedTables h
  | missingPotentialKeys => exact rearranged_missingKeys h
  | unnecessaryIndexes => exact rearranged_unnecessaryIndexes h
  | wrongAlternateKey => exact rearranged_missingAlternates h
  | unnecessaryCheckConstraints => exact rearranged_uselessChecks h
  | unnecessaryForeignKeys => exact rearranged_foreignKeyConflicts h
  | undefinedRelations => exact rearranged_undefinedRelations h
  | overlappingRelations => exact rearranged_mutualReferences h
  | incorrectRecursiveRelation => exact rearranged_selfReferences h
  | infiniteDeleteCascade => exact rearranged_cascadeCycles h

end

end SchemaReview
