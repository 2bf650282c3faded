import SchemaReview.Detector.Run
import SchemaReview.Proofs.Catalog.Column

/-!
# Proofs.Detector.NullableKey — nullable primary keys, as the detector and as the catalog see them

The detector goes through the items and judges a key column by the last definition that it has seen.  A catalog is
built up from the same items and is asked when it is complete.

* `reportsNullableKey_iff`: what the detector reports, by the last definition up to the item that declares the key.
* `hasNullableKey_iff`: what the catalog holds, by the last definition of all.
* `reported_nullable_keys_eq_catalog`: the two definitions are the same one, when no column is defined twice and
  no table-level key stands in front of a definition of its columns.
-/

namespace SchemaReview

/-- The finding is about the column of the table. -/
def Finding.Names (f : Finding) (tableKey columnKey : String) : Prop :=
  f.table.map nameKey = some tableKey ∧ columnKey ∈ f.columns

instance (f : Finding) (tableKey columnKey : String) : Decidable (f.Names tableKey columnKey) :=
  inferInstanceAs (Decidable (_ ∧ _))

/-- The detector reports the column of the table as a nullable primary key. -/
def ReportsNullableKey (sql tableKey columnKey : String) : Prop :=
  ∃ f ∈ Detector.nullPrimaryKey.run sql, f.Names tableKey columnKey

instance (sql tableKey columnKey : String) : Decidable (ReportsNullableKey sql tableKey columnKey) :=
  inferInstanceAs (Decidable (∃ f ∈ Detector.nullPrimaryKey.run sql, f.Names tableKey columnKey))

/-- The catalog holds the column as a nullable one and as a primary key column of the table. -/
def Catalog.HasNullableKey (c : Catalog) (tableKey columnKey : String) : Prop :=
  ∃ table, c.tables.get? tableKey = some table ∧ columnKey ∈ table.primaryKeyColumns ∧
    ∃ column, table.columns.get? columnKey = some column ∧ column.nullable = true

/-! ## What the detector reports -/

/-- A definition as the detector remembers it. -/
def DeclaredColumn.seen (d : DeclaredColumn) : SeenColumn :=
  ⟨d.table.key, d.column.key, d.column.name, d.column.isNotNull, d.piece⟩

/-- The definitions of the items, latest first. -/
def seenIn (items : List TableItem) : List SeenColumn :=
  (items.filterMap TableItem.column?).reverse.map DeclaredColumn.seen

theorem seenIn_concat (items : List TableItem) (item : TableItem) :
    seenIn (items ++ [item]) = (item.column?.map DeclaredColumn.seen).toList ++ seenIn items := by
  rw [seenIn, List.filterMap_append, List.reverse_append, List.map_append, seenIn]
  cases hcolumn : item.column? with
  | none => rw [List.filterMap_cons_none hcolumn]; rfl
  | some d => rw [List.filterMap_cons_some hcolumn]; rfl

theorem seenColumn?_seenIn (items : List TableItem) (tableKey columnKey : String) :
    seenColumn? (seenIn items) tableKey columnKey =
      (lastDefinition? (items.filterMap TableItem.column?) tableKey columnKey).map DeclaredColumn.seen := by
  rw [seenColumn?, seenIn, List.find?_map]
  rfl

/-- The findings for an item, from the definitions in front of it. -/
def nullableKeysOf (s : Source) (seen : List SeenColumn) (item : TableItem) : List Finding :=
  match Column.ofText? item.piece.text with
  | some column => if column.isPrimaryKey && !column.isNotNull then [inlineNullableKey s item column] else []
  | none => listedNullableKeys s seen item

theorem nullableKeysFrom_cons (s : Source) (front : List TableItem) (item : TableItem) (items : List TableItem) :
    nullableKeysFrom s (seenIn front) (item :: items) =
      nullableKeysOf s (seenIn front) item ++ nullableKeysFrom s (seenIn (front ++ [item])) items := by
  rw [nullableKeysFrom, nullableKeysOf, seenIn_concat, TableItem.column?]
  cases Column.ofText? item.piece.text <;> rfl

/-- A finding is one for an item, from the definitions in front of it. -/
theorem mem_nullableKeysFrom_iff {s : Source} {f : Finding} (front items : List TableItem) :
    f ∈ nullableKeysFrom s (seenIn front) items ↔
      ∃ before item after, items = before ++ item :: after ∧ f ∈ nullableKeysOf s (seenIn (front ++ before)) item := by
  induction items generalizing front with
  | nil => simp [nullableKeysFrom]
  | cons item items ih =>
    rw [nullableKeysFrom_cons, List.mem_append, ih]
    constructor
    · rintro (hf | ⟨before, later, after, rfl, hf⟩)
      · exact ⟨[], item, items, rfl, by rwa [List.append_nil]⟩
      · exact ⟨item :: before, later, after, rfl, by rwa [List.append_cons]⟩
    · rintro ⟨before, later, after, hcut, hf⟩
      rcases List.cons_eq_append_iff.mp hcut with ⟨rfl, hcons⟩ | ⟨before, rfl, rfl⟩
      · obtain ⟨rfl, rfl⟩ := List.cons.inj hcons
        rw [List.append_nil] at hf
        exact Or.inl hf
      · rw [List.append_cons] at hf
        exact Or.inr ⟨before, later, after, rfl, hf⟩

/-- The last definition up to the item allows null values. -/
def NullableAt (before : List TableItem) (item : TableItem) (columnKey : String) : Prop :=
  ∃ d, lastDefinition? ((before ++ [item]).filterMap TableItem.column?) item.table.key columnKey = some d ∧
    d.column.isNotNull = false

theorem inlineNullableKey_names_iff {s : Source} {item : TableItem} {column : Column} {tableKey columnKey : String} :
    (inlineNullableKey s item column).Names tableKey columnKey ↔
      item.table.key = tableKey ∧ columnKey = column.key := by
  simp [Finding.Names, inlineNullableKey, Finding.new, Finding.withSpan, Finding.withTable, Finding.withColumns,
    Finding.withHelp, TableDecl.key]

theorem listedNullableKey_names_iff {s : Source} {item : TableItem} {c : SeenColumn} {tableKey columnKey : String} :
    (listedNullableKey s item c).Names tableKey columnKey ↔
      item.table.key = tableKey ∧ columnKey = c.columnKey := by
  simp [Finding.Names, listedNullableKey, Finding.new, Finding.withSpan, Finding.withNote, Finding.withTable,
    Finding.withColumns, Finding.withHelp, TableDecl.key]

/-- An inline key is judged by the definition that it stands in. -/
theorem nullableAt_of_column {item : TableItem} {own : DeclaredColumn} (hown : item.column? = some own)
    (before : List TableItem) : NullableAt before item own.column.key ↔ own.column.isNotNull = false := by
  have htable : own.table = item.table := by
    obtain ⟨column, -, rfl⟩ := Option.map_eq_some_iff.mp hown
    rfl
  have hdefines : own.Defines item.table.key own.column.key := ⟨congrArg TableDecl.key htable, rfl⟩
  rw [NullableAt, List.filterMap_append, List.filterMap_cons_some hown, List.filterMap_nil, lastDefinition?_concat,
    if_pos hdefines]
  simp

/-- A key in a clause of its own is judged by the definitions in front of it. -/
theorem nullableAt_of_constraint {item : TableItem} (hown : item.column? = none) (before : List TableItem)
    (columnKey : String) :
    NullableAt before item columnKey ↔
      ∃ c, seenColumn? (seenIn before) item.table.key columnKey = some c ∧ c.notNull = false := by
  rw [NullableAt, List.filterMap_append, List.filterMap_cons_none hown, List.filterMap_nil, List.append_nil,
    seenColumn?_seenIn]
  simp [DeclaredColumn.seen]

/-- A finding for a clause is about a listed column whose definition allows null values. -/
theorem mem_listedNullableKeys_iff {s : Source} {seen : List SeenColumn} {item : TableItem} {f : Finding} :
    f ∈ listedNullableKeys s seen item ↔
      ∃ key ∈ (primaryKeyColumns? item.piece.text).getD [], ∃ c, seenColumn? seen item.table.key key = some c ∧
        c.notNull = false ∧ f = listedNullableKey s item c := by
  rw [listedNullableKeys, List.mem_filterMap]
  refine exists_congr fun key => and_congr_right fun _ => ?_
  cases seenColumn? seen item.table.key key with
  | none => simp
  | some c =>
    constructor
    · intro hf
      dsimp only at hf
      split at hf
      · cases hf
      · rename_i hnull
        exact ⟨c, rfl, eq_false_of_ne_true hnull, (Option.some.inj hf).symm⟩
    · rintro ⟨c, hc, hnull, rfl⟩
      obtain rfl := Option.some.inj hc
      dsimp only
      rw [hnull]
      rfl

/-- The definition that is found is one of the column. -/
theorem columnKey_of_seenColumn? {seen : List SeenColumn} {tableKey columnKey : String} {c : SeenColumn}
    (h : seenColumn? seen tableKey columnKey = some c) : c.columnKey = columnKey := by
  have hfound := List.find?_some h
  exact (of_decide_eq_true hfound).2

/-- The detector reports the key columns of an item whose last definition allows null values. -/
theorem exists_nullableKeysOf_iff (s : Source) (before : List TableItem) (item : TableItem)
    (tableKey columnKey : String) :
    (∃ f ∈ nullableKeysOf s (seenIn before) item, f.Names tableKey columnKey) ↔
      item.table.key = tableKey ∧ columnKey ∈ item.primaryKeyColumns ∧ NullableAt before item columnKey := by
  unfold nullableKeysOf TableItem.primaryKeyColumns
  -- a column answers for itself, and a constraint for the columns that it lists
  cases hcolumn : Column.ofText? item.piece.text with
  | some column =>
    have hown : item.column? = some ⟨item.table, item.piece, column⟩ := by rw [TableItem.column?, hcolumn]; rfl
    have hnullable : NullableAt before item column.key ↔ column.isNotNull = false := nullableAt_of_column hown before
    dsimp only
    constructor
    · rintro ⟨f, hf, hf'⟩
      split at hf
      · rename_i hkey
        obtain rfl := List.mem_singleton.mp hf
        obtain ⟨htable, rfl⟩ := inlineNullableKey_names_iff.mp hf'
        rw [Bool.and_eq_true, Bool.not_eq_true'] at hkey
        exact ⟨htable, by rw [if_pos hkey.1]; exact List.mem_singleton_self _, hnullable.mpr hkey.2⟩
      · cases hf
    · rintro ⟨htable, hkey, hnull⟩
      split at hkey
      · rename_i hprimary
        obtain rfl := List.mem_singleton.mp hkey
        refine ⟨inlineNullableKey s item column, ?_, inlineNullableKey_names_iff.mpr ⟨htable, rfl⟩⟩
        rw [hprimary, hnullable.mp hnull]
        exact List.mem_singleton_self _
      · cases hkey
  | none =>
    have hown : item.column? = none := by rw [TableItem.column?, hcolumn]; rfl
    rw [nullableAt_of_constraint hown]
    constructor
    · rintro ⟨f, hf, hf'⟩
      obtain ⟨key, hkey, c, hseen, hnull, rfl⟩ := mem_listedNullableKeys_iff.mp hf
      obtain ⟨htable, rfl⟩ := listedNullableKey_names_iff.mp hf'
      obtain rfl := columnKey_of_seenColumn? hseen
      exact ⟨htable, hkey, c, hseen, hnull⟩
    · rintro ⟨htable, hkey, c, hseen, hnull⟩
      exact ⟨_, mem_listedNullableKeys_iff.mpr ⟨columnKey, hkey, c, hseen, hnull, rfl⟩,
        listedNullableKey_names_iff.mpr ⟨htable, (columnKey_of_seenColumn? hseen).symm⟩⟩

/-- What the detector reports. -/
theorem reportsNullableKey_iff (sql tableKey columnKey : String) :
    ReportsNullableKey sql tableKey columnKey ↔
      ∃ before item after, (Source.ofString sql).items = before ++ item :: after ∧ item.table.key = tableKey ∧
        columnKey ∈ item.primaryKeyColumns ∧ NullableAt before item columnKey := by
  have hmem : ∀ f, f ∈ Detector.nullPrimaryKey.run sql ↔ ∃ before item after,
      (Source.ofString sql).items = before ++ item :: after ∧
        f ∈ nullableKeysOf (Source.ofString sql) (seenIn before) item :=
    fun f => mem_nullableKeysFrom_iff [] (Source.ofString sql).items
  constructor
  · rintro ⟨f, hf, hnames⟩
    obtain ⟨before, item, after, hcut, hf⟩ := (hmem f).mp hf
    exact ⟨before, item, after, hcut, (exists_nullableKeysOf_iff _ before item _ _).mp ⟨f, hf, hnames⟩⟩
  · rintro ⟨before, item, after, hcut, hkey⟩
    obtain ⟨f, hf, hnames⟩ := (exists_nullableKeysOf_iff (Source.ofString sql) before item _ _).mpr hkey
    exact ⟨f, (hmem f).mpr ⟨before, item, after, hcut, hf⟩, hnames⟩

/-! ## What the catalog holds -/

theorem hasNullableKey_iff (sql tableKey columnKey : String) :
    (Catalog.ofScript sql).HasNullableKey tableKey columnKey ↔
      (∃ item ∈ (Source.ofString sql).items, item.table.key = tableKey ∧ columnKey ∈ item.primaryKeyColumns) ∧
        ∃ d, lastDefinition? (Source.ofString sql).columns tableKey columnKey = some d ∧
          d.column.isNotNull = false := by
  have hcolumn := column?_ofScript sql tableKey columnKey
  constructor
  · rintro ⟨table, htable, hprimary, column, hget, hnullable⟩
    rw [Catalog.column?, htable, Option.bind_some, hget] at hcolumn
    obtain ⟨d, hd, rfl⟩ := Option.map_eq_some_iff.mp hcolumn.symm
    exact ⟨(mem_primaryKeyColumns_iff htable columnKey).mp hprimary, d, hd, (Bool.not_eq_true' _).mp hnullable⟩
  · rintro ⟨hitem, d, hd, hnullable⟩
    rw [hd, Option.map_some] at hcolumn
    obtain ⟨table, htable, hget⟩ := Option.bind_eq_some_iff.mp hcolumn
    refine ⟨table, htable, (mem_primaryKeyColumns_iff htable columnKey).mpr hitem, _, hget, ?_⟩
    show (!d.column.isNotNull) = true
    rw [hnullable]
    rfl

/-! ## Both -/

/-- The columns that a table-level primary key lists. -/
def TableItem.listedKeys (item : TableItem) : List String :=
  match Column.ofText? item.piece.text with
  | some _ => []
  | none => (primaryKeyColumns? item.piece.text).getD []

/-- Each column is defined once in its table, and no table-level primary key stands in front of a definition of one of
its columns. -/
structure Source.DefinesBeforeKeys (s : Source) : Prop where
  once : s.columns.Pairwise fun d later => ¬ later.Defines d.table.key d.column.key
  before_keys : s.items.Pairwise fun item later =>
    ∀ columnKey ∈ item.listedKeys, ∀ d ∈ later.column?, ¬ d.Defines item.table.key columnKey

instance (s : Source) : Decidable s.DefinesBeforeKeys :=
  decidable_of_iff
    ((s.columns.Pairwise fun d later => ¬ later.Defines d.table.key d.column.key) ∧
      s.items.Pairwise fun item later =>
        ∀ columnKey ∈ item.listedKeys, ∀ d ∈ later.column?, ¬ d.Defines item.table.key columnKey)
    ⟨fun h => ⟨h.1, h.2⟩, fun h => ⟨h.once, h.before_keys⟩⟩

/-- Nothing behind a key defines one of its columns. -/
theorem Source.DefinesBeforeKeys.not_defines {s : Source} (h : s.DefinesBeforeKeys) {before after : List TableItem}
    {item : TableItem} (hcut : s.items = before ++ item :: after) {columnKey : String}
    (hkey : columnKey ∈ item.primaryKeyColumns) :
    ∀ d ∈ after.filterMap TableItem.column?, ¬ d.Defines item.table.key columnKey := by
  intro d hd
  obtain ⟨later, hlater, hcolumn⟩ := List.mem_filterMap.mp hd
  cases hown : Column.ofText? item.piece.text with
  | some column =>
    have hitem : item.column? = some ⟨item.table, item.piece, column⟩ := by rw [TableItem.column?, hown]; rfl
    -- an inline key is one of the column that the item defines
    obtain rfl : columnKey = column.key := by
      rw [TableItem.primaryKeyColumns, hown] at hkey
      dsimp only at hkey
      split at hkey
      · exact List.mem_singleton.mp hkey
      · cases hkey
    have honce := h.once
    rw [Source.columns, hcut, List.filterMap_append, List.filterMap_cons_some hitem, List.pairwise_append] at honce
    exact (List.pairwise_cons.mp honce.2.1).1 d hd
  | none =>
    have hlisted : columnKey ∈ item.listedKeys := by
      rw [TableItem.primaryKeyColumns, hown] at hkey
      rwa [TableItem.listedKeys, hown]
    have hpairs := h.before_keys
    rw [hcut, List.pairwise_append] at hpairs
    exact (List.pairwise_cons.mp hpairs.2.1).1 later hlater columnKey hlisted d hcolumn

/-- **The detector and the catalog agree on nullable primary keys.** -/
theorem reported_nullable_keys_eq_catalog (sql : String) (h : (Source.ofString sql).DefinesBeforeKeys)
    (tableKey columnKey : String) :
    ReportsNullableKey sql tableKey columnKey ↔ (Catalog.ofScript sql).HasNullableKey tableKey columnKey := by
  have hlast : ∀ {before item after}, (Source.ofString sql).items = before ++ item :: after →
      columnKey ∈ item.primaryKeyColumns →
      lastDefinition? ((before ++ [item]).filterMap TableItem.column?) item.table.key columnKey =
        lastDefinition? (Source.ofString sql).columns item.table.key columnKey := by
    intro before item after hcut hkey
    have hcolumns : (Source.ofString sql).columns =
        (before ++ [item]).filterMap TableItem.column? ++ after.filterMap TableItem.column? := by
      rw [Source.columns, hcut, List.append_cons, List.filterMap_append]
    rw [hcolumns, lastDefinition?_append (h.not_defines hcut hkey)]
  rw [reportsNullableKey_iff, hasNullableKey_iff]
  constructor
  · rintro ⟨before, item, after, hcut, rfl, hkey, d, hd, hnull⟩
    have hitem : item ∈ (Source.ofString sql).items := by
      rw [hcut]
      exact List.mem_append_right _ List.mem_cons_self
    exact ⟨⟨item, hitem, rfl, hkey⟩, d, hlast hcut hkey ▸ hd, hnull⟩
  · rintro ⟨⟨item, hitem, rfl, hkey⟩, d, hd, hnull⟩
    obtain ⟨before, after, hcut⟩ := List.append_of_mem hitem
    exact ⟨before, item, after, hcut, rfl, hkey, d, (hlast hcut hkey).trans hd, hnull⟩

/-- An inline key, and a clause over two columns of which the second allows null values. -/
def keyedScript : String := "CREATE TABLE a (id INT PRIMARY KEY, m INT NOT NULL, n INT, PRIMARY KEY (m, n));"

theorem nullable_keys_of_keyed_script :
    (Source.ofString keyedScript).DefinesBeforeKeys ∧ (Catalog.ofScript keyedScript).HasNullableKey "A" "ID" ∧
      (Catalog.ofScript keyedScript).HasNullableKey "A" "N" ∧
      ¬ (Catalog.ofScript keyedScript).HasNullableKey "A" "M" := by
  have hreports : (Source.ofString keyedScript).DefinesBeforeKeys ∧ ReportsNullableKey keyedScript "A" "ID" ∧
      ReportsNullableKey keyedScript "A" "N" ∧ ¬ ReportsNullableKey keyedScript "A" "M" := by
    decide +kernel
  obtain ⟨hkeys, hinline, hlisted, hforbidden⟩ := hreports
  exact ⟨hkeys, (reported_nullable_keys_eq_catalog keyedScript hkeys "A" "ID").mp hinline,
    (reported_nullable_keys_eq_catalog keyedScript hkeys "A" "N").mp hlisted,
    (reported_nullable_keys_eq_catalog keyedScript hkeys "A" "M").not.mp hforbidden⟩

end SchemaReview
