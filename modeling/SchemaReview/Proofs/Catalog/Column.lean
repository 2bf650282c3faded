import SchemaReview.Proofs.Catalog.TableKeys
import SchemaReview.Proofs.Keyed
import SchemaReview.Scope.Column

/-!
# Proofs.Catalog.Column — the columns that a catalog holds

A column that is defined again takes the new definition in the old place.  So a catalog holds, under the keys of a
table and a column, the last definition that a script has for them.

* `column?_readEvent_enter`, `column?_readEvent_item`: what one event does to the columns.
* `column?_ofScript`: the columns after a whole script.
-/

namespace SchemaReview

/-! ## Columns of a table -/

namespace CatalogTable

theorem columns_readColumn (t : CatalogTable) (s : Source) (piece : Piece) (c : Column) :
    (t.readColumn s piece c).columns = t.columns.insert c.key (columnOf piece.line c) := by
  -- the keys and the reference of the column are written elsewhere
  have hunique : (t.declareUnique piece.line c).columns = t.columns := by
    unfold declareUnique
    split <;> rfl
  have hprimary : ((t.declareUnique piece.line c).declarePrimaryKey piece.line c).columns = t.columns := by
    rw [← hunique]
    unfold declarePrimaryKey
    split <;> rfl
  have hreference : (((t.declareUnique piece.line c).declarePrimaryKey piece.line c).declareReference s piece c).columns =
      t.columns := by
    rw [← hprimary]
    unfold declareReference
    split <;> rfl
  rw [readColumn_eq, addColumn, hreference]
  rfl

theorem columns_readConstraint (t : CatalogTable) (s : Source) (piece : Piece) :
    (t.readConstraint s piece).columns = t.columns := by
  unfold readConstraint
  cases primaryKeyColumns? piece.text <;> rfl

end CatalogTable

/-! ## Columns of a catalog -/

/-- The column that a definition gives to a catalog. -/
def DeclaredColumn.catalogColumn (d : DeclaredColumn) : CatalogColumn :=
  CatalogTable.columnOf d.piece.line d.column

/-- The definition is one of the column in the table. -/
def DeclaredColumn.Defines (d : DeclaredColumn) (tableKey columnKey : String) : Prop :=
  d.table.key = tableKey ∧ d.column.key = columnKey

instance (d : DeclaredColumn) (tableKey columnKey : String) : Decidable (d.Defines tableKey columnKey) :=
  inferInstanceAs (Decidable (_ ∧ _))

/-- The last definition of the column in the table. -/
def lastDefinition? (columns : List DeclaredColumn) (tableKey columnKey : String) : Option DeclaredColumn :=
  columns.reverse.find? fun d => d.Defines tableKey columnKey

theorem lastDefinition?_concat (columns : List DeclaredColumn) (d : DeclaredColumn) (tableKey columnKey : String) :
    lastDefinition? (columns ++ [d]) tableKey columnKey =
      if d.Defines tableKey columnKey then some d else lastDefinition? columns tableKey columnKey := by
  rw [lastDefinition?, List.reverse_append, List.reverse_singleton, List.singleton_append, List.find?_cons]
  split
  · rename_i h
    rw [if_pos (of_decide_eq_true h)]
  · rename_i h
    rw [if_neg (of_decide_eq_false h), lastDefinition?]

/-- Definitions of other columns leave the last one as it is. -/
theorem lastDefinition?_append {columns later : List DeclaredColumn} {tableKey columnKey : String}
    (h : ∀ d ∈ later, ¬ d.Defines tableKey columnKey) :
    lastDefinition? (columns ++ later) tableKey columnKey = lastDefinition? columns tableKey columnKey := by
  have hnone : later.reverse.find? (fun d => d.Defines tableKey columnKey) = none :=
    List.find?_eq_none.mpr fun d hd => by simpa using h d (List.mem_reverse.mp hd)
  rw [lastDefinition?, List.reverse_append, List.find?_append, hnone, Option.none_or, lastDefinition?]

namespace Catalog

/-- The column under the keys of a table and a column. -/
def column? (c : Catalog) (tableKey columnKey : String) : Option CatalogColumn :=
  (c.tables.get? tableKey).bind fun t => t.columns.get? columnKey

variable (s : Source) (c : Catalog) (tableKey columnKey : String)

theorem keys_readEvent_subset (event : ScopeEvent) : c.tables.keys ⊆ (c.readEvent s event).tables.keys := by
  intro key hkey
  cases event with
  | enter table => exact Keyed.mem_keys_insertNew.mpr (Or.inl hkey)
  | item table piece =>
    show key ∈ (c.tables.modify _ _).keys
    rwa [Keyed.keys_modify]
  | exit => exact hkey

/-- A table that was opened is in the catalog. -/
theorem key_mem_of_opened {events : List ScopeEvent} {table : TableDecl}
    (h : table ∈ events.filterMap ScopeEvent.opened?) :
    table.key ∈ (events.foldl (readEvent s) {}).tables.keys := by
  induction events using List.reverseRecOn with
  | nil => cases h
  | append_singleton events event ih =>
    rw [List.filterMap_append, List.mem_append] at h
    rw [List.foldl_append, List.foldl_cons, List.foldl_nil]
    rcases h with h | h
    · exact keys_readEvent_subset s _ event (ih h)
    · cases event with
      | enter opened =>
        obtain rfl : table = opened := List.mem_singleton.mp h
        exact Keyed.mem_keys_insertNew.mpr (Or.inr rfl)
      | item => cases h
      | exit => cases h

/-- A table that is new has no columns. -/
theorem column?_readEvent_enter (table : TableDecl) :
    (c.readEvent s (.enter table)).column? tableKey columnKey = c.column? tableKey columnKey := by
  show (Keyed.get? (c.tables.insertNew _ _) tableKey).bind _ = (c.tables.get? tableKey).bind _
  rw [Keyed.get?_insertNew]
  cases c.tables.get? tableKey with
  | some t => rfl
  | none =>
    rw [Option.none_or]
    split <;> rfl

/-- An item changes the column that it defines. -/
theorem column?_readEvent_item (item : TableItem) (hmem : item.table.key ∈ c.tables.keys) :
    (c.readEvent s (.item item.table item.piece)).column? tableKey columnKey =
      match item.column? with
      | some d => if d.Defines tableKey columnKey then some d.catalogColumn else c.column? tableKey columnKey
      | none => c.column? tableKey columnKey := by
  show (Keyed.get? (c.tables.modify item.table.key (CatalogTable.readItem s item.piece)) tableKey).bind _ = _
  rw [Keyed.get?_modify, TableItem.column?]
  by_cases htable : tableKey = item.table.key
  · subst htable
    obtain ⟨t, ht⟩ := Keyed.exists_get?_of_mem_keys hmem
    rw [if_pos rfl, column?, ht]
    show (CatalogTable.readItem s item.piece t).columns.get? columnKey = _
    rw [CatalogTable.readItem]
    cases Column.ofText? item.piece.text with
    | some column =>
      dsimp only [Option.map_some]
      rw [CatalogTable.columns_readColumn, Keyed.get?_insert]
      simp only [DeclaredColumn.Defines, true_and, eq_comm (a := columnKey)]
      rfl
    | none =>
      dsimp only [Option.map_none]
      rw [CatalogTable.columns_readConstraint]
      rfl
  · rw [if_neg htable]
    cases Column.ofText? item.piece.text with
    | some column =>
      have hother : ¬ DeclaredColumn.Defines ⟨item.table, item.piece, column⟩ tableKey columnKey :=
        fun h => htable h.1.symm
      exact (if_neg hother).symm
    | none => rfl

end Catalog

/-- A pass over the events of a run keeps the last definition of each column. -/
theorem column?_foldl_readEvent {s : Source} {mode : ScopeMode} {p q : Progress} {events : List ScopeEvent}
    (hrun : EventRun s mode p events q) (hstart : p.tables = []) (tableKey columnKey : String) :
    (events.foldl (Catalog.readEvent s) {}).column? tableKey columnKey =
      (lastDefinition? ((events.filterMap ScopeEvent.item?).filterMap TableItem.column?) tableKey columnKey).map
        DeclaredColumn.catalogColumn := by
  induction events using List.reverseRecOn generalizing q with
  | nil => rfl
  | append_singleton events event ih =>
    obtain ⟨r, hbefore, -⟩ := hrun.exists_of_append
    rw [List.foldl_append, List.foldl_cons, List.foldl_nil, List.filterMap_append, List.filterMap_append]
    cases event with
    | enter table =>
      rw [Catalog.column?_readEvent_enter, ih hbefore]
      exact congrArg _ (congrArg (lastDefinition? · tableKey columnKey) (List.append_nil _).symm)
    | exit table line =>
      refine (ih hbefore).trans ?_
      exact congrArg _ (congrArg (lastDefinition? · tableKey columnKey) (List.append_nil _).symm)
    | item table piece =>
      have hopened : table ∈ events.filterMap ScopeEvent.opened? := by
        have hitem : (⟨table, piece⟩ : TableItem) ∈ (events ++ [ScopeEvent.item table piece]).filterMap ScopeEvent.item? := by
          rw [List.filterMap_append]
          exact List.mem_append_right _ (List.mem_singleton_self _)
        rcases hrun.table_mem _ hitem with h | h
        · rw [hstart] at h
          cases h
        · rw [List.filterMap_append] at h
          exact (List.mem_append.mp h).resolve_right nofun
      have hstep := Catalog.column?_readEvent_item s _ tableKey columnKey ⟨table, piece⟩
        (Catalog.key_mem_of_opened s hopened)
      rw [hstep, ih hbefore]
      show _ = Option.map _ (lastDefinition? (_ ++ [(⟨table, piece⟩ : TableItem)].filterMap TableItem.column?) _ _)
      cases hcolumn : (⟨table, piece⟩ : TableItem).column? with
      | none => rw [List.filterMap_cons_none hcolumn, List.filterMap_nil, List.append_nil]
      | some d =>
        rw [List.filterMap_cons_some hcolumn, List.filterMap_nil, lastDefinition?_concat]
        dsimp only
        split <;> rfl

/-! ## Whole scripts -/

theorem column?_foldl_readIndex (c : Catalog) (indexes : List Index) (tableKey columnKey : String) :
    (indexes.foldl Catalog.readIndex c).column? tableKey columnKey = c.column? tableKey columnKey := by
  induction indexes generalizing c with
  | nil => rfl
  | cons i indexes ih => exact ih (c.readIndex i)

/-- A foreign key that is added to a table leaves its columns as they are. -/
theorem column?_readAddedForeignKey (c : Catalog) (a : AddedForeignKey) (tableKey columnKey : String) :
    (c.readAddedForeignKey a).column? tableKey columnKey = c.column? tableKey columnKey := by
  unfold Catalog.readAddedForeignKey Catalog.modifyTable Catalog.column?
  rw [Keyed.get?_modify]
  split
  · cases c.tables.get? tableKey <;> rfl
  · rfl

theorem column?_foldl_readAddedForeignKey (c : Catalog) (added : List AddedForeignKey)
    (tableKey columnKey : String) :
    (added.foldl Catalog.readAddedForeignKey c).column? tableKey columnKey = c.column? tableKey columnKey := by
  induction added generalizing c with
  | nil => rfl
  | cons a added ih => rw [List.foldl_cons, ih, column?_readAddedForeignKey]

/-- The catalog of a script holds the last definition of each column. -/
theorem column?_ofScript (sql : String) (tableKey columnKey : String) :
    (Catalog.ofScript sql).column? tableKey columnKey =
      (lastDefinition? (Source.ofString sql).columns tableKey columnKey).map DeclaredColumn.catalogColumn := by
  obtain ⟨q, hrun, -⟩ := eventsFrom_run (scanInv_start (Source.ofString sql) .replace) 0 none
  rw [Catalog.ofScript, Catalog.read, Catalog.readSource, column?_foldl_readAddedForeignKey, column?_foldl_readIndex]
  exact column?_foldl_readEvent hrun rfl tableKey columnKey

/-- The primary key of a table has the key columns of its items. -/
theorem mem_primaryKeyColumns_iff {sql tableKey : String} {table : CatalogTable}
    (h : (Catalog.ofScript sql).tables.get? tableKey = some table) (columnKey : String) :
    columnKey ∈ table.primaryKeyColumns ↔
      ∃ item ∈ (Source.ofString sql).items, item.table.key = tableKey ∧ columnKey ∈ item.primaryKeyColumns := by
  obtain ⟨q, hrun, -⟩ := eventsFrom_run (scanInv_start (Source.ofString sql) .replace) 0 none
  have hfacts : (Catalog.ofScript sql).keyFacts =
      declaredKeys (Source.ofString sql).tables (Source.ofString sql).items := by
    rw [Catalog.ofScript, Catalog.read, Catalog.readSource, keyFacts_foldl_readAddedForeignKey,
      keyFacts_foldl_readIndex]
    exact keyFacts_foldl_readEvent hrun rfl
  have hmem : table.keyFacts tableKey ∈ (Catalog.ofScript sql).keyFacts := by
    obtain ⟨before, after, htables, -⟩ := List.lookup_eq_some_iff.mp h
    refine List.mem_map.mpr ⟨(tableKey, table), ?_, rfl⟩
    rw [htables]
    exact List.mem_append_right _ List.mem_cons_self
  rw [hfacts] at hmem
  obtain ⟨decl, -, hdecl⟩ := List.mem_map.mp hmem
  have hkey : decl.key = tableKey := by
    have := congrArg KeyFacts.key hdecl
    rwa [KeyFacts.key_foldl_add] at this
  have hprimary : table.primaryKeyColumns = distinct
      (((Source.ofString sql).items.filter fun item => item.table.key = decl.key).flatMap
        TableItem.primaryKeyColumns) := by
    have := congrArg KeyFacts.primaryKey hdecl
    rw [foldl_add_eq _ decl.keyFacts [] rfl] at this
    exact this.symm
  rw [hprimary, mem_distinct, List.mem_flatMap, hkey]
  simp only [List.mem_filter, decide_eq_true_eq, and_assoc]

end SchemaReview
