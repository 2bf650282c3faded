import SchemaReview.Catalog.Build
import SchemaReview.Proofs.Catalog.Growth
import SchemaReview.Proofs.Scope.Events
import SchemaReview.Proofs.Sequence
import SchemaReview.Scope.TableKeys

/-!
# Proofs.Catalog.TableKeys — detectors and catalog read the same keys

The detectors collect the declared tables first and then pick the items of each
(`Source.tableKeys`).  A catalog is built in one pass over the scope events (`Catalog.read`), and
changes the tables it has already.  Both are compared with `declaredKeys`, the keys that a list of
tables and a list of items declare.

* `keyFacts_tableKeys`: what the detectors collect.
* `keyFacts_readEvent_enter`, `keyFacts_readEvent_item`: what one event does to a catalog.  Entering
  a table relies on an item standing behind the header of its table (`EventRun.table_mem`): a table
  that is new has no items yet.
* `keyFacts_foldl_readEvent`: so a pass over the events gives the declared keys.
-/

namespace SchemaReview

/-! ## Key facts -/

/-- What is known of the keys of a table. -/
structure KeyFacts where
  key : String
  name : String
  line : Nat
  primaryKey : List String
  uniques : List (List String)
deriving DecidableEq, Repr

/-- The facts with those of one more item. -/
def KeyFacts.add (f : KeyFacts) (item : TableItem) : KeyFacts :=
  { f with
    primaryKey := item.primaryKeyColumns.foldl appendNew f.primaryKey
    uniques := f.uniques ++ item.uniqueKeys.map (·.columns) }

/-- A table without items. -/
def TableDecl.keyFacts (t : TableDecl) : KeyFacts := ⟨t.key, t.name, t.line, [], []⟩

def TableKeys.keyFacts (t : TableKeys) : KeyFacts :=
  ⟨t.key, t.name, t.line, t.primaryKey, t.uniques.map (·.columns)⟩

/-- The facts of a table that stands under `key`; no primary key is one without columns. -/
def CatalogTable.keyFacts (key : String) (t : CatalogTable) : KeyFacts :=
  ⟨key, t.name, t.line, (t.primaryKey.map (·.columns)).getD [], t.uniques.map (·.columns)⟩

def Catalog.keyFacts (c : Catalog) : List KeyFacts := c.tables.map fun (key, t) => t.keyFacts key

/-- The keys of the declared tables, in order of first declaration, from all items that name the
table. -/
def declaredKeys (tables : List TableDecl) (items : List TableItem) : List KeyFacts :=
  (firstBy TableDecl.key tables).map fun table =>
    (items.filter fun item => item.table.key = table.key).foldl KeyFacts.add table.keyFacts

@[simp] theorem KeyFacts.key_foldl_add (items : List TableItem) (f : KeyFacts) :
    (items.foldl KeyFacts.add f).key = f.key := by
  induction items generalizing f with
  | nil => rfl
  | cons item items ih => exact ih (f.add item)

/-! ## What the detectors collect -/

theorem appendNew_distinct {α : Type} [DecidableEq α] (xs : List α) (x : α) :
    appendNew (distinct xs) x = distinct (xs ++ [x]) := by
  unfold appendNew
  have hsplit : distinct (xs ++ [x]) = distinct xs ++ firstBy id ([x].filter fun y => y ∉ xs) := by
    simpa [distinct] using firstBy_append id xs [x]
  rw [hsplit]
  by_cases hx : x ∈ xs
  · rw [if_pos (mem_distinct.mpr hx), List.filter_cons_of_neg (by simpa using hx)]
    exact (List.append_nil _).symm
  · rw [if_neg (by simpa using hx), List.filter_cons_of_pos (by simpa using hx)]
    rfl

theorem foldl_appendNew_distinct {α : Type} [DecidableEq α] (xs ys : List α) :
    ys.foldl appendNew (distinct xs) = distinct (xs ++ ys) := by
  induction ys generalizing xs with
  | nil => rw [List.foldl_nil, List.append_nil]
  | cons y ys ih => rw [List.foldl_cons, appendNew_distinct, ih, List.append_assoc, List.singleton_append]

/-- Adding items one by one collects their key columns without repetitions. -/
theorem foldl_add_eq (items : List TableItem) (f : KeyFacts) (columns : List String)
    (hcolumns : f.primaryKey = distinct columns) :
    items.foldl KeyFacts.add f =
      { f with
        primaryKey := distinct (columns ++ items.flatMap TableItem.primaryKeyColumns)
        uniques := f.uniques ++ (items.flatMap TableItem.uniqueKeys).map (·.columns) } := by
  induction items generalizing f columns with
  | nil => simp [← hcolumns]
  | cons item items ih =>
    have hitem : (f.add item).primaryKey = distinct (columns ++ item.primaryKeyColumns) := by
      rw [KeyFacts.add, hcolumns, foldl_appendNew_distinct]
    rw [List.foldl_cons, ih (f.add item) _ hitem]
    simp [KeyFacts.add]

theorem keyFacts_tableKeys (s : Source) :
    s.tableKeys.map TableKeys.keyFacts = declaredKeys s.tables s.items := by
  unfold Source.tableKeys declaredKeys
  rw [List.map_map]
  refine List.map_congr_left fun table _ => ?_
  rw [foldl_add_eq _ table.keyFacts [] rfl]
  simp only [Function.comp_apply, TableKeys.keyFacts, Source.keysOf, TableDecl.keyFacts,
    List.filter_map, List.map_map, List.nil_append]
  have hid : ((fun entry : String × TableItem => entry.2) ∘
      fun item : TableItem => (item.table.key, item)) = id := rfl
  rw [hid, List.map_id]
  rfl

/-! ## What an event does to the catalog -/

/-- An item changes the facts of its table only. -/
theorem declaredKeys_append_item (tables : List TableDecl) (items : List TableItem)
    (item : TableItem) : declaredKeys tables (items ++ [item]) =
      (declaredKeys tables items).map fun f =>
        if f.key = item.table.key then f.add item else f := by
  unfold declaredKeys
  rw [List.map_map]
  refine List.map_congr_left fun table _ => ?_
  have hkey : table.keyFacts.key = table.key := rfl
  simp only [Function.comp_apply, List.filter_append, List.foldl_append, KeyFacts.key_foldl_add, hkey]
  by_cases h : item.table.key = table.key
  · simp [h]
  · have h' : ¬table.key = item.table.key := fun hsymm => h hsymm.symm
    simp [h, h']

/-- A table that is declared again changes nothing, and a new one comes last.  It has no items as
long as every item stands behind its table. -/
theorem declaredKeys_append_table {tables : List TableDecl} {items : List TableItem}
    (howned : ∀ item ∈ items, item.table ∈ tables) (table : TableDecl) :
    declaredKeys (tables ++ [table]) items =
      if table.key ∈ (declaredKeys tables items).map (·.key) then declaredKeys tables items
      else declaredKeys tables items ++ [table.keyFacts] := by
  have hkeys : (declaredKeys tables items).map (·.key) = (firstBy TableDecl.key tables).map
      TableDecl.key := by
    unfold declaredKeys
    rw [List.map_map]
    refine List.map_congr_left fun t _ => ?_
    exact KeyFacts.key_foldl_add _ _
  have hmem : table.key ∈ (declaredKeys tables items).map (·.key) ↔
      table.key ∈ tables.map TableDecl.key := by
    rw [hkeys]
    simpa [firstBy] using mem_map_firstByFrom TableDecl.key [] tables table.key
  rw [declaredKeys, firstBy_append]
  by_cases h : table.key ∈ tables.map TableDecl.key
  · rw [if_pos (hmem.mpr h), List.filter_cons_of_neg (by simpa using h)]
    simp [firstBy, firstByFrom, declaredKeys]
  · have hnone : (items.filter fun item => item.table.key = table.key) = [] := by
      rw [List.filter_eq_nil_iff]
      intro item hitem hkey
      apply h
      rw [← of_decide_eq_true hkey]
      exact List.mem_map_of_mem (howned item hitem)
    rw [if_neg (mt hmem.mp h), List.filter_cons_of_pos (by simpa using h), List.map_append]
    simp [firstBy, firstByFrom, declaredKeys, hnone]

theorem CatalogTable.keyFacts_extendPrimaryKey (t : CatalogTable) (name : Option String)
    (columns : List String) (line : Nat) (key : String) :
    (t.extendPrimaryKey name columns line).keyFacts key =
      { t.keyFacts key with
        primaryKey := columns.foldl appendNew (t.keyFacts key).primaryKey } := by
  unfold CatalogTable.extendPrimaryKey CatalogTable.keyFacts
  cases t.primaryKey with
  | none => rfl
  | some old => rfl

theorem CatalogTable.keyFacts_readColumn (s : Source) (piece : Piece) (c : Column) (key : String)
    (t : CatalogTable) : (t.readColumn s piece c).keyFacts key =
      { t.keyFacts key with
        primaryKey := (if c.isPrimaryKey then [c.key] else []).foldl appendNew
          (t.keyFacts key).primaryKey
        uniques := (t.keyFacts key).uniques ++ if c.isUnique then [[c.key]] else [] } := by
  -- neither the column nor its reference counts
  have hrest : ∀ t : CatalogTable, ((t.declareReference s piece c).addColumn
      (columnOf piece.line c)).keyFacts key = t.keyFacts key := by
    intro t
    unfold declareReference
    cases c.reference? <;> rfl
  rw [readColumn_eq, hrest, declarePrimaryKey, declareUnique]
  cases c.isPrimaryKey with
  | false => cases c.isUnique <;> simp [CatalogTable.keyFacts]
  | true =>
    rw [if_pos rfl, keyFacts_extendPrimaryKey]
    cases c.isUnique <;> simp [CatalogTable.keyFacts]

theorem CatalogTable.keyFacts_readConstraint (s : Source) (piece : Piece) (key : String)
    (t : CatalogTable) : (t.readConstraint s piece).keyFacts key =
      { t.keyFacts key with
        primaryKey := ((primaryKeyColumns? piece.text).getD []).foldl appendNew
          (t.keyFacts key).primaryKey
        uniques := (t.keyFacts key).uniques ++ uniqueColumnLists piece.text } := by
  unfold CatalogTable.readConstraint
  cases primaryKeyColumns? piece.text with
  | none => simp [CatalogTable.keyFacts, Function.comp_def]
  | some columns =>
    have hextend := t.keyFacts_extendPrimaryKey (constraintName? piece.text) columns piece.line key
    simp only [CatalogTable.keyFacts, KeyFacts.mk.injEq] at hextend
    simp [CatalogTable.keyFacts, Function.comp_def, hextend]

/-- Reading an item adds its keys; the checks do not matter. -/
theorem CatalogTable.keyFacts_readItem (s : Source) (table : TableDecl) (piece : Piece)
    (key : String) (t : CatalogTable) :
    (t.readItem s piece).keyFacts key = (t.keyFacts key).add ⟨table, piece⟩ := by
  have hchecks : (t.readChecks s piece).keyFacts key = t.keyFacts key := rfl
  unfold CatalogTable.readItem KeyFacts.add TableItem.primaryKeyColumns TableItem.uniqueKeys
  cases Column.ofText? piece.text with
  | some c =>
    dsimp only
    rw [keyFacts_readColumn, hchecks]
    cases c.isUnique <;> rfl
  | none =>
    dsimp only
    rw [keyFacts_readConstraint, hchecks, List.map_map]
    simp [Function.comp_def]

theorem keyFacts_readEvent_enter (s : Source) (c : Catalog) (table : TableDecl) :
    (c.readEvent s (.enter table)).keyFacts =
      if table.key ∈ c.keyFacts.map (·.key) then c.keyFacts else c.keyFacts ++ [table.keyFacts] := by
  have hkeys : c.keyFacts.map (·.key) = c.tables.keys := by
    unfold Catalog.keyFacts Keyed.keys
    rw [List.map_map]
    rfl
  rw [hkeys]
  unfold Catalog.readEvent Catalog.addTable Keyed.insertNew
  by_cases h : table.key ∈ c.tables.keys
  · have h' : nameKey table.name ∈ c.tables.keys := h
    simp only [if_pos h, if_pos h']
  · have h' : ¬nameKey table.name ∈ c.tables.keys := h
    simp only [if_neg h, if_neg h']
    simp [Catalog.keyFacts, CatalogTable.keyFacts, TableDecl.keyFacts, TableDecl.key]

theorem keyFacts_readEvent_item (s : Source) (c : Catalog) (table : TableDecl) (piece : Piece) :
    (c.readEvent s (.item table piece)).keyFacts =
      c.keyFacts.map fun f => if f.key = table.key then f.add ⟨table, piece⟩ else f := by
  unfold Catalog.readEvent Catalog.modifyTable Keyed.modify Catalog.keyFacts
  rw [List.map_map, List.map_map]
  refine List.map_congr_left ?_
  rintro ⟨key, t⟩ -
  by_cases h : key = table.key
  · have h' : key = nameKey table.name := h
    simp only [Function.comp_apply, if_pos h', CatalogTable.keyFacts_readItem s table]
    exact (if_pos h).symm
  · have h' : ¬key = nameKey table.name := h
    simp only [Function.comp_apply, if_neg h']
    exact (if_neg h).symm

/-! ## The whole pass -/

/-- A pass over the events of a run gives the declared keys.  The induction takes off the last
event, since a table is changed after it was added. -/
theorem keyFacts_foldl_readEvent {s : Source} {mode : ScopeMode} {p q : Progress}
    {events : List ScopeEvent} (hrun : EventRun s mode p events q) (hstart : p.tables = []) :
    (events.foldl (Catalog.readEvent s) {}).keyFacts =
      declaredKeys (events.filterMap ScopeEvent.opened?) (events.filterMap ScopeEvent.item?) := by
  induction events using List.reverseRecOn generalizing q with
  | nil => rfl
  | append_singleton events event ih =>
    obtain ⟨r, hbefore, -⟩ := hrun.exists_of_append
    have howned : ∀ item ∈ events.filterMap ScopeEvent.item?,
        item.table ∈ events.filterMap ScopeEvent.opened? := by
      intro item hitem
      rcases hbefore.table_mem item hitem with h | h
      · rw [hstart] at h
        cases h
      · exact h
    rw [List.foldl_append, List.foldl_cons, List.foldl_nil, List.filterMap_append,
      List.filterMap_append]
    cases event with
    | enter table =>
      have hitems : [ScopeEvent.enter table].filterMap ScopeEvent.item? = [] := rfl
      rw [keyFacts_readEvent_enter, ih hbefore, hitems, List.append_nil]
      exact (declaredKeys_append_table howned table).symm
    | item table piece =>
      have hopened : [ScopeEvent.item table piece].filterMap ScopeEvent.opened? = [] := rfl
      rw [keyFacts_readEvent_item, ih hbefore, hopened, List.append_nil]
      exact (declaredKeys_append_item _ _ ⟨table, piece⟩).symm
    | exit table line =>
      have hitems : [ScopeEvent.exit table line].filterMap ScopeEvent.item? = [] := rfl
      have hopened : [ScopeEvent.exit table line].filterMap ScopeEvent.opened? = [] := rfl
      rw [hitems, hopened, List.append_nil, List.append_nil]
      exact ih hbefore

theorem keyFacts_foldl_readIndex (c : Catalog) (indexes : List Index) :
    (indexes.foldl Catalog.readIndex c).keyFacts = c.keyFacts := by
  induction indexes generalizing c with
  | nil => rfl
  | cons i indexes ih => exact ih (c.readIndex i)

theorem keyFacts_readAddedForeignKey (c : Catalog) (a : AddedForeignKey) :
    (c.readAddedForeignKey a).keyFacts = c.keyFacts := by
  unfold Catalog.readAddedForeignKey Catalog.modifyTable Keyed.modify Catalog.keyFacts
  rw [List.map_map]
  refine List.map_congr_left ?_
  rintro ⟨key, t⟩ -
  simp only [Function.comp_apply]
  split <;> rfl

theorem keyFacts_foldl_readAddedForeignKey (c : Catalog) (added : List AddedForeignKey) :
    (added.foldl Catalog.readAddedForeignKey c).keyFacts = c.keyFacts := by
  induction added generalizing c with
  | nil => rfl
  | cons a added ih => rw [List.foldl_cons, ih, keyFacts_readAddedForeignKey]

/-- **Detectors and catalog agree on the keys.**  For every script they have the same tables in the
same order, each with the same name, line, primary key columns and lists of unique columns. -/
theorem catalog_keyFacts_eq (sql : String) : (Catalog.ofScript sql).keyFacts =
    (Source.ofString sql).tableKeys.map TableKeys.keyFacts := by
  obtain ⟨q, hrun, -⟩ := eventsFrom_run (scanInv_start (Source.ofString sql) .replace) 0 none
  rw [keyFacts_tableKeys, Catalog.ofScript, Catalog.read, Catalog.readSource,
    keyFacts_foldl_readAddedForeignKey, keyFacts_foldl_readIndex]
  exact keyFacts_foldl_readEvent hrun rfl

end SchemaReview
