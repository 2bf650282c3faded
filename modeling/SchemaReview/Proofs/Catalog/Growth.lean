import Mathlib.Data.List.Infix
import Mathlib.Data.List.Nodup
import SchemaReview.Catalog.Build
import SchemaReview.Proofs.Keyed

/-!
# Proofs.Catalog.Growth — a catalog stays consistent and only grows

Scripts are read one after the other into the same catalog.  Tables are declared again, columns are
defined again, keys are extended by several clauses, and foreign keys come from other statements.

* `Keyed.NamedBy name m`: every key stands once and is the key of the name of its value.
* `CatalogTable.Consistent`, `Catalog.Consistent`: the flags of the columns agree with the keys of
  the table.
* `CatalogTable.Extends`, `Catalog.Extends`: what was there before comes first and has kept its name
  and line.  Both are transitive, so that a script can be followed write by write.
* `readItem_consistent`, `readItem_extends`: what one item does to its table.
* `readSource_consistent`, `readSource_extends`: what one script does to the catalog.
-/

namespace SchemaReview

/-! ## Values by key -/

namespace Keyed

variable {β : Type} {m : Keyed String β}

/-- Every key stands once and is the key of the name of its value. -/
structure NamedBy (name : β → String) (m : Keyed String β) : Prop where
  nodup : m.keys.Nodup
  key_eq : ∀ entry ∈ m, entry.1 = nameKey (name entry.2)

namespace NamedBy

variable {name : β → String}

theorem nil : NamedBy name [] := ⟨List.nodup_nil, by simp⟩

theorem modify (h : NamedBy name m) (key : String) {f : β → β} (hf : ∀ v, name (f v) = name v) :
    NamedBy name (m.modify key f) := by
  refine ⟨by rw [keys_modify]; exact h.nodup, fun entry hentry => ?_⟩
  rcases mem_modify hentry with hmem | ⟨v, hv, rfl⟩
  · exact h.key_eq entry hmem
  · exact (h.key_eq (key, v) hv).trans (by rw [hf])

theorem concat (h : NamedBy name m) {value : β} (hnew : nameKey (name value) ∉ m.keys) :
    NamedBy name (m ++ [(nameKey (name value), value)]) := by
  constructor
  · have hkeys : (m ++ [(nameKey (name value), value)] : Keyed String β).keys =
        m.keys ++ [nameKey (name value)] := by simp [keys]
    rw [hkeys]
    exact h.nodup.append (List.nodup_singleton _) (by simpa using hnew)
  · intro entry hentry
    rcases List.mem_append.mp hentry with hmem | hmem
    · exact h.key_eq entry hmem
    · rw [List.mem_singleton.mp hmem]

theorem insert (h : NamedBy name m) (value : β) :
    NamedBy name (m.insert (nameKey (name value)) value) := by
  unfold Keyed.insert
  by_cases hmem : nameKey (name value) ∈ m.keys
  · rw [if_pos hmem]
    refine ⟨by rw [keys_modify]; exact h.nodup, fun entry hentry => ?_⟩
    rcases mem_modify hentry with hold | ⟨v, -, rfl⟩
    · exact h.key_eq entry hold
    · rfl
  · rw [if_neg hmem]
    exact h.concat hmem

theorem insertNew (h : NamedBy name m) (value : β) :
    NamedBy name (m.insertNew (nameKey (name value)) value) := by
  unfold Keyed.insertNew
  by_cases hmem : nameKey (name value) ∈ m.keys
  · rwa [if_pos hmem]
  · rw [if_neg hmem]
    exact h.concat hmem

end NamedBy

end Keyed

/-! ## Growing lists of columns -/

section

variable {α : Type} [DecidableEq α]

theorem prefix_foldl_appendNew (xs ys : List α) : xs <+: ys.foldl appendNew xs := by
  induction ys generalizing xs with
  | nil => exact List.prefix_refl xs
  | cons y ys ih =>
    have hstep : xs <+: appendNew xs y := by
      unfold appendNew
      split
      · exact List.prefix_refl xs
      · exact List.prefix_append xs [y]
    exact hstep.trans (ih (appendNew xs y))

theorem nodup_foldl_appendNew {xs : List α} (h : xs.Nodup) (ys : List α) :
    (ys.foldl appendNew xs).Nodup := by
  induction ys generalizing xs with
  | nil => exact h
  | cons y ys ih =>
    refine ih ?_
    unfold appendNew
    split
    · exact h
    · rename_i hy
      exact h.append (List.nodup_singleton y) (by simpa using hy)

theorem mem_foldl_appendNew (xs : List α) {ys : List α} {y : α} (h : y ∈ ys) :
    y ∈ ys.foldl appendNew xs := by
  induction ys generalizing xs with
  | nil => cases h
  | cons z ys ih =>
    rcases List.mem_cons.mp h with rfl | h
    · -- it is there after its own turn, and stays
      have hhere : y ∈ appendNew xs y := by
        unfold appendNew
        split <;> simp_all
      exact (prefix_foldl_appendNew (appendNew xs y) ys).subset hhere
    · exact ih _ h

end

/-! ## Tables -/

namespace CatalogTable

/-- The primary key columns; no primary key is one without columns. -/
def primaryKeyColumns (t : CatalogTable) : List String := (t.primaryKey.map (·.columns)).getD []

/-- What holds of a table at any time. -/
structure Consistent (t : CatalogTable) : Prop where
  columns : t.columns.NamedBy CatalogColumn.name
  primaryKey : t.primaryKeyColumns.Nodup
  /-- A column that is declared a primary key belongs to it. -/
  inPrimaryKey : ∀ entry ∈ t.columns, entry.2.primaryKey = true → entry.1 ∈ t.primaryKeyColumns
  /-- A column that is declared unique has a constraint of its own. -/
  inUniques : ∀ entry ∈ t.columns, entry.2.unique = true → ∃ u ∈ t.uniques, u.columns = [entry.1]

/-- The new table has all that the old one has, in the same places, and its name and line. -/
structure Extends (old new : CatalogTable) : Prop where
  name : new.name = old.name
  line : new.line = old.line
  columns : old.columns.keys <+: new.columns.keys
  primaryKey : old.primaryKeyColumns <+: new.primaryKeyColumns
  foreignKeys : old.foreignKeys <+: new.foreignKeys
  uniques : old.uniques <+: new.uniques
  checks : old.checks <+: new.checks

theorem Extends.refl (t : CatalogTable) : t.Extends t :=
  ⟨rfl, rfl, List.prefix_rfl, List.prefix_rfl, List.prefix_rfl, List.prefix_rfl, List.prefix_rfl⟩

theorem Extends.trans {t u v : CatalogTable} (h : t.Extends u) (h' : u.Extends v) : t.Extends v where
  name := h'.name.trans h.name
  line := h'.line.trans h.line
  columns := h.columns.trans h'.columns
  primaryKey := h.primaryKey.trans h'.primaryKey
  foreignKeys := h.foreignKeys.trans h'.foreignKeys
  uniques := h.uniques.trans h'.uniques
  checks := h.checks.trans h'.checks

/-- A table that goes on with the same columns stays consistent as long as its primary key has no
repetitions: the keys that its columns ask for are still there. -/
theorem Consistent.of_extends {t u : CatalogTable} (h : t.Consistent) (hext : t.Extends u)
    (hcolumns : u.columns = t.columns) (hnodup : u.primaryKeyColumns.Nodup) : u.Consistent where
  columns := hcolumns ▸ h.columns
  primaryKey := hnodup
  inPrimaryKey := by
    rw [hcolumns]
    exact fun entry hentry hkey => hext.primaryKey.subset (h.inPrimaryKey entry hentry hkey)
  inUniques := by
    rw [hcolumns]
    intro entry hentry hunique
    obtain ⟨u, hu, hcols⟩ := h.inUniques entry hentry hunique
    exact ⟨u, hext.uniques.subset hu, hcols⟩

/-! ### Single writes -/

variable (t : CatalogTable)

theorem primaryKeyColumns_extendPrimaryKey (name : Option String) (columns : List String)
    (line : Nat) : (t.extendPrimaryKey name columns line).primaryKeyColumns =
      columns.foldl appendNew t.primaryKeyColumns := by
  unfold extendPrimaryKey primaryKeyColumns
  cases t.primaryKey <;> rfl

theorem extendPrimaryKey_extends (name : Option String) (columns : List String) (line : Nat) :
    t.Extends (t.extendPrimaryKey name columns line) where
  name := rfl
  line := rfl
  columns := List.prefix_rfl
  primaryKey := by
    rw [primaryKeyColumns_extendPrimaryKey]
    exact prefix_foldl_appendNew _ _
  foreignKeys := List.prefix_rfl
  uniques := List.prefix_rfl
  checks := List.prefix_rfl

theorem addKeys_extends (uniques : List UniqueConstraint) (foreignKeys : List CatalogForeignKey) :
    t.Extends { t with
      uniques := t.uniques ++ uniques
      foreignKeys := t.foreignKeys ++ foreignKeys } :=
  ⟨rfl, rfl, List.prefix_rfl, List.prefix_rfl, List.prefix_append _ _, List.prefix_append _ _,
    List.prefix_rfl⟩

theorem addForeignKey_extends (fk : CatalogForeignKey) :
    t.Extends { t with foreignKeys := t.foreignKeys ++ [fk] } := by
  simpa using t.addKeys_extends [] [fk]

theorem addColumn_extends (c : CatalogColumn) : t.Extends (t.addColumn c) :=
  ⟨rfl, rfl, Keyed.keys_prefix_insert _ _ _, List.prefix_rfl, List.prefix_rfl, List.prefix_rfl,
    List.prefix_rfl⟩

variable {t}

theorem extendPrimaryKey_consistent (h : t.Consistent) (name : Option String)
    (columns : List String) (line : Nat) : (t.extendPrimaryKey name columns line).Consistent := by
  refine h.of_extends (t.extendPrimaryKey_extends name columns line) rfl ?_
  rw [primaryKeyColumns_extendPrimaryKey]
  exact nodup_foldl_appendNew h.primaryKey columns

/-- A column can be added when the keys that it asks for are there. -/
theorem addColumn_consistent (h : t.Consistent) {c : CatalogColumn}
    (hkey : c.primaryKey = true → nameKey c.name ∈ t.primaryKeyColumns)
    (hunique : c.unique = true → ∃ u ∈ t.uniques, u.columns = [nameKey c.name]) :
    (t.addColumn c).Consistent where
  columns := h.columns.insert c
  primaryKey := h.primaryKey
  inPrimaryKey := by
    intro entry hentry
    rcases Keyed.mem_insert hentry with hold | rfl
    · exact h.inPrimaryKey entry hold
    · exact hkey
  inUniques := by
    intro entry hentry
    rcases Keyed.mem_insert hentry with hold | rfl
    · exact h.inUniques entry hold
    · exact hunique

/-! ### Items -/

variable (t) (s : Source) (piece : Piece)

theorem readChecks_extends : t.Extends (t.readChecks s piece) :=
  ⟨rfl, rfl, List.prefix_rfl, List.prefix_rfl, List.prefix_rfl, List.prefix_rfl,
    List.prefix_append _ _⟩

/-- The table with the unique key of a column that declares one. -/
def declareUnique (line : Nat) (c : Column) : CatalogTable :=
  if c.isUnique then { t with uniques := t.uniques ++ [⟨none, [c.key], line⟩] } else t

/-- The table with a column in its primary key, when the column says so. -/
def declarePrimaryKey (line : Nat) (c : Column) : CatalogTable :=
  if c.isPrimaryKey then t.extendPrimaryKey none [c.key] line else t

/-- The table with the inline foreign key of a column that has one. -/
def declareReference (c : Column) : CatalogTable :=
  match c.reference? with
  | some fk =>
    { t with foreignKeys := t.foreignKeys ++
        [fk.toCatalog none .inline (s.lineOf (piece.offset + fk.offset))] }
  | none => t

/-- The keys of a column are written before the column itself. -/
theorem readColumn_eq (c : Column) : t.readColumn s piece c =
    (((t.declareUnique piece.line c).declarePrimaryKey piece.line c).declareReference s piece
      c).addColumn (columnOf piece.line c) := rfl

theorem declareUnique_extends (line : Nat) (c : Column) : t.Extends (t.declareUnique line c) := by
  unfold declareUnique
  split
  · simpa using t.addKeys_extends [⟨none, [c.key], line⟩] []
  · exact .refl t

theorem declarePrimaryKey_extends (line : Nat) (c : Column) :
    t.Extends (t.declarePrimaryKey line c) := by
  unfold declarePrimaryKey
  split
  · exact t.extendPrimaryKey_extends _ _ _
  · exact .refl t

theorem declareReference_extends (c : Column) : t.Extends (t.declareReference s piece c) := by
  unfold declareReference
  split
  · exact t.addForeignKey_extends _
  · exact .refl t

theorem readColumn_extends (c : Column) : t.Extends (t.readColumn s piece c) := by
  rw [readColumn_eq]
  exact (((t.declareUnique_extends piece.line c).trans
    (declarePrimaryKey_extends _ piece.line c)).trans
    (declareReference_extends _ s piece c)).trans (addColumn_extends _ _)

theorem readConstraint_extends : t.Extends (t.readConstraint s piece) := by
  unfold readConstraint
  cases primaryKeyColumns? piece.text with
  | none =>
    exact t.addKeys_extends _ _
  | some columns =>
    exact (t.extendPrimaryKey_extends (constraintName? piece.text) columns piece.line).trans
      (addKeys_extends _ _ _)

theorem readItem_extends : t.Extends (t.readItem s piece) := by
  refine (t.readChecks_extends s piece).trans ?_
  unfold readItem
  cases Column.ofText? piece.text with
  | some c => exact readColumn_extends _ s piece c
  | none => exact readConstraint_extends _ s piece

variable {t}

theorem declareUnique_consistent (h : t.Consistent) (line : Nat) (c : Column) :
    (t.declareUnique line c).Consistent := by
  refine h.of_extends (t.declareUnique_extends line c) ?_ ?_
  · unfold declareUnique
    split <;> rfl
  · have hkey : (t.declareUnique line c).primaryKeyColumns = t.primaryKeyColumns := by
      unfold declareUnique
      split <;> rfl
    rw [hkey]
    exact h.primaryKey

theorem declarePrimaryKey_consistent (h : t.Consistent) (line : Nat) (c : Column) :
    (t.declarePrimaryKey line c).Consistent := by
  unfold declarePrimaryKey
  split
  · exact extendPrimaryKey_consistent h _ _ _
  · exact h

theorem declareReference_consistent (h : t.Consistent) (c : Column) :
    (t.declareReference s piece c).Consistent := by
  refine h.of_extends (t.declareReference_extends s piece c) ?_ ?_
  · unfold declareReference
    split <;> rfl
  · have hkey : (t.declareReference s piece c).primaryKeyColumns = t.primaryKeyColumns := by
      unfold declareReference
      split <;> rfl
    rw [hkey]
    exact h.primaryKey

theorem readColumn_consistent (h : t.Consistent) (c : Column) :
    (t.readColumn s piece c).Consistent := by
  rw [readColumn_eq]
  set u := t.declareUnique piece.line c with hu
  set v := u.declarePrimaryKey piece.line c with hv
  set w := v.declareReference s piece c
  have huv : u.Extends v := u.declarePrimaryKey_extends piece.line c
  have hvw : v.Extends w := v.declareReference_extends s piece c
  have hcons : u.Consistent := declareUnique_consistent h piece.line c
  have hcons : v.Consistent := declarePrimaryKey_consistent hcons piece.line c
  have hcons : w.Consistent := declareReference_consistent s piece hcons c
  -- the keys that the column asks for were written before it
  refine addColumn_consistent hcons (fun hkey => ?_) fun hunique => ?_
  · have hprimary : c.isPrimaryKey = true := hkey
    have hmem : c.key ∈ v.primaryKeyColumns := by
      rw [hv, declarePrimaryKey, if_pos hprimary, primaryKeyColumns_extendPrimaryKey]
      exact mem_foldl_appendNew _ (List.mem_singleton_self _)
    exact hvw.primaryKey.subset hmem
  · have hunique' : c.isUnique = true := hunique
    have hmem : (⟨none, [c.key], piece.line⟩ : UniqueConstraint) ∈ u.uniques := by
      rw [hu, declareUnique, if_pos hunique']
      exact List.mem_append_right _ (List.mem_singleton_self _)
    exact ⟨_, (huv.trans hvw).uniques.subset hmem, rfl⟩

theorem readConstraint_consistent (h : t.Consistent) : (t.readConstraint s piece).Consistent := by
  refine h.of_extends (t.readConstraint_extends s piece) ?_ ?_
  · unfold readConstraint
    cases primaryKeyColumns? piece.text <;> rfl
  · unfold readConstraint
    cases primaryKeyColumns? piece.text with
    | none => exact h.primaryKey
    | some columns =>
      exact (extendPrimaryKey_consistent h (constraintName? piece.text) columns
        piece.line).primaryKey

theorem readItem_consistent (h : t.Consistent) : (t.readItem s piece).Consistent := by
  have hchecks : (t.readChecks s piece).Consistent :=
    h.of_extends (t.readChecks_extends s piece) rfl h.primaryKey
  unfold readItem
  cases Column.ofText? piece.text with
  | some c => exact readColumn_consistent s piece hchecks c
  | none => exact readConstraint_consistent s piece hchecks

/-- A table without anything in it. -/
theorem consistent_new (name : String) (line : Nat) : Consistent { name, line } :=
  ⟨.nil, List.nodup_nil, by simp, by simp⟩

end CatalogTable

/-! ## Catalogs -/

/-- The new list begins with the members of the old one, each of them related to what it was. -/
inductive Continues {α : Type} (r : α → α → Prop) : List α → List α → Prop
  | nil {new : List α} : Continues r [] new
  | cons {a b : α} {old new : List α} (hhead : r a b) (htail : Continues r old new) :
      Continues r (a :: old) (b :: new)

namespace Continues

variable {α : Type} {r : α → α → Prop}

theorem append (hr : ∀ a, r a a) (old added : List α) : Continues r old (old ++ added) := by
  induction old with
  | nil => exact .nil
  | cons a old ih => exact .cons (hr a) ih

theorem refl (hr : ∀ a, r a a) (old : List α) : Continues r old old := by
  simpa using append hr old []

theorem map {f : α → α} (hf : ∀ a, r a (f a)) (old : List α) :
    Continues r old (old.map f) := by
  induction old with
  | nil => exact .nil
  | cons a old ih => exact .cons (hf a) ih

theorem trans (hr : ∀ a b c, r a b → r b c → r a c) {xs ys zs : List α} (h : Continues r xs ys)
    (h' : Continues r ys zs) : Continues r xs zs := by
  induction h generalizing zs with
  | nil => exact .nil
  | cons hhead _ ih =>
    cases h' with
    | cons hhead' htail' => exact .cons (hr _ _ _ hhead hhead') (ih htail')

end Continues

namespace Catalog

/-- What holds of a catalog at any time. -/
structure Consistent (c : Catalog) : Prop where
  named : c.tables.NamedBy CatalogTable.name
  tables : ∀ entry ∈ c.tables, entry.2.Consistent

/-- The same key, with a table that extends the one from before. -/
def EntryExtends (old new : String × CatalogTable) : Prop := new.1 = old.1 ∧ old.2.Extends new.2

theorem EntryExtends.refl (entry : String × CatalogTable) : EntryExtends entry entry :=
  ⟨rfl, .refl _⟩

theorem EntryExtends.trans {a b c : String × CatalogTable} (h : EntryExtends a b)
    (h' : EntryExtends b c) : EntryExtends a c :=
  ⟨h'.1.trans h.1, h.2.trans h'.2⟩

/-- The new catalog has the tables of the old one, extended and in the same places, and its
indexes. -/
structure Extends (old new : Catalog) : Prop where
  tables : Continues EntryExtends old.tables new.tables
  indexes : old.indexes <+: new.indexes

theorem Extends.trans {c d e : Catalog} (h : c.Extends d) (h' : d.Extends e) : c.Extends e :=
  ⟨h.tables.trans (fun _ _ _ => .trans) h'.tables, h.indexes.trans h'.indexes⟩

theorem Extends.refl (c : Catalog) : c.Extends c := ⟨.refl .refl c.tables, List.prefix_rfl⟩

theorem consistent_empty : Consistent {} := ⟨.nil, by simp⟩

/-! ### Single writes -/

variable (c : Catalog)

theorem addTable_extends (t : CatalogTable) : c.Extends (c.addTable t) := by
  unfold addTable Keyed.insertNew
  split
  · exact .refl c
  · exact ⟨.append .refl c.tables _, List.prefix_rfl⟩

theorem modifyTable_extends (name : String) {f : CatalogTable → CatalogTable}
    (hf : ∀ t : CatalogTable, t.Extends (f t)) : c.Extends (c.modifyTable name f) := by
  refine ⟨.map (fun entry => ?_) c.tables, List.prefix_rfl⟩
  show EntryExtends entry (if entry.1 = nameKey name then (entry.1, f entry.2) else entry)
  split
  · exact ⟨rfl, hf entry.2⟩
  · exact .refl entry

variable {c}

theorem addTable_consistent (h : c.Consistent) {t : CatalogTable} (ht : t.Consistent) :
    (c.addTable t).Consistent := by
  refine ⟨h.named.insertNew t, fun entry hentry => ?_⟩
  have hmem : entry ∈ c.tables ∨ entry = (nameKey t.name, t) := by
    unfold addTable Keyed.insertNew at hentry
    split at hentry
    · exact Or.inl hentry
    · simpa using hentry
  rcases hmem with hold | rfl
  · exact h.tables entry hold
  · exact ht

theorem modifyTable_consistent (h : c.Consistent) (name : String) {f : CatalogTable → CatalogTable}
    (hf : ∀ t : CatalogTable, t.Consistent → (f t).Consistent)
    (hext : ∀ t : CatalogTable, t.Extends (f t)) :
    (c.modifyTable name f).Consistent := by
  refine ⟨h.named.modify _ fun t => (hext t).name, fun entry hentry => ?_⟩
  rcases Keyed.mem_modify hentry with hold | ⟨t, ht, rfl⟩
  · exact h.tables entry hold
  · exact hf t (h.tables _ ht)

/-! ### Steps of reading a script -/

variable (c) (s : Source)

theorem readEvent_extends (event : ScopeEvent) : c.Extends (c.readEvent s event) := by
  cases event with
  | enter table => exact c.addTable_extends _
  | item table piece => exact c.modifyTable_extends _ fun t => t.readItem_extends s piece
  | exit table line => exact .refl c

theorem readIndex_extends (i : Index) : c.Extends (c.readIndex i) :=
  ⟨.refl .refl c.tables, List.prefix_append _ _⟩

theorem readAddedForeignKey_extends (a : AddedForeignKey) :
    c.Extends (c.readAddedForeignKey a) :=
  c.modifyTable_extends _ fun t => t.addForeignKey_extends _

variable {c}

theorem readEvent_consistent (h : c.Consistent) (event : ScopeEvent) :
    (c.readEvent s event).Consistent := by
  cases event with
  | enter table => exact addTable_consistent h (CatalogTable.consistent_new _ _)
  | item table piece =>
    exact modifyTable_consistent h _ (fun _ => CatalogTable.readItem_consistent s piece)
      fun t => t.readItem_extends s piece
  | exit table line => exact h

theorem readAddedForeignKey_consistent (h : c.Consistent) (a : AddedForeignKey) :
    (c.readAddedForeignKey a).Consistent :=
  modifyTable_consistent h _
    (fun t ht => ht.of_extends (t.addForeignKey_extends _) rfl ht.primaryKey)
    fun t => t.addForeignKey_extends _

/-! ### Scripts -/

section

variable {α : Type} {step : Catalog → α → Catalog}

theorem foldl_extends (hstep : ∀ c a, Extends c (step c a)) (c : Catalog) (as : List α) :
    c.Extends (as.foldl step c) := by
  induction as generalizing c with
  | nil => exact .refl c
  | cons a as ih => exact (hstep c a).trans (ih (step c a))

theorem foldl_consistent (hstep : ∀ c a, Consistent c → Consistent (step c a)) {c : Catalog}
    (h : c.Consistent) (as : List α) : (as.foldl step c).Consistent := by
  induction as generalizing c with
  | nil => exact h
  | cons a as ih => exact ih (hstep c a h)

end

theorem readSource_extends (c : Catalog) : c.Extends (c.readSource s) :=
  ((foldl_extends (fun c => c.readEvent_extends s) c _).trans
    (foldl_extends readIndex_extends _ _)).trans (foldl_extends readAddedForeignKey_extends _ _)

theorem readSource_consistent (h : c.Consistent) : (c.readSource s).Consistent := by
  have hevents := foldl_consistent (fun c event h => readEvent_consistent s h event) h
    (s.scopeEvents .replace)
  have hindexes := foldl_consistent (fun c i h => (⟨h.named, h.tables⟩ : Consistent (c.readIndex i)))
    hevents s.indexes
  exact foldl_consistent (fun c a h => readAddedForeignKey_consistent h a) hindexes
    s.addedForeignKeys

/-- **A catalog stays consistent and only grows.**  After any scripts, and after one more, the tables
and columns stand under the keys of their names, primary keys have no repetitions and hold the columns
that are declared so, unique columns have their constraints; and the last script has kept all that was
there before it, in its place. -/
theorem read_consistent_extends (scripts : List String) (sql : String) :
    (scripts.foldl read {}).Consistent ∧ ((scripts.foldl read {}).read sql).Consistent ∧
      (scripts.foldl read {}).Extends ((scripts.foldl read {}).read sql) := by
  have hbefore : (scripts.foldl read {}).Consistent :=
    foldl_consistent (fun c sql h => readSource_consistent (Source.ofString sql) h)
      consistent_empty scripts
  exact ⟨hbefore, readSource_consistent _ hbefore, readSource_extends _ _⟩

end Catalog

end SchemaReview
