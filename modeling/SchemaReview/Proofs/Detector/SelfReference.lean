import SchemaReview.Detector.Run
import SchemaReview.Proofs.Catalog.Column
import SchemaReview.Proofs.Detector.NotNull

/-!
# Proofs.Detector.SelfReference — self-references, and the rows that leave them null

A row leaves a reference null when one of the referencing columns is null in it; such a row can be the root of a
hierarchy.

* `SelfKey.not_mayBeUnset_iff`: no row leaves the reference null when every column of the key forbids null values.
* `self_references_run`: the detector goes by column.  It reports each column of a key that forbids null values, in
  whatever place the column is defined; a key over several columns is reported without need when only some of them
  forbid null values.
-/

namespace SchemaReview

/-! ## Keys and rows -/

/-- A foreign key that references the table in whose body it stands. -/
structure SelfKey where
  item : TableItem
  fk : ForeignKey

/-- The self-references of all items, in script order. -/
def Source.selfKeys (s : Source) : List SelfKey :=
  s.items.flatMap fun item =>
    ((allForeignKeys item).filter fun fk => fk.tableKey = item.table.key).map fun fk => ⟨item, fk⟩

/-- Some definition of the column, at any place of the script, is declared `NOT NULL`. -/
def Source.ForbidsNull (s : Source) (tableKey columnKey : String) : Prop :=
  ∃ d ∈ s.columns, d.Defines tableKey columnKey ∧ d.column.isNotNull = true

instance (s : Source) (tableKey columnKey : String) : Decidable (s.ForbidsNull tableKey columnKey) :=
  inferInstanceAs (Decidable (∃ d ∈ s.columns, _))

/-- The table takes a row in which the given columns are null. -/
def Source.TakesNulls (s : Source) (tableKey : String) (nulls : List String) : Prop :=
  ∀ columnKey ∈ nulls, ¬ s.ForbidsNull tableKey columnKey

instance (s : Source) (tableKey : String) (nulls : List String) : Decidable (s.TakesNulls tableKey nulls) :=
  inferInstanceAs (Decidable (∀ columnKey ∈ nulls, _))

theorem declaredNotNull_iff {s : Source} {tableKey columnKey : String} :
    declaredNotNull s.columns tableKey columnKey = true ↔ s.ForbidsNull tableKey columnKey := by
  simp only [declaredNotNull_eq_any, List.any_eq_true, Bool.and_eq_true, decide_eq_true_eq, Source.ForbidsNull,
    DeclaredColumn.Defines]

namespace SelfKey

variable (s : Source) (key : SelfKey)

/-- The columns of the key that the detector reports. -/
def reported : List String := key.fk.columns.filter (declaredNotNull s.columns key.item.table.key)

/-- The finding for a column of the key. -/
def finding (columnKey : String) : Finding :=
  selfReferenceFinding ⟨key.item.table, columnKey, s.spanAt (key.item.piece.offset + key.fk.offset) 0⟩

/-- The table takes a row that leaves the reference null: one of the referencing columns is null in it. -/
def MayBeUnset : Prop :=
  ∃ nulls, s.TakesNulls key.item.table.key nulls ∧ ∃ columnKey ∈ key.fk.columns, columnKey ∈ nulls

variable {s key}

theorem mem_reported_iff {columnKey : String} :
    columnKey ∈ key.reported s ↔ columnKey ∈ key.fk.columns ∧ s.ForbidsNull key.item.table.key columnKey := by
  rw [reported, List.mem_filter, declaredNotNull_iff]

theorem mayBeUnset_iff :
    key.MayBeUnset s ↔ ∃ columnKey ∈ key.fk.columns, ¬ s.ForbidsNull key.item.table.key columnKey := by
  constructor
  · rintro ⟨nulls, htakes, columnKey, hcolumn, hnull⟩
    exact ⟨columnKey, hcolumn, htakes columnKey hnull⟩
  · rintro ⟨columnKey, hcolumn, hallows⟩
    -- the column alone is null
    refine ⟨[columnKey], fun other hother => ?_, columnKey, hcolumn, List.mem_singleton_self _⟩
    rwa [List.mem_singleton.mp hother]

theorem not_mayBeUnset_iff :
    ¬ key.MayBeUnset s ↔ ∀ columnKey ∈ key.fk.columns, s.ForbidsNull key.item.table.key columnKey := by
  rw [mayBeUnset_iff]
  push Not
  rfl

/-- All columns of a key are reported when no row leaves the reference null. -/
theorem reported_eq_columns_iff : key.reported s = key.fk.columns ↔ ¬ key.MayBeUnset s := by
  rw [not_mayBeUnset_iff, reported, List.filter_eq_self]
  simp only [declaredNotNull_iff]

/-- A key is reported without need when only some of its columns forbid null values. -/
theorem reported_and_mayBeUnset_iff :
    key.reported s ≠ [] ∧ key.MayBeUnset s ↔
      (∃ columnKey ∈ key.fk.columns, s.ForbidsNull key.item.table.key columnKey) ∧
        ∃ columnKey ∈ key.fk.columns, ¬ s.ForbidsNull key.item.table.key columnKey := by
  rw [mayBeUnset_iff]
  refine and_congr_left fun _ => ⟨fun hreported => ?_, fun ⟨columnKey, hcolumn⟩ => ?_⟩
  · obtain ⟨columnKey, hcolumn⟩ := List.exists_mem_of_ne_nil _ hreported
    exact ⟨columnKey, mem_reported_iff.mp hcolumn⟩
  · exact List.ne_nil_of_mem (mem_reported_iff.mpr hcolumn)

end SelfKey

/-! ## What the detector reports -/

theorem selfReferences_eq (s : Source) :
    selfReferences s = s.selfKeys.flatMap fun key => (key.reported s).map (key.finding s) := by
  rw [selfReferences, Source.selfKeys, List.filter_flatMap, List.map_flatMap, List.flatMap_assoc]
  refine List.flatMap_congr fun item _ => ?_
  rw [selfReferencesOf, List.filter_flatMap, List.map_flatMap, List.flatMap_map]
  refine List.flatMap_congr fun fk _ => ?_
  rw [List.filter_map, List.map_map]
  rfl

/-- **The findings on self-references.**  Each self-reference gives one finding for each of its columns that is declared
`NOT NULL` anywhere.  All columns are reported exactly when no row leaves the reference null, and a finding stands
beside such a row exactly when the key mixes columns of both kinds. -/
theorem self_references_run (sql : String) :
    Detector.incorrectRecursiveRelation.run sql =
        ((Source.ofString sql).selfKeys.flatMap fun key =>
          (key.reported (Source.ofString sql)).map (key.finding (Source.ofString sql))) ∧
      ∀ key ∈ (Source.ofString sql).selfKeys,
        (∀ columnKey, columnKey ∈ key.reported (Source.ofString sql) ↔
          columnKey ∈ key.fk.columns ∧ (Source.ofString sql).ForbidsNull key.item.table.key columnKey) ∧
        (key.reported (Source.ofString sql) = key.fk.columns ↔ ¬ key.MayBeUnset (Source.ofString sql)) ∧
        (key.reported (Source.ofString sql) ≠ [] ∧ key.MayBeUnset (Source.ofString sql) ↔
          (∃ columnKey ∈ key.fk.columns, (Source.ofString sql).ForbidsNull key.item.table.key columnKey) ∧
            ∃ columnKey ∈ key.fk.columns, ¬ (Source.ofString sql).ForbidsNull key.item.table.key columnKey) :=
  ⟨selfReferences_eq (Source.ofString sql), fun _ _ =>
    ⟨fun _ => SelfKey.mem_reported_iff, SelfKey.reported_eq_columns_iff, SelfKey.reported_and_mayBeUnset_iff⟩⟩

/-- A self-reference over a column that forbids null values and one that allows them. -/
def mixedKeyScript : String := "CREATE TABLE t (a INT NOT NULL, b INT, FOREIGN KEY (a, b) REFERENCES t(x, y));"

/-- The column that forbids null values is reported, though a row may leave the other one null. -/
theorem mixed_key_reported :
    (Detector.incorrectRecursiveRelation.run mixedKeyScript).map (fun f => (f.table, f.columns)) =
        [(some "t", ["A"])] ∧
      (Source.ofString mixedKeyScript).selfKeys.map (fun key => (key.item.table.name, key.fk.columns)) =
        [("t", ["A", "B"])] ∧
      ∀ key ∈ (Source.ofString mixedKeyScript).selfKeys, key.MayBeUnset (Source.ofString mixedKeyScript) := by
  have hrows : ∀ key ∈ (Source.ofString mixedKeyScript).selfKeys,
      (Source.ofString mixedKeyScript).TakesNulls key.item.table.key ["B"] ∧
        ∃ columnKey ∈ key.fk.columns, columnKey ∈ ["B"] := by
    decide +kernel
  exact ⟨by decide +kernel, by decide +kernel, fun key hkey => ⟨["B"], hrows key hkey⟩⟩

end SchemaReview
