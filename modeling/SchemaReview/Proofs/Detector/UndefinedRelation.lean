import SchemaReview.Detector.Run
import SchemaReview.Proofs.Rearrangement

/-!
# Proofs.Detector.UndefinedRelation — which groups of columns are reported

Definitions of one column and one type that mention no constraint form a group.  A group is undeclared
when it spans several tables, its column is not a primary key column in all of them, and no foreign key
links two of them on the column (`Source.Undeclared`).

The detector keeps the child ends and the parent ends of all foreign keys in two sets.  So it also leaves
out a group that has a child end of one foreign key and a parent end of another (`Source.EndsInGroup`).

* `isSome_undefinedRelation?`: what is asked of the definitions of one group.
* `undefinedRelations_run`: there is one finding for each undeclared group without such ends, and no other.
* `undeclared_group_missed`: two foreign keys that link nothing hide an undeclared group.
-/

namespace SchemaReview

/-! ## Groups and foreign keys -/

/-- The referencing columns with what they refer to; a target that is left out has the name of the
referencing column. -/
def ForeignKey.columnPairs (fk : ForeignKey) : List (String × String) :=
  fk.columns.mapIdx fun i c => (c, (fk.targets[i]?).getD c)

/-- A foreign key with the key of the table that declares it. -/
structure DeclaredForeignKey where
  tableKey : String
  foreignKey : ForeignKey
deriving DecidableEq, Repr

namespace Source

/-- The declared foreign keys: inline ones, table-level ones and those added to a table. -/
def declaredForeignKeys (s : Source) : List DeclaredForeignKey :=
  (s.items.flatMap fun item => item.foreignKeys.map fun fk => ⟨item.table.key, fk⟩) ++
    s.addedForeignKeys.map fun a => ⟨nameKey a.table, a.foreignKey⟩

/-- The definitions of a column key and a type key that mention no constraint. -/
def group (s : Source) (k : String × String) : List DeclaredColumn :=
  s.columns.filter fun c =>
    !mentionsConstraint c.piece.text && decide ((c.column.key, c.column.type.key) = k)

/-- The tables of a group. -/
def groupTables (s : Source) (k : String × String) : List String := (s.group k).map (·.table.key)

/-- An item of the table declares the column a primary key, inline or in a table-level list. -/
def IsPrimaryKeyColumn (s : Source) (table column : String) : Prop :=
  ∃ item ∈ s.items, item.table.key = table ∧
    ((∃ c, Column.ofText? item.piece.text = some c ∧ c.isPrimaryKey = true ∧ c.key = column) ∨
      Column.ofText? item.piece.text = none ∧
        ∃ columns, primaryKeyColumns? item.piece.text = some columns ∧ column ∈ columns)

/-- The foreign key links two tables of the group on its column. -/
def Links (s : Source) (k : String × String) (d : DeclaredForeignKey) : Prop :=
  d.tableKey ∈ s.groupTables k ∧ d.foreignKey.tableKey ∈ s.groupTables k ∧
    (k.1, k.1) ∈ d.foreignKey.columnPairs

/-- The same column stands in several tables without a declared relation. -/
structure Undeclared (s : Source) (k : String × String) : Prop where
  several : ∃ t ∈ s.groupTables k, ∃ t' ∈ s.groupTables k, t ≠ t'
  notAllPrimary : ∃ t ∈ s.groupTables k, ¬ s.IsPrimaryKeyColumn t k.1
  notLinked : ∀ d ∈ s.declaredForeignKeys, ¬ s.Links k d

/-- The column of the group is a child end and a parent end of foreign keys in tables of the group. -/
structure EndsInGroup (s : Source) (k : String × String) : Prop where
  child : ∃ d ∈ s.declaredForeignKeys, d.tableKey ∈ s.groupTables k ∧
    k.1 ∈ d.foreignKey.columnPairs.map Prod.fst
  parent : ∃ d ∈ s.declaredForeignKeys, d.foreignKey.tableKey ∈ s.groupTables k ∧
    k.1 ∈ d.foreignKey.columnPairs.map Prod.snd

end Source

/-- The finding reports the group: it names the column and has a note at each of its definitions. -/
structure ReportsGroup (s : Source) (f : Finding) (k : String × String) : Prop where
  kind : f.kind = .undefinedRelation
  columns : f.columns = [k.1]
  notes : f.notes.map (·.span) = (s.group k).map fun c => s.spanOf c.piece

/-! ## What the detector collects -/

namespace Source

theorem mem_primaryKeyRefs (s : Source) (table column : String) :
    ⟨table, column⟩ ∈ s.primaryKeyRefs ↔ s.IsPrimaryKeyColumn table column := by
  rw [primaryKeyRefs, List.mem_flatMap, IsPrimaryKeyColumn]
  refine exists_congr fun item => and_congr_right fun _ => ?_
  rw [TableItem.primaryKeyRefs]
  cases hcolumn : Column.ofText? item.piece.text with
  | some c =>
    by_cases hprimary : c.isPrimaryKey = true
    · simp only [hprimary, if_true, List.mem_singleton, ColumnRef.mk.injEq, Option.some.injEq,
        exists_eq_left', true_and, reduceCtorEq, false_and, or_false, eq_comm]
    · simp [hprimary]
  | none =>
    cases hcolumns : primaryKeyColumns? item.piece.text with
    | none => simp
    | some columns =>
      simp only [Option.getD_some, List.mem_map, ColumnRef.mk.injEq, reduceCtorEq, false_and,
        exists_false, true_and, false_or, Option.some.injEq, exists_eq_left']
      constructor
      · rintro ⟨c, hc, htable, rfl⟩
        exact ⟨htable, hc⟩
      · rintro ⟨htable, hc⟩
        exact ⟨column, hc, htable, rfl⟩

/-- The ends of the foreign keys are those of their column pairs. -/
theorem foreignKeyEnds_eq (s : Source) : s.foreignKeyEnds =
    ⟨s.declaredForeignKeys.flatMap fun d =>
        d.foreignKey.columnPairs.map fun p => ⟨d.tableKey, p.1⟩,
      s.declaredForeignKeys.flatMap fun d =>
        d.foreignKey.columnPairs.map fun p => ⟨d.foreignKey.tableKey, p.2⟩⟩ := by
  have hends : ∀ (t : String) (fk : ForeignKey), ForeignKeyEnds.ofForeignKey t fk =
      ⟨fk.columnPairs.map fun p => ⟨t, p.1⟩, fk.columnPairs.map fun p => ⟨fk.tableKey, p.2⟩⟩ := by
    intro t fk
    rw [ForeignKeyEnds.ofForeignKey, ForeignKeyEnds.mk.injEq]
    constructor
    · apply List.ext_getElem?
      intro i
      simp [ForeignKey.columnPairs, Function.comp_def]
    · apply List.ext_getElem?
      intro i
      simp [ForeignKey.columnPairs, Function.comp_def]
  have hjoin : s.foreignKeyEnds = .join (s.declaredForeignKeys.map fun d =>
      ForeignKeyEnds.ofForeignKey d.tableKey d.foreignKey) := by
    simp only [foreignKeyEnds, declaredForeignKeys, List.map_append, List.map_flatMap, List.map_map]
    rfl
  rw [hjoin, ForeignKeyEnds.join, List.flatMap_map, List.flatMap_map]
  simp only [hends]

/-- The references on one side of the foreign keys, of one table for each and one column for each pair. -/
theorem mem_flatMap_columnPairs {ds : List DeclaredForeignKey} {tableOf : DeclaredForeignKey → String}
    {side : String × String → String} {table column : String} :
    ⟨table, column⟩ ∈ (ds.flatMap fun d =>
        d.foreignKey.columnPairs.map fun p => (⟨tableOf d, side p⟩ : ColumnRef)) ↔
      ∃ d ∈ ds, tableOf d = table ∧ column ∈ d.foreignKey.columnPairs.map side := by
  rw [List.mem_flatMap]
  refine exists_congr fun d => and_congr_right fun _ => ?_
  simp only [List.mem_map, ColumnRef.mk.injEq]
  constructor
  · rintro ⟨p, hp, htable, hcolumn⟩
    exact ⟨htable, p, hp, hcolumn⟩
  · rintro ⟨htable, p, hp, hcolumn⟩
    exact ⟨p, hp, htable, hcolumn⟩

theorem mem_children (s : Source) (table column : String) :
    ⟨table, column⟩ ∈ s.foreignKeyEnds.children ↔ ∃ d ∈ s.declaredForeignKeys, d.tableKey = table ∧
      column ∈ d.foreignKey.columnPairs.map Prod.fst := by
  rw [foreignKeyEnds_eq]
  exact mem_flatMap_columnPairs

theorem mem_parents (s : Source) (table column : String) :
    ⟨table, column⟩ ∈ s.foreignKeyEnds.parents ↔ ∃ d ∈ s.declaredForeignKeys,
      d.foreignKey.tableKey = table ∧ column ∈ d.foreignKey.columnPairs.map Prod.snd := by
  rw [foreignKeyEnds_eq]
  exact mem_flatMap_columnPairs

/-- A group that a foreign key links has a child end and a parent end. -/
theorem Links.endsInGroup {s : Source} {k : String × String} {d : DeclaredForeignKey}
    (hd : d ∈ s.declaredForeignKeys) (h : s.Links k d) : s.EndsInGroup k where
  child := ⟨d, hd, h.1, List.mem_map.mpr ⟨_, h.2.2, rfl⟩⟩
  parent := ⟨d, hd, h.2.1, List.mem_map.mpr ⟨_, h.2.2, rfl⟩⟩

end Source

/-! ## Findings -/

section

variable {s : Source} {primary : List ColumnRef} {ends : ForeignKeyEnds} {column : String}
  {uses : List DeclaredColumn}

/-- What is asked of the definitions of a group. -/
theorem isSome_undefinedRelation? :
    (undefinedRelation? s primary ends column uses).isSome = true ↔
      (∃ t ∈ uses.map (·.table.key), ∃ t' ∈ uses.map (·.table.key), t ≠ t') ∧
      (∃ t ∈ uses.map (·.table.key), ⟨t, column⟩ ∉ primary) ∧
      ¬ ((∃ t ∈ uses.map (·.table.key), ⟨t, column⟩ ∈ ends.children) ∧
        ∃ t ∈ uses.map (·.table.key), ⟨t, column⟩ ∈ ends.parents) := by
  have hlength := two_le_length_iff (nodup_sortedSet (uses.map (·.table.key)))
  simp only [mem_sortedSet] at hlength
  rw [← hlength]
  unfold undefinedRelation?
  cases uses with
  | nil => simp [sortedSet, distinct, firstBy, firstByFrom]
  | cons first others =>
    generalize (first :: others).map (·.table.key) = tables
    have hite : ∀ (skip : Bool) (f : Finding),
        (if skip = true then none else some f).isSome = true ↔ skip = false := by
      intro skip f
      cases skip <;> simp
    simp only [hite, Bool.or_eq_false_iff, decide_eq_false_iff_not, not_lt, List.all_eq_false,
      Bool.and_eq_false_iff, List.any_eq_false, List.contains_eq_mem, decide_eq_true_eq, mem_sortedSet]
    rw [and_assoc, not_and_or]
    simp only [not_exists, not_and]

theorem reports_of_undefinedRelation? {f : Finding}
    (h : undefinedRelation? s primary ends column uses = some f) :
    f.kind = .undefinedRelation ∧ f.columns = [column] ∧
      f.notes.map (·.span) = uses.map fun c => s.spanOf c.piece := by
  unfold undefinedRelation? at h
  cases uses with
  | nil => cases h
  | cons first others =>
    dsimp only at h
    split at h
    · cases h
    · cases h
      refine ⟨rfl, rfl, ?_⟩
      show List.map _ ([] ++ List.map _ _) = _
      rw [List.nil_append, List.map_map]
      rfl

end

/-- The column key and the type key of a definition. -/
def DeclaredColumn.groupKey (c : DeclaredColumn) : String × String := (c.column.key, c.column.type.key)

theorem Source.group_eq (s : Source) (k : String × String) :
    s.group k = s.plainColumns.filter fun c => c.groupKey = k := by
  rw [group, plainColumns, List.filter_filter]
  refine List.filter_congr fun c _ => ?_
  rw [Bool.and_comm]
  rfl

theorem Source.mem_groupKeys_of_mem_groupTables {s : Source} {k : String × String} {t : String}
    (h : t ∈ s.groupTables k) : k ∈ s.plainColumns.map DeclaredColumn.groupKey := by
  obtain ⟨c, hc, -⟩ := List.mem_map.mp h
  rw [s.group_eq] at hc
  obtain ⟨hplain, hkey⟩ := List.mem_filter.mp hc
  exact List.mem_map.mpr ⟨c, hplain, of_decide_eq_true hkey⟩

theorem undefinedRelations_eq (s : Source) : undefinedRelations s =
    (distinct (s.plainColumns.map DeclaredColumn.groupKey)).filterMap fun k =>
      undefinedRelation? s s.primaryKeyRefs s.foreignKeyEnds k.1 (s.group k) := by
  have hgroups : groupBy (fun c => (c.column.key, c.column.type.key)) s.plainColumns =
      (distinct (s.plainColumns.map DeclaredColumn.groupKey)).map fun k => (k, s.group k) := by
    simp only [Source.group_eq]
    exact groupBy_eq _ _
  rw [undefinedRelations, hgroups, List.filterMap_map]
  rfl

/-- A group is reported when it is undeclared, unless it has ends of different foreign keys. -/
theorem isSome_undefinedRelation?_iff (s : Source) (k : String × String) :
    (undefinedRelation? s s.primaryKeyRefs s.foreignKeyEnds k.1 (s.group k)).isSome = true ↔
      s.Undeclared k ∧ ¬ s.EndsInGroup k := by
  have hends : s.EndsInGroup k ↔ (∃ t ∈ s.groupTables k, ⟨t, k.1⟩ ∈ s.foreignKeyEnds.children) ∧
      ∃ t ∈ s.groupTables k, ⟨t, k.1⟩ ∈ s.foreignKeyEnds.parents := by
    simp only [s.mem_children, s.mem_parents]
    constructor
    · rintro ⟨⟨d, hd, htable, hchild⟩, ⟨d', hd', htable', hparent⟩⟩
      exact ⟨⟨_, htable, d, hd, rfl, hchild⟩, ⟨_, htable', d', hd', rfl, hparent⟩⟩
    · rintro ⟨⟨t, ht, d, hd, rfl, hchild⟩, ⟨t', ht', d', hd', rfl, hparent⟩⟩
      exact ⟨⟨d, hd, ht, hchild⟩, ⟨d', hd', ht', hparent⟩⟩
  rw [isSome_undefinedRelation?, hends]
  constructor
  · rintro ⟨hseveral, ⟨t, ht, hprimary⟩, hapart⟩
    refine ⟨⟨hseveral, ⟨t, ht, mt (s.mem_primaryKeyRefs t k.1).mpr hprimary⟩, ?_⟩, hapart⟩
    intro d hd hlinks
    exact hapart (hends.mp (hlinks.endsInGroup hd))
  · rintro ⟨⟨hseveral, ⟨t, ht, hprimary⟩, -⟩, hapart⟩
    exact ⟨hseveral, ⟨t, ht, mt (s.mem_primaryKeyRefs t k.1).mp hprimary⟩, hapart⟩

/-- **Undefined relations.**  There is exactly one finding for each group of definitions without
constraints that spans several tables, whose column is not a primary key column in all of them, and that no
foreign key links, except that a group with a child end of one foreign key and a parent end of another
is passed over; and there is no other finding. -/
theorem undefinedRelations_run (sql : String) :
    ∃ keys : List (String × String), keys.Nodup ∧
      (∀ k, k ∈ keys ↔ (Source.ofString sql).Undeclared k ∧ ¬ (Source.ofString sql).EndsInGroup k) ∧
      List.Forall₂ (ReportsGroup (Source.ofString sql)) (Detector.undefinedRelations.run sql) keys := by
  generalize hs : Source.ofString sql = s
  have hrun : Detector.undefinedRelations.run sql = undefinedRelations s := by
    rw [← hs]
    rfl
  let finding? := fun k : String × String =>
    undefinedRelation? s s.primaryKeyRefs s.foreignKeyEnds k.1 (s.group k)
  refine ⟨(distinct (s.plainColumns.map DeclaredColumn.groupKey)).filter fun k => (finding? k).isSome,
    (nodup_distinct _).filter _, ?_, ?_⟩
  · intro k
    rw [List.mem_filter, mem_distinct, isSome_undefinedRelation?_iff, and_iff_right_iff_imp]
    rintro ⟨⟨⟨t, ht, -⟩, -, -⟩, -⟩
    exact Source.mem_groupKeys_of_mem_groupTables ht
  · rw [hrun, undefinedRelations_eq]
    refine (forall₂_filterMap_filter finding? _).imp fun f k hf => ?_
    obtain ⟨hkind, hcolumns, hnotes⟩ := reports_of_undefinedRelation? hf
    exact ⟨hkind, hcolumns, hnotes⟩

/-- Two tables with the same column, of which one refers to a third and the other is referred to by a
fourth. -/
def apartScript : String :=
  "CREATE TABLE a (c INT, FOREIGN KEY (c) REFERENCES z(c));\n" ++
  "CREATE TABLE b (c INT);\n" ++
  "CREATE TABLE d (q INT REFERENCES b(c));"

/-- Two foreign keys of which none links the tables of a group hide it. -/
theorem undeclared_group_missed :
    (Source.ofString apartScript).Undeclared ("C", "int") ∧
      Detector.undefinedRelations.run apartScript = [] := by
  obtain ⟨htables, hprimary, hgroups, hchild, hparent, hapart⟩ :
      (Source.ofString apartScript).groupTables ("C", "int") = ["A", "B"] ∧
      (Source.ofString apartScript).primaryKeyRefs = [] ∧
      distinct ((Source.ofString apartScript).plainColumns.map DeclaredColumn.groupKey) =
        [("C", "int")] ∧
      (∃ d ∈ (Source.ofString apartScript).declaredForeignKeys, d.tableKey ∈ ["A", "B"] ∧
        "C" ∈ d.foreignKey.columnPairs.map Prod.fst) ∧
      (∃ d ∈ (Source.ofString apartScript).declaredForeignKeys, d.foreignKey.tableKey ∈ ["A", "B"] ∧
        "C" ∈ d.foreignKey.columnPairs.map Prod.snd) ∧
      ∀ d ∈ (Source.ofString apartScript).declaredForeignKeys,
        ¬ (d.tableKey ∈ ["A", "B"] ∧ d.foreignKey.tableKey ∈ ["A", "B"]) := by
    decide +kernel
  rw [← htables] at hchild hparent hapart
  refine ⟨⟨?_, ?_, ?_⟩, ?_⟩
  · rw [htables]
    decide
  · refine ⟨"A", by rw [htables]; decide, ?_⟩
    rw [← Source.mem_primaryKeyRefs, hprimary]
    exact List.not_mem_nil
  · rintro d hd ⟨hhere, hthere, -⟩
    exact hapart d hd ⟨hhere, hthere⟩
  · show undefinedRelations (Source.ofString apartScript) = []
    rw [undefinedRelations_eq, hgroups, List.filterMap_eq_nil_iff]
    intro k hk
    obtain rfl := List.mem_singleton.mp hk
    rw [← Option.not_isSome_iff_eq_none, isSome_undefinedRelation?_iff]
    exact fun h => h.2 ⟨hchild, hparent⟩

end SchemaReview
