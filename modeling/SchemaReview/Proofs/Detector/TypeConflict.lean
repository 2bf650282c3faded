import SchemaReview.Detector.Run
import SchemaReview.Proofs.Ddl.DeclaredType
import SchemaReview.Proofs.Detector.Positions
import SchemaReview.Proofs.Rearrangement

/-!
# Proofs.Detector.TypeConflict — which columns have conflicting types, and what is said about them

The detector groups the definitions of a column by the keys of their types.  Types of definitions are named by
words, so their keys are the same exactly when the types are (`key_eq_iff_same`).  Grouping neither loses nor
repeats a definition (`perm_flatMap_groupBy`).

* `isSome_typeConflict?`: a column is reported when two of its definitions have different types.
* `typeConflicts_run`: there is one finding for each such column and no other, and its notes are those of all
  definitions of the column, each once.
-/

namespace SchemaReview

open Text

/-! ## What is to be reported -/

/-- The definitions of a column in all tables, in script order. -/
def Source.definitions (s : Source) (columnKey : String) : List DeclaredColumn :=
  s.columns.filter fun c => c.column.key = columnKey

/-- Two definitions of the column have different types. -/
def Source.ConflictingTypes (s : Source) (columnKey : String) : Prop :=
  ∃ c ∈ s.definitions columnKey, ∃ d ∈ s.definitions columnKey, ¬ c.column.type.Same d.column.type

/-- The note on a definition: the table, the line and the type that it has. -/
def Source.definitionNote (s : Source) (c : DeclaredColumn) : Note :=
  ⟨s!"table '{c.table.name}' (line {c.piece.line}): type {c.column.type.key}", s.columnSpan c⟩

/-- The finding reports the column: its notes are those of the definitions of the column, each once. -/
structure ReportsTypes (s : Source) (f : Finding) (columnKey : String) : Prop where
  kind : f.kind = .conflictingColumnTypes
  columns : f.columns = [columnKey]
  notes : f.notes.Perm ((s.definitions columnKey).map s.definitionNote)

/-! ## Definitions -/

namespace Source

variable {s : Source} {c d : DeclaredColumn}

theorem mem_definitions {columnKey : String} :
    c ∈ s.definitions columnKey ↔ c ∈ s.columns ∧ c.column.key = columnKey := by
  rw [definitions, List.mem_filter, decide_eq_true_eq]

/-- A type is named by a word, and there is no parenthesis in a word. -/
theorem parenthesis_not_mem_type (hc : c ∈ s.columns) : '(' ∉ c.column.type.name.toList := by
  obtain ⟨item, -, -, hcolumn⟩ := exists_item_of_mem_columns hc
  obtain ⟨m, hm, hread⟩ := Option.bind_eq_some_iff.mp hcolumn
  split at hread
  · cases hread
  · rw [Option.some.injEq] at hread
    rw [← hread]
    show '(' ∉ (m.groupString 3).toList
    rw [Match.groupString, String.toList_ofList]
    exact Pattern.not_mem_groupText hm (by decide)

theorem key_eq_iff_same (hc : c ∈ s.columns) (hd : d ∈ s.columns) :
    c.column.type.key = d.column.type.key ↔ c.column.type.Same d.column.type :=
  DeclaredType.key_eq_iff (parenthesis_not_mem_type hc) (parenthesis_not_mem_type hd)

/-- The detector takes the line of a definition from the span of the name. -/
theorem typeNote_eq (hc : c ∈ s.columns) : typeNote s c = s.definitionNote c := by
  obtain ⟨item, hitem, hpiece, -⟩ := exists_item_of_mem_columns hc
  have hline : c.piece.line = s.lineOf c.piece.offset := by
    rw [hpiece]
    exact (s.isItem_of_mem_itemsIn hitem).line_eq
  rw [definitionNote, hline]
  rfl

end Source

/-! ## Findings -/

section

variable {s : Source} {columnKey : String} {uses : List DeclaredColumn}

/-- What is asked of the definitions of a column. -/
theorem isSome_typeConflict? : (typeConflict? s columnKey uses).isSome = true ↔
    ∃ c ∈ uses, ∃ d ∈ uses, c.column.type.key ≠ d.column.type.key := by
  have hperm := perm_flatMap_groupBy (fun c : DeclaredColumn => c.column.type.key) uses
  have hlength : 2 ≤ (groupBy (fun c : DeclaredColumn => c.column.type.key) uses).length ↔
      ∃ c ∈ uses, ∃ d ∈ uses, c.column.type.key ≠ d.column.type.key := by
    rw [groupBy_eq, List.length_map, two_le_length_iff (nodup_distinct _)]
    simp only [mem_distinct, List.mem_map, exists_exists_and_eq_and]
  rw [← hlength]
  unfold typeConflict?
  dsimp only
  split
  · rename_i hnil
    rw [hnil, List.nil_perm] at hperm
    rw [hperm]
    simp [groupBy, distinct, firstBy, firstByFrom]
  · split
    · rename_i hshort
      simp only [Option.isSome_none, Bool.false_eq_true, false_iff]
      omega
    · rename_i hlong
      simp only [Option.isSome_some, true_iff]
      omega

theorem reports_of_typeConflict? {f : Finding} (h : typeConflict? s columnKey uses = some f) :
    f.kind = .conflictingColumnTypes ∧ f.columns = [columnKey] ∧ f.notes.Perm (uses.map (typeNote s)) := by
  have hperm := perm_flatMap_groupBy (fun c : DeclaredColumn => c.column.type.key) uses
  unfold typeConflict? at h
  dsimp only at h
  split at h
  · cases h
  · rename_i first others huses
    rw [huses] at hperm
    split at h
    · cases h
    · rw [Option.some.injEq] at h
      subst h
      exact ⟨rfl, rfl, hperm.map (typeNote s)⟩

end

theorem typeConflicts_eq (s : Source) : typeConflicts s =
    (distinct (s.columns.map fun c => c.column.key)).filterMap fun columnKey =>
      typeConflict? s columnKey (s.definitions columnKey) := by
  rw [typeConflicts, groupBy_eq, List.filterMap_map]
  rfl

theorem isSome_typeConflict?_iff (s : Source) (columnKey : String) :
    (typeConflict? s columnKey (s.definitions columnKey)).isSome = true ↔ s.ConflictingTypes columnKey := by
  rw [isSome_typeConflict?, Source.ConflictingTypes]
  refine exists_congr fun c => and_congr_right fun hc => exists_congr fun d => and_congr_right fun hd => ?_
  rw [Ne, Source.key_eq_iff_same (Source.mem_definitions.mp hc).1 (Source.mem_definitions.mp hd).1]

/-- **Conflicting types.**  There is exactly one finding for each column that two definitions give different types,
names compared in any case and sizes included, and no other finding.  Its notes are those of all definitions of the
column, each once, with the table, the line and the type of the definition. -/
theorem typeConflicts_run (sql : String) :
    ∃ keys : List String, keys.Nodup ∧
      (∀ columnKey, columnKey ∈ keys ↔ (Source.ofString sql).ConflictingTypes columnKey) ∧
      List.Forall₂ (ReportsTypes (Source.ofString sql)) (Detector.conflictingTypes.run sql) keys := by
  generalize hs : Source.ofString sql = s
  have hrun : Detector.conflictingTypes.run sql = typeConflicts s := by
    rw [← hs]
    rfl
  let finding? := fun columnKey : String => typeConflict? s columnKey (s.definitions columnKey)
  refine ⟨(distinct (s.columns.map fun c => c.column.key)).filter fun k => (finding? k).isSome,
    (nodup_distinct _).filter _, ?_, ?_⟩
  · intro columnKey
    rw [List.mem_filter, mem_distinct, isSome_typeConflict?_iff, and_iff_right_iff_imp]
    rintro ⟨c, hc, -⟩
    obtain ⟨hmem, hkey⟩ := Source.mem_definitions.mp hc
    exact List.mem_map.mpr ⟨c, hmem, hkey⟩
  · rw [hrun, typeConflicts_eq]
    refine (forall₂_filterMap_filter finding? _).imp fun f columnKey hf => ?_
    obtain ⟨hkind, hcolumns, hnotes⟩ := reports_of_typeConflict? hf
    have hown : (s.definitions columnKey).map (typeNote s) = (s.definitions columnKey).map s.definitionNote :=
      List.map_congr_left fun c hc => Source.typeNote_eq (Source.mem_definitions.mp hc).1
    exact ⟨hkind, hcolumns, hown ▸ hnotes⟩

/-- The case of a type makes no difference, its sizes do. -/
example :
    (Detector.conflictingTypes.run ("CREATE TABLE t (a INT, b VARCHAR(10), c DATE);\n" ++
      "CREATE TABLE u (A int, B varchar(20), d DATE)")).map (·.columns) = [["B"]] := by
  decide +kernel

end SchemaReview
