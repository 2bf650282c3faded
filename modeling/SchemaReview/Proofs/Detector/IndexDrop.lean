import Mathlib.Data.Finset.Card
import SchemaReview.Detector.Run
import SchemaReview.Proofs.Pattern.Occurrence
import SchemaReview.Proofs.Sequence

/-!
# Proofs.Detector.IndexDrop — what is left when every index is dropped that should be

Two findings advise to drop an index: it repeats the primary key, or it contains a key and more columns.
That key may be an index that should be dropped too, so following all advice at once could leave a table
without any key.

* `reports_redundantIndexes_iff`, `reports_unnecessaryIndexes_iff`, `reports_indexAnomalies_iff`: which
  indexes are reported, by the sets of their columns.
* `exists_key_of_flags`: an index that should be dropped contains the primary key, or a unique index
  that is kept.  A key that is contained has fewer columns, so the way from key to key comes to an end.
* `dropping_flagged_indexes_keeps_keys` puts them together.
-/

namespace SchemaReview

/-! ## Sets of columns -/

theorem toFinset_sortedSet (xs : List String) : (sortedSet xs).toFinset = xs.toFinset := by
  ext x
  simp

theorem length_sortedSet (xs : List String) : (sortedSet xs).length = xs.toFinset.card := by
  rw [← toFinset_sortedSet, List.toFinset_card_of_nodup (nodup_sortedSet xs)]

theorem isEmpty_eq_false_iff_nonempty {xs : List String} :
    xs.isEmpty = false ↔ xs.toFinset.Nonempty := by
  rw [List.toFinset_nonempty_iff, List.isEmpty_eq_false_iff]

/-- Strictly covered is what is a non-empty proper subset. -/
theorem strictlyCovers_iff {outer inner : List String} :
    strictlyCovers (sortedSet outer) (sortedSet inner) = true ↔
      inner.toFinset.Nonempty ∧ inner.toFinset ⊂ outer.toFinset := by
  have hsubset : (sortedSet inner).all ((sortedSet outer).contains ·) = true ↔
      inner.toFinset ⊆ outer.toFinset := by
    simp [Finset.subset_iff]
  rw [strictlyCovers, Bool.and_eq_true, Bool.and_eq_true, hsubset, Bool.not_eq_true',
    isEmpty_eq_false_iff_nonempty, toFinset_sortedSet, decide_eq_true_eq, length_sortedSet,
    length_sortedSet, and_assoc]
  refine and_congr_right fun _ => ⟨fun h => ?_, fun h => ⟨h.subset, Finset.card_lt_card h⟩⟩
  refine h.1.ssubset_of_ne fun heq => ?_
  rw [heq] at h
  exact absurd h.2 (lt_irrefl _)

/-- The indexed columns as a set. -/
def Index.columnSet (i : Index) : Finset String := i.columns.toFinset

namespace Source

variable (s : Source)

/-- The primary key columns of a table as a set; empty when the table is not declared. -/
def primaryKeySet (tableKey : String) : Finset String :=
  ((keysFor? s.tableKeys tableKey).elim [] TableKeys.primaryKey).toFinset

/-! ## Which index a finding is about -/

/-- A finding with the code names the index and stands where its statement does. -/
def Reports (findings : List Finding) (code : String) (i : Index) : Prop :=
  ∃ f ∈ findings, f.code = code ∧ f.index = some i.name ∧ f.span = some (s.indexSpan i)

variable {s} {i : Index}

/-- No two index statements begin at the same byte. -/
theorem index_eq_of_indexSpan_eq {j : Index} (hi : i ∈ s.indexes) (hj : j ∈ s.indexes)
    (h : s.indexSpan i = s.indexSpan j) : i = j := by
  obtain ⟨m, hm, rfl⟩ := List.mem_map.mp hi
  obtain ⟨m', hm', rfl⟩ := List.mem_map.mp hj
  obtain ⟨hin, hmatch⟩ := Pattern.matchAt_of_mem_findAll hm
  obtain ⟨hin', hmatch'⟩ := Pattern.matchAt_of_mem_findAll hm'
  have hoffset : m.start.offset = m'.start.offset := congrArg Span.offset h
  rw [hin.eq_of_offset hin' hoffset, hmatch', Option.some.injEq] at hmatch
  rw [hmatch]

/-- Where the findings with the code are made for indexes one by one, those made for an index report
it. -/
theorem reports_iff {findings : List Finding} {code : String} (made : Index → Finding → Prop)
    (hmem : ∀ f, f ∈ findings ∧ f.code = code ↔ ∃ j ∈ s.indexes, made j f)
    (hmade : ∀ j f, made j f → f.index = some j.name ∧ f.span = some (s.indexSpan j))
    (hi : i ∈ s.indexes) : s.Reports findings code i ↔ ∃ f, made i f := by
  constructor
  · rintro ⟨f, hf, hcode, -, hspan⟩
    obtain ⟨j, hj, hf⟩ := (hmem f).mp ⟨hf, hcode⟩
    have hsame : s.indexSpan i = s.indexSpan j :=
      Option.some.inj (hspan.symm.trans (hmade j f hf).2)
    obtain rfl := index_eq_of_indexSpan_eq hi hj hsame
    exact ⟨f, hf⟩
  · rintro ⟨f, hf⟩
    obtain ⟨hmem, hcode⟩ := (hmem f).mpr ⟨i, hi, hf⟩
    exact ⟨f, hmem, hcode, hmade i f hf⟩

/-! ## Which indexes are reported -/

theorem primaryKeySet_of_none {k : String} (h : keysFor? s.tableKeys k = none) :
    s.primaryKeySet k = ∅ := by
  simp [primaryKeySet, h]

theorem primaryKeySet_of_some {k : String} {t : TableKeys} (h : keysFor? s.tableKeys k = some t) :
    s.primaryKeySet k = t.primaryKey.toFinset := by
  simp [primaryKeySet, h]

/-- The table is declared with a primary key that satisfies the condition. -/
theorem exists_primaryKey_iff {p : Finset String → Prop} (k : String) :
    (∃ t, keysFor? s.tableKeys k = some t ∧ t.primaryKey.toFinset.Nonempty ∧ p t.primaryKey.toFinset) ↔
      (s.primaryKeySet k).Nonempty ∧ p (s.primaryKeySet k) := by
  cases hkeys : keysFor? s.tableKeys k with
  | none => simp [primaryKeySet_of_none hkeys]
  | some t => simp [primaryKeySet_of_some hkeys]

/-- A unique index is redundant when its columns are those of the primary key. -/
theorem reports_redundantIndexes_iff (hi : i ∈ s.indexes) :
    s.Reports (redundantIndexes s) "K004" i ↔
      i.unique = true ∧ (s.primaryKeySet i.tableKey).Nonempty ∧
        i.columnSet = s.primaryKeySet i.tableKey := by
  have hsets : ∀ (j : Index) (t : TableKeys),
      (!t.primaryKey.isEmpty && decide (sortedSet j.columns = sortedSet t.primaryKey)) = true ↔
        t.primaryKey.toFinset.Nonempty ∧ j.columnSet = t.primaryKey.toFinset := by
    intro j t
    rw [Bool.and_eq_true, Bool.not_eq_true', isEmpty_eq_false_iff_nonempty, decide_eq_true_eq,
      sortedSet_eq_iff, Index.columnSet, Finset.ext_iff]
    simp
  rw [← exists_primaryKey_iff (p := (i.columnSet = ·))]
  refine (reports_iff (fun j f => j.unique = true ∧ ∃ t,
    keysFor? s.tableKeys j.tableKey = some t ∧ (t.primaryKey.toFinset.Nonempty ∧
      j.columnSet = t.primaryKey.toFinset) ∧ f = redundantIndex s t j) ?_ ?_ hi).trans ?_
  · intro f
    constructor
    · rintro ⟨hf, -⟩
      obtain ⟨j, hj, hf⟩ := List.mem_filterMap.mp hf
      obtain ⟨hj, hunique⟩ := List.mem_filter.mp hj
      split at hf
      · rename_i t hkeys
        split at hf
        · rename_i hcond
          exact ⟨j, hj, hunique, t, hkeys, (hsets j t).mp hcond, (Option.some.inj hf).symm⟩
        · cases hf
      · cases hf
    · rintro ⟨j, hj, hunique, t, hkeys, hcond, rfl⟩
      refine ⟨List.mem_filterMap.mpr ⟨j, List.mem_filter.mpr ⟨hj, hunique⟩, ?_⟩, rfl⟩
      rw [hkeys]
      exact if_pos ((hsets j t).mpr hcond)
  · rintro j f ⟨-, t, -, -, rfl⟩
    exact ⟨rfl, rfl⟩
  · simp

/-- An index covers the primary key when it has all its columns and more. -/
theorem reports_indexAnomalies_iff (hi : i ∈ s.indexes) :
    s.Reports (indexAnomalies s) "K002" i ↔
      (s.primaryKeySet i.tableKey).Nonempty ∧ s.primaryKeySet i.tableKey ⊂ i.columnSet := by
  rw [← exists_primaryKey_iff (p := (· ⊂ i.columnSet))]
  refine (reports_iff (fun j f => ∃ t, keysFor? s.tableKeys j.tableKey = some t ∧
    (t.primaryKey.toFinset.Nonempty ∧ t.primaryKey.toFinset ⊂ j.columnSet) ∧
      f = coversPrimaryKey s t j) ?_ ?_ hi).trans ?_
  · intro f
    constructor
    · rintro ⟨hf, hcode⟩
      obtain ⟨j, hj, hf⟩ := List.mem_flatMap.mp hf
      split at hf
      · rename_i t hkeys
        rcases List.mem_append.mp hf with hf | hf
        · split at hf
          · rename_i hcovers
            exact ⟨j, hj, t, hkeys, strictlyCovers_iff.mp hcovers, List.mem_singleton.mp hf⟩
          · cases hf
        · -- the other findings have another code
          split at hf
          · cases hf
          · obtain ⟨u, -, rfl⟩ := List.mem_map.mp hf
            exact absurd (show "K003" = "K002" from hcode) (by decide)
      · cases hf
    · rintro ⟨j, hj, t, hkeys, hcovers, rfl⟩
      refine ⟨List.mem_flatMap.mpr ⟨j, hj, ?_⟩, rfl⟩
      rw [hkeys]
      refine List.mem_append_left _ ?_
      rw [if_pos (strictlyCovers_iff.mpr hcovers)]
      exact List.mem_singleton_self _
  · rintro j f ⟨t, -, -, rfl⟩
    exact ⟨rfl, rfl⟩
  · simp

/-- The keys that an index on the table should not contain are its primary key and unique indexes. -/
theorem exists_coveringBases_iff {k : String} {outer : List String} :
    (∃ base ∈ coveringBases s.tableKeys s.indexes k,
        strictlyCovers (sortedSet outer) base.2 = true) ↔
      ((s.primaryKeySet k).Nonempty ∧ s.primaryKeySet k ⊂ outer.toFinset) ∨
        ∃ u ∈ s.indexes, u.unique = true ∧ u.tableKey = k ∧ u.columnSet.Nonempty ∧
          u.columnSet ⊂ outer.toFinset := by
  unfold coveringBases
  simp only [List.mem_append, or_and_right, exists_or]
  refine or_congr ?_ ?_
  · rw [← exists_primaryKey_iff (p := (· ⊂ outer.toFinset))]
    cases keysFor? s.tableKeys k with
    | none => simp
    | some t =>
      cases hempty : t.primaryKey.isEmpty with
      | true => simp [List.isEmpty_iff.mp hempty]
      | false => simp [strictlyCovers_iff]
  · constructor
    · rintro ⟨base, hbase, hcovers⟩
      obtain ⟨u, hu, rfl⟩ := List.mem_map.mp hbase
      obtain ⟨hu, hkey⟩ := List.mem_filter.mp hu
      rw [Bool.and_eq_true, decide_eq_true_eq] at hkey
      exact ⟨u, hu, hkey.1, hkey.2, strictlyCovers_iff.mp hcovers⟩
    · rintro ⟨u, hu, hunique, hkey, hcovers⟩
      refine ⟨_, List.mem_map.mpr ⟨u, List.mem_filter.mpr ⟨hu, ?_⟩, rfl⟩,
        strictlyCovers_iff.mpr hcovers⟩
      rw [hunique, hkey, decide_eq_true rfl]
      rfl

/-- An index contains a key when it has all columns of the primary key or of a unique index of its
table, and more. -/
theorem reports_unnecessaryIndexes_iff (hi : i ∈ s.indexes) :
    s.Reports (unnecessaryIndexes s) "K008" i ↔
      ((s.primaryKeySet i.tableKey).Nonempty ∧ s.primaryKeySet i.tableKey ⊂ i.columnSet) ∨
        ∃ u ∈ s.indexes, u.unique = true ∧ u.tableKey = i.tableKey ∧ u.columnSet.Nonempty ∧
          u.columnSet ⊂ i.columnSet := by
  rw [Index.columnSet, ← exists_coveringBases_iff]
  refine (reports_iff (fun j f => ∃ base,
    (coveringBases s.tableKeys s.indexes j.tableKey).find?
      (fun base => strictlyCovers (sortedSet j.columns) base.2) = some base ∧
        supersetIndex s j base = f) ?_ ?_ hi).trans ?_
  · intro f
    constructor
    · rintro ⟨hf, hcode⟩
      rcases List.mem_append.mp hf with hf | hf
      · -- what is found on constant columns has another code
        obtain ⟨c, -, hf⟩ := List.mem_flatMap.mp hf
        obtain ⟨j, -, rfl⟩ := List.mem_map.mp hf
        exact absurd (show "K007" = "K008" from hcode) (by decide)
      · obtain ⟨j, hj, hf⟩ := List.mem_filterMap.mp hf
        exact ⟨j, hj, Option.map_eq_some_iff.mp hf⟩
    · rintro ⟨j, hj, base, hbase, rfl⟩
      refine ⟨List.mem_append_right _ (List.mem_filterMap.mpr ⟨j, hj, ?_⟩), rfl⟩
      rw [hbase]
      rfl
  · rintro j f ⟨base, -, rfl⟩
    exact ⟨rfl, rfl⟩
  · rw [exists_comm]
    simp only [exists_and_left, exists_eq', and_true, ← Option.isSome_iff_exists, List.isSome_find?,
      List.any_eq_true]

/-! ## What is left -/

/-- The findings advise to drop the index: it repeats the primary key, or it contains a key. -/
def Flags (s : Source) (i : Index) : Prop :=
  s.Reports (Detector.redundantUniqueIndex.find s) "K004" i ∨
    s.Reports (Detector.unnecessaryIndexes.find s) "K008" i

/-- An index that should be dropped contains the primary key, or a unique index that is kept. -/
theorem exists_key_of_flags (hi : i ∈ s.indexes) (h : s.Flags i) :
    ((s.primaryKeySet i.tableKey).Nonempty ∧ s.primaryKeySet i.tableKey ⊆ i.columnSet) ∨
      ∃ u ∈ s.indexes, u.unique = true ∧ u.tableKey = i.tableKey ∧ ¬ s.Flags u ∧
        u.columnSet.Nonempty ∧ u.columnSet ⊆ i.columnSet := by
  -- a unique index that is contained and should be dropped too has fewer columns
  induction hset : i.columnSet using Finset.strongInduction generalizing i with
  | H columns ih =>
    subst hset
    rcases h with h | h
    · obtain ⟨-, hne, heq⟩ := (reports_redundantIndexes_iff hi).mp h
      exact Or.inl ⟨hne, heq.superset⟩
    · rcases (reports_unnecessaryIndexes_iff hi).mp h with ⟨hne, hsub⟩ | ⟨u, hu, hunique, hkey, hne, hsub⟩
      · exact Or.inl ⟨hne, hsub.subset⟩
      · by_cases hflags : s.Flags u
        · rcases ih u.columnSet hsub hu hflags rfl with ⟨hne', hsub'⟩ | ⟨v, hv, hunique', hkey', hkept, hne', hsub'⟩
          · rw [hkey] at hne' hsub'
            exact Or.inl ⟨hne', hsub'.trans hsub.subset⟩
          · exact Or.inr ⟨v, hv, hunique', hkey'.trans hkey, hkept, hne', hsub'.trans hsub.subset⟩
        · exact Or.inr ⟨u, hu, hunique, hkey, hflags, hne, hsub.subset⟩

end Source

/-- **Following every advice to drop an index at once leaves a key.**  An index that should be dropped
contains the primary key of its table, or a unique index that is kept.  An index is reported to contain a
key exactly when it does, which includes every index reported to cover the primary key. -/
theorem dropping_flagged_indexes_keeps_keys (sql : String) (i : Index) :
    let s := Source.ofString sql
    i ∈ s.indexes →
      (s.Flags i →
        ((s.primaryKeySet i.tableKey).Nonempty ∧ s.primaryKeySet i.tableKey ⊆ i.columnSet) ∨
          ∃ u ∈ s.indexes, u.unique = true ∧ u.tableKey = i.tableKey ∧ ¬ s.Flags u ∧
            u.columnSet.Nonempty ∧ u.columnSet ⊆ i.columnSet) ∧
      (s.Reports (Detector.unnecessaryIndexes.run sql) "K008" i ↔
        ((s.primaryKeySet i.tableKey).Nonempty ∧ s.primaryKeySet i.tableKey ⊂ i.columnSet) ∨
          ∃ u ∈ s.indexes, u.unique = true ∧ u.tableKey = i.tableKey ∧ u.columnSet.Nonempty ∧
            u.columnSet ⊂ i.columnSet) ∧
      (s.Reports (Detector.indexAnomalies.run sql) "K002" i →
        s.Reports (Detector.unnecessaryIndexes.run sql) "K008" i) := by
  intro s hi
  refine ⟨Source.exists_key_of_flags hi, Source.reports_unnecessaryIndexes_iff hi, fun h => ?_⟩
  exact (Source.reports_unnecessaryIndexes_iff hi).mpr
    (Or.inl ((Source.reports_indexAnomalies_iff hi).mp h))

/-- Three indexes on a table without primary key: each contains the one before. -/
def nestedIndexes : String :=
  "CREATE UNIQUE INDEX u ON t(a);CREATE UNIQUE INDEX v ON t(a,b);CREATE INDEX w ON t(b,c,a);"

theorem dropping_flagged_indexes_keeps_first :
    let s := Source.ofString nestedIndexes
    ∃ i ∈ s.indexes, i.name = "w" ∧ s.Flags i ∧
      ∃ u ∈ s.indexes, u.unique = true ∧ u.tableKey = i.tableKey ∧ ¬ s.Flags u ∧
        u.columnSet.Nonempty ∧ u.columnSet ⊆ i.columnSet := by
  intro s
  have hindexes : s.indexes = [⟨"u", "t", true, ["A"], 0, 1⟩, ⟨"v", "t", true, ["A", "B"], 30, 1⟩,
      ⟨"w", "t", false, ["B", "C", "A"], 62, 1⟩] := by decide +kernel
  have hkey : s.primaryKeySet "T" = ∅ := by decide +kernel
  have hw : ⟨"w", "t", false, ["B", "C", "A"], 62, 1⟩ ∈ s.indexes := by simp [hindexes]
  have hv : ⟨"v", "t", true, ["A", "B"], 30, 1⟩ ∈ s.indexes := by simp [hindexes]
  obtain ⟨hleft, hreported, -⟩ := dropping_flagged_indexes_keeps_keys nestedIndexes _ hw
  have hflags : s.Flags ⟨"w", "t", false, ["B", "C", "A"], 62, 1⟩ :=
    Or.inr (hreported.mpr (Or.inr ⟨_, hv, rfl, rfl, by decide, by decide⟩))
  refine ⟨_, hw, rfl, hflags, ?_⟩
  rcases hleft hflags with ⟨hne, -⟩ | hkept
  · have hempty : ¬ (s.primaryKeySet "T").Nonempty := by simp [hkey]
    exact absurd hne hempty
  · exact hkept

end SchemaReview
