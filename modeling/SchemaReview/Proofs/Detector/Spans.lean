import Mathlib.Tactic.SplitIfs
import SchemaReview.Detector.Run
import SchemaReview.Proofs.Detector.Positions
import SchemaReview.Proofs.Sequence

/-!
# Proofs.Detector.Spans — the kinds and the spans of findings

Every finding is followed back to what its detector made it for, once for each detector.

* `Finding.Placed s f`: the span of the finding and the spans of its notes were made for pieces of the text.
* `Finding.Reported s d f`: the finding is of a kind of the detector as well.
* `Detector.reported_of_mem_find`: a detector gives only such findings, since it makes spans for tables,
  columns, items, indexes and clauses that the source really has.
-/

namespace SchemaReview

open Text

/-- The spans of a finding: its own and those of its notes. -/
def Finding.spans (f : Finding) : List Span := f.span.toList ++ f.notes.map Note.span

/-- All spans of the finding were made for pieces of the text. -/
structure Finding.Placed (s : Source) (f : Finding) : Prop where
  span : ∀ p ∈ f.span, s.Places p
  notes : ∀ n ∈ f.notes, s.Places n.span

namespace Finding.Placed

variable {s : Source} {f : Finding}

theorem of_mem_spans (h : f.Placed s) {p : Span} (hp : p ∈ f.spans) : s.Places p := by
  rcases List.mem_append.mp hp with hp | hp
  · exact h.span p (Option.mem_toList.mp hp)
  · obtain ⟨n, hn, rfl⟩ := List.mem_map.mp hp
    exact h.notes n hn

theorem new (severity : Severity) (kind : FindingKind) (message : String) :
    (Finding.new severity kind message).Placed s := ⟨nofun, nofun⟩

theorem withSpan (h : f.Placed s) {p : Span} (hp : s.Places p) : (f.withSpan p).Placed s := by
  refine ⟨fun q hq => ?_, h.notes⟩
  obtain rfl : p = q := Option.some.inj hq
  exact hp

theorem withNotes (h : f.Placed s) {notes : List Note} (hnotes : ∀ n ∈ notes, s.Places n.span) :
    (f.withNotes notes).Placed s :=
  ⟨h.span, fun n hn => (List.mem_append.mp hn).elim (h.notes n) (hnotes n)⟩

theorem withNote (h : f.Placed s) (message : String) {p : Span} (hp : s.Places p) :
    (f.withNote message p).Placed s :=
  h.withNotes (List.forall_mem_singleton.mpr hp)

theorem withHelp (h : f.Placed s) (help : String) : (f.withHelp help).Placed s := ⟨h.span, h.notes⟩

theorem withTable (h : f.Placed s) (table : String) : (f.withTable table).Placed s := ⟨h.span, h.notes⟩

theorem withColumns (h : f.Placed s) (columns : List String) : (f.withColumns columns).Placed s :=
  ⟨h.span, h.notes⟩

theorem withIndex (h : f.Placed s) (index : String) : (f.withIndex index).Placed s := ⟨h.span, h.notes⟩

end Finding.Placed

/-- The finding is one that the detector may report. -/
structure Finding.Reported (s : Source) (d : Detector) (f : Finding) : Prop where
  detector_kind : f.kind.detector = d
  placed : f.Placed s

section

variable {s : Source} {f : Finding}

open Source Finding

/-! ## Columns -/

theorem places_columnSpan {c : DeclaredColumn} (h : c ∈ s.columns) : s.Places (s.columnSpan c) :=
  places_spanAt (shows_columnName h)

theorem reported_typeConflict? {key : String} {uses : List DeclaredColumn} (huses : ∀ c ∈ uses, c ∈ s.columns)
    (h : typeConflict? s key uses = some f) : f.Reported s .conflictingTypes := by
  have hmem : ∀ c ∈ (groupBy (fun c : DeclaredColumn => c.column.type.key) uses).flatMap (·.2),
      c ∈ s.columns := by
    intro c hc
    obtain ⟨entry, hentry, hc⟩ := List.mem_flatMap.mp hc
    exact huses c (mem_of_mem_groupBy hentry hc)
  unfold typeConflict? at h
  dsimp only at h
  split at h
  · cases h
  · rename_i first others huse
    rw [huse] at hmem
    split at h
    · cases h
    · cases h
      refine ⟨rfl, ((((Placed.new ..).withSpan ?_).withColumns _).withNotes fun n hn => ?_).withHelp _⟩
      · exact places_columnSpan (hmem first List.mem_cons_self)
      · obtain ⟨c, hc, rfl⟩ := List.mem_map.mp hn
        exact places_columnSpan (hmem c hc)

theorem reported_of_mem_typeConflicts (h : f ∈ typeConflicts s) : f.Reported s .conflictingTypes := by
  obtain ⟨⟨key, uses⟩, hentry, hf⟩ := List.mem_filterMap.mp h
  exact reported_typeConflict? (fun c hc => mem_of_mem_groupBy hentry hc) hf

/-- Every misfit of a default value is of one of three kinds. -/
theorem detector_of_defaultMisfit? {type : DeclaredType} {raw : Text} {misfit : FindingKind × String}
    (h : defaultMisfit? type raw = some misfit) : misfit.1.detector = .defaultValueConflict := by
  unfold defaultMisfit? at h
  dsimp only at h
  split at h
  · split at h
    · cases h
      rfl
    · split at h
      · cases h
      · split at h
        · cases h
          rfl
        · cases h
  · split_ifs at h
    all_goals
      cases h
      rfl
  · cases h

theorem reported_of_mem_defaultConflicts (h : f ∈ defaultConflicts s) :
    f.Reported s .defaultValueConflict := by
  obtain ⟨c, hc, hf⟩ := List.mem_filterMap.mp h
  obtain ⟨raw, -, hf⟩ := Option.bind_eq_some_iff.mp hf
  split at hf
  · cases hf
  · obtain ⟨misfit, hmisfit, hf⟩ := Option.bind_eq_some_iff.mp hf
    cases hf
    have hspan : s.Places (s.spanOf c.piece) := places_spanAt (shows_column hc)
    exact ⟨detector_of_defaultMisfit? hmisfit,
      ((((Placed.new ..).withSpan hspan).withTable _).withColumns _).withHelp _⟩

theorem reported_of_mem_reservedWordColumns (h : f ∈ reservedWordColumns s) : f.Reported s .reservedWords := by
  obtain ⟨c, hc, rfl⟩ := List.mem_map.mp h
  have hcolumn : c ∈ s.columns := (List.mem_filter.mp (mem_of_mem_firstBy _ hc)).1
  exact ⟨rfl, ((((Placed.new ..).withSpan (places_columnSpan hcolumn)).withTable _).withColumns _).withHelp _⟩

/-! ## Keys -/

theorem places_item {mode : ScopeMode} {item : TableItem} (h : item ∈ s.itemsIn mode) :
    s.Places (s.spanOf item.piece) := places_spanAt (shows_item h)

theorem reported_of_mem_nullableKeysFrom {seen : List SeenColumn} {items : List TableItem}
    (hseen : ∀ c ∈ seen, s.Places (s.spanOf c.piece))
    (hitems : ∀ item ∈ items, s.Places (s.spanOf item.piece)) (h : f ∈ nullableKeysFrom s seen items) :
    f.Reported s .nullPrimaryKey := by
  induction items generalizing seen with
  | nil => cases h
  | cons item items ih =>
    rw [List.forall_mem_cons] at hitems
    rw [nullableKeysFrom] at h
    split at h
    · rename_i column hcolumn
      rcases List.mem_append.mp h with hhere | hlater
      · split at hhere
        · rw [List.mem_singleton] at hhere
          subst hhere
          exact ⟨rfl, ((((Placed.new ..).withSpan hitems.1).withTable _).withColumns _).withHelp _⟩
        · cases hhere
      · exact ih (List.forall_mem_cons.mpr ⟨hitems.1, hseen⟩) hitems.2 hlater
    · rcases List.mem_append.mp h with hhere | hlater
      · obtain ⟨key, -, hf⟩ := List.mem_filterMap.mp hhere
        split at hf
        · rename_i column hfind
          split at hf
          · cases hf
          · cases hf
            have hcolumn := hseen column (List.mem_of_find?_eq_some hfind)
            exact ⟨rfl, (((((Placed.new ..).withSpan hcolumn).withNote _ hitems.1).withTable _).withColumns
              _).withHelp _⟩
        · cases hf
      · exact ih hseen hitems.2 hlater

theorem reported_of_mem_nullableKeys (h : f ∈ nullableKeys s) : f.Reported s .nullPrimaryKey :=
  reported_of_mem_nullableKeysFrom (List.forall_mem_nil _) (fun _ hitem => places_item hitem) h

theorem places_of_mem_tableKeys {t : TableKeys} (h : t ∈ s.tableKeys) : s.Places t.span := by
  obtain ⟨table, htable, rfl⟩ := List.mem_map.mp h
  exact places_spanAt (shows_table (mem_of_mem_firstBy _ htable))

theorem reported_of_mem_missingKeys (h : f ∈ missingKeys s) : f.Reported s .missingPotentialKeys := by
  obtain ⟨t, ht, rfl⟩ := List.mem_map.mp h
  have hspan := places_of_mem_tableKeys (List.mem_filter.mp ht).1
  exact ⟨rfl, (((Placed.new ..).withSpan hspan).withTable _).withHelp _⟩

theorem reported_of_mem_missingAlternates (h : f ∈ missingAlternates s) : f.Reported s .wrongAlternateKey := by
  obtain ⟨t, ht, hf⟩ := List.mem_filterMap.mp h
  split at hf
  · split at hf
    · cases hf
      have hspan := places_of_mem_tableKeys ht
      exact ⟨rfl, ((((Placed.new ..).withSpan hspan).withTable _).withColumns _).withHelp _⟩
    · cases hf
  · cases hf

/-! ## Indexes -/

theorem places_indexSpan {i : Index} (h : i ∈ s.indexes) : s.Places (s.indexSpan i) :=
  places_spanAt (shows_index h)

theorem reported_of_mem_indexAnomalies (h : f ∈ indexAnomalies s) : f.Reported s .indexAnomalies := by
  obtain ⟨i, hi, hf⟩ := List.mem_flatMap.mp h
  have hspan := places_indexSpan hi
  split at hf
  · rcases List.mem_append.mp hf with hprimary | hunique
    · split at hprimary
      · rw [List.mem_singleton] at hprimary
        subst hprimary
        exact ⟨rfl, (((((((Placed.new ..).withSpan hspan).withNote _ hspan).withNote _ hspan).withTable
          _).withIndex _).withColumns _).withHelp _⟩
      · cases hprimary
    · split at hunique
      · cases hunique
      · obtain ⟨u, -, rfl⟩ := List.mem_map.mp hunique
        exact ⟨rfl, ((((((Placed.new ..).withSpan hspan).withNote _ hspan).withTable _).withIndex
          _).withColumns _).withHelp _⟩
  · cases hf

theorem reported_of_mem_redundantIndexes (h : f ∈ redundantIndexes s) :
    f.Reported s .redundantUniqueIndex := by
  obtain ⟨i, hi, hf⟩ := List.mem_filterMap.mp h
  have hspan := places_indexSpan (List.mem_filter.mp hi).1
  split at hf
  · split at hf
    · cases hf
      exact ⟨rfl, (((((((Placed.new ..).withSpan hspan).withNote _ hspan).withNote _ hspan).withTable
        _).withIndex _).withColumns _).withHelp _⟩
    · cases hf
  · cases hf

theorem reported_of_mem_unnecessaryIndexes (h : f ∈ unnecessaryIndexes s) :
    f.Reported s .unnecessaryIndexes := by
  rcases List.mem_append.mp h with hconstant | hsuperset
  · obtain ⟨c, -, hf⟩ := List.mem_flatMap.mp hconstant
    obtain ⟨i, hi, rfl⟩ := List.mem_map.mp hf
    have hspan := places_indexSpan (List.mem_filter.mp hi).1
    exact ⟨rfl, (((((Placed.new ..).withSpan hspan).withTable _).withIndex _).withColumns _).withHelp _⟩
  · obtain ⟨i, hi, hf⟩ := List.mem_filterMap.mp hsuperset
    obtain ⟨base, -, rfl⟩ := Option.map_eq_some_iff.mp hf
    have hspan := places_indexSpan hi
    exact ⟨rfl, (((((Placed.new ..).withSpan hspan).withTable _).withIndex _).withColumns _).withHelp _⟩

/-! ## Checks and relations -/

theorem CheckClass.detector_kind (cls : CheckClass) :
    cls.kind.detector = .unnecessaryCheckConstraints := by
  cases cls <;> rfl

theorem reported_of_mem_uselessChecks (h : f ∈ uselessChecks s) :
    f.Reported s .unnecessaryCheckConstraints := by
  obtain ⟨item, hitem, hf⟩ := List.mem_flatMap.mp h
  obtain ⟨check, hcheck, hf⟩ := List.mem_filterMap.mp hf
  obtain ⟨cls, -, rfl⟩ := Option.map_eq_some_iff.mp hf
  have hspan := places_spanAt (shows_clause hitem (shows_of_mem_checks hcheck))
  exact ⟨cls.detector_kind, (((Placed.new ..).withSpan hspan).withTable _).withHelp _⟩

theorem reported_of_mem_isolatedTables (h : f ∈ isolatedTables s) : f.Reported s .tablesWithoutRelations := by
  obtain ⟨t, ht, rfl⟩ := List.mem_map.mp h
  have htable : t ∈ s.tables := (List.mem_filter.mp (mem_of_mem_firstBy _ ht)).1
  exact ⟨rfl, (((Placed.new ..).withSpan (places_spanAt (shows_table htable))).withTable _).withHelp _⟩

theorem places_of_mem_foreignKeyUses {u : ForeignKeyUse} (h : u ∈ s.foreignKeyUses) :
    s.Places (s.spanOf u.piece) := by
  obtain ⟨item, hitem, hu⟩ := List.mem_flatMap.mp h
  obtain ⟨fk, -, rfl⟩ := List.mem_map.mp hu
  exact places_item hitem

theorem reported_of_mem_conflictingPairs {table : String} {uses : List ForeignKeyUse}
    (huses : ∀ u ∈ uses, s.Places (s.spanOf u.piece)) (h : f ∈ conflictingPairs s table uses) :
    f.Reported s .unnecessaryForeignKeys := by
  induction uses with
  | nil => cases h
  | cons first others ih =>
    rw [List.forall_mem_cons] at huses
    rcases List.mem_append.mp h with hfirst | hlater
    · obtain ⟨second, hsecond, hf⟩ := List.mem_filterMap.mp hfirst
      unfold foreignKeyConflict? at hf
      dsimp only at hf
      split at hf
      · cases hf
      · cases hf
        refine ⟨rfl, (((((Placed.new ..).withSpan huses.1).withNotes fun n hn => ?_).withTable _).withColumns
          _).withHelp _⟩
        rw [List.mem_cons, List.mem_singleton] at hn
        rcases hn with rfl | rfl
        · exact huses.1
        · exact huses.2 second hsecond
    · exact ih huses.2 hlater

theorem reported_of_mem_foreignKeyConflicts (h : f ∈ foreignKeyConflicts s) :
    f.Reported s .unnecessaryForeignKeys := by
  obtain ⟨⟨key, uses⟩, hentry, hf⟩ := List.mem_flatMap.mp h
  exact reported_of_mem_conflictingPairs
    (fun u hu => places_of_mem_foreignKeyUses (mem_of_mem_groupBy hentry hu)) hf

theorem reported_of_mem_undefinedRelations (h : f ∈ undefinedRelations s) :
    f.Reported s .undefinedRelations := by
  obtain ⟨⟨⟨column, type⟩, uses⟩, hentry, hf⟩ := List.mem_filterMap.mp h
  have huses : ∀ c ∈ uses, s.Places (s.spanOf c.piece) := fun c hc =>
    places_spanAt (shows_column (List.mem_filter.mp (mem_of_mem_groupBy hentry hc)).1)
  unfold undefinedRelation? at hf
  dsimp only at hf
  split at hf
  · cases hf
  · split at hf
    · cases hf
    · cases hf
      refine ⟨rfl, ((((Placed.new ..).withSpan ?_).withColumns _).withNotes fun n hn => ?_).withHelp _⟩
      · exact huses _ List.mem_cons_self
      · obtain ⟨c, hc, rfl⟩ := List.mem_map.mp hn
        exact huses c hc

theorem places_of_mem_relations {r : Relation} (h : r ∈ s.relations) : s.Places r.span := by
  obtain ⟨item, hitem, hr⟩ := List.mem_flatMap.mp h
  obtain ⟨fk, hfk, hr⟩ := List.mem_filterMap.mp hr
  split at hr
  · cases hr
    exact places_spanAt (shows_clause hitem (shows_of_mem_foreignKeys hfk))
  · cases hr

theorem reported_of_mem_mutualReferences (h : f ∈ mutualReferences s) :
    f.Reported s .overlappingRelations := by
  obtain ⟨⟨pair, relations⟩, hentry, hf⟩ := List.mem_filterMap.mp h
  have hspans : ∀ r ∈ relations, s.Places r.span := fun r hr =>
    places_of_mem_relations (mem_of_mem_groupBy hentry hr)
  change mutualReference? relations = some f at hf
  unfold mutualReference? at hf
  split at hf
  · split at hf
    · cases hf
    · cases hf
      rw [List.forall_mem_cons, List.forall_mem_singleton] at hspans
      refine ⟨rfl, ((((Placed.new ..).withSpan hspans.1).withNotes fun n hn => ?_).withColumns _).withHelp _⟩
      rw [List.mem_cons, List.mem_singleton] at hn
      rcases hn with rfl | rfl
      · exact hspans.1
      · exact hspans.2
  · cases hf

theorem shows_of_mem_allForeignKeys {item : TableItem} {fk : ForeignKey} (h : fk ∈ allForeignKeys item) :
    item.piece.text.Shows fk.offset 0 := by
  rcases List.mem_append.mp h with h | h
  · exact shows_of_mem_foreignKeys h
  · split at h
    · rename_i column hcolumn
      exact Column.shows_reference? hcolumn (Option.mem_toList.mp h)
    · cases h

theorem reported_of_mem_selfReferences (h : f ∈ selfReferences s) :
    f.Reported s .incorrectRecursiveRelation := by
  obtain ⟨r, hr, rfl⟩ := List.mem_map.mp h
  obtain ⟨item, hitem, hr⟩ := List.mem_flatMap.mp (List.mem_filter.mp hr).1
  obtain ⟨fk, hfk, hr⟩ := List.mem_flatMap.mp hr
  obtain ⟨column, -, rfl⟩ := List.mem_map.mp hr
  have hspan := places_spanAt (shows_clause hitem (shows_of_mem_allForeignKeys (List.mem_filter.mp hfk).1))
  exact ⟨rfl, (((((Placed.new ..).withSpan hspan).withNote _ hspan).withTable _).withColumns _).withHelp _⟩

theorem places_cascadeNote? {edge : String × String} {n : Note}
    (h : cascadeNote? s s.cascadeGraph edge = some n) : s.Places n.span := by
  obtain ⟨offset, hoffset, rfl⟩ := Option.map_eq_some_iff.mp h
  obtain ⟨e, he, rfl⟩ := Option.map_eq_some_iff.mp hoffset
  exact places_spanAt (shows_edge (List.mem_of_find?_eq_some he))

theorem reported_of_mem_cascadeCycles (h : f ∈ cascadeCycles s) :
    f.Reported s .infiniteDeleteCascade := by
  obtain ⟨cycle, -, rfl⟩ := Option.map_eq_some_iff.mp (Option.mem_toList.mp h)
  have hnotes : ∀ edges : List (String × String), ∀ n ∈ edges.filterMap (cascadeNote? s s.cascadeGraph),
      s.Places n.span := by
    intro edges n hn
    obtain ⟨edge, -, hn⟩ := List.mem_filterMap.mp hn
    exact places_cascadeNote? hn
  refine ⟨rfl, (Placed.withNotes ⟨fun p hp => ?_, List.forall_mem_nil _⟩ (hnotes _)).withHelp _⟩
  obtain ⟨n, hn, rfl⟩ := Option.map_eq_some_iff.mp hp
  exact hnotes _ n (List.mem_of_mem_head? hn)

/-- A detector reports only kinds that belong to it, and makes its spans for pieces of the text. -/
theorem Detector.reported_of_mem_find {d : Detector} (h : f ∈ d.find s) : f.Reported s d := by
  cases d with
  | conflictingTypes => exact reported_of_mem_typeConflicts h
  | defaultValueConflict => exact reported_of_mem_defaultConflicts h
  | reservedWords => exact reported_of_mem_reservedWordColumns h
  | nullPrimaryKey => exact reported_of_mem_nullableKeys h
  | indexAnomalies => exact reported_of_mem_indexAnomalies h
  | redundantUniqueIndex => exact reported_of_mem_redundantIndexes h
  | tablesWithoutRelations => exact reported_of_mem_isolatedTables h
  | missingPotentialKeys => exact reported_of_mem_missingKeys h
  | unnecessaryIndexes => exact reported_of_mem_unnecessaryIndexes h
  | wrongAlternateKey => exact reported_of_mem_missingAlternates h
  | unnecessaryCheckConstraints => exact reported_of_mem_uselessChecks h
  | unnecessaryForeignKeys => exact reported_of_mem_foreignKeyConflicts h
  | undefinedRelations => exact reported_of_mem_undefinedRelations h
  | overlappingRelations => exact reported_of_mem_mutualReferences h
  | incorrectRecursiveRelation => exact reported_of_mem_selfReferences h
  | infiniteDeleteCascade => exact reported_of_mem_cascadeCycles h

theorem Detector.detector_of_mem_find {d : Detector} (h : f ∈ d.find s) : f.kind.detector = d :=
  (d.reported_of_mem_find h).detector_kind

theorem Detector.placed_of_mem_find {d : Detector} (h : f ∈ d.find s) : f.Placed s :=
  (d.reported_of_mem_find h).placed

end

end SchemaReview
