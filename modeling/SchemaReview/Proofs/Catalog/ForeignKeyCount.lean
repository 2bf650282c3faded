import Mathlib.Data.List.Perm.Subperm
import Mathlib.Tactic.Choose
import SchemaReview.Detector.UndefinedRelation
import SchemaReview.Proofs.Catalog.Growth
import SchemaReview.Proofs.Ddl.ForeignKey
import SchemaReview.Proofs.Keyed
import SchemaReview.Proofs.Scope.Events
import SchemaReview.Proofs.Source.Statement

/-!
# Proofs.Catalog.ForeignKeyCount — foreign keys of a catalog and REFERENCES clauses of its script

Foreign keys enter a catalog with columns, with clauses of table bodies, and with statements that alter
a table.  Each of them is read off a range of bytes of the script.

* `length_foreignKeys_le_reads`: a catalog has no more foreign keys than were read.
* Ranges of the same kind do not overlap (`pairwise_bodyRanges`, `pairwise_addedRanges`), and each of
  them holds the word REFERENCES (`holdsWord_of_mem_bodyRanges`, `holdsWord_of_mem_addedRanges`).
* `length_foreignKeys_le`: so there are no more foreign keys than words, but for the added ones that were
  read off a table body.  Such a foreign key is recorded twice (`foreignKey_recorded_twice`): the body
  belongs to the statement that alters the table when no semicolon stands between them.
-/

namespace SchemaReview

open Text

/-! ## Foreign keys that are read -/

namespace CatalogTable

variable (s : Source) (piece : Piece) (t : CatalogTable)

theorem length_foreignKeys_readColumn (c : Column) :
    (t.readColumn s piece c).foreignKeys.length =
      t.foreignKeys.length + c.reference?.toList.length := by
  have hunique : (t.declareUnique piece.line c).foreignKeys = t.foreignKeys := by
    unfold declareUnique
    split <;> rfl
  have hprimary : ∀ t : CatalogTable,
      (t.declarePrimaryKey piece.line c).foreignKeys = t.foreignKeys := by
    intro t
    unfold declarePrimaryKey
    split <;> rfl
  have hreference : ∀ t : CatalogTable, (t.declareReference s piece c).foreignKeys.length =
      t.foreignKeys.length + c.reference?.toList.length := by
    intro t
    unfold declareReference
    cases c.reference? <;> simp
  rw [readColumn_eq]
  show (declareReference _ s piece c).foreignKeys.length = _
  rw [hreference, hprimary, hunique]

theorem length_foreignKeys_readConstraint : (t.readConstraint s piece).foreignKeys.length =
    t.foreignKeys.length + (SchemaReview.foreignKeys piece.text).length := by
  unfold readConstraint
  cases primaryKeyColumns? piece.text <;> simp [extendPrimaryKey]

theorem length_foreignKeys_readItem (item : TableItem) :
    (t.readItem s item.piece).foreignKeys.length =
      t.foreignKeys.length + item.foreignKeys.length := by
  unfold readItem TableItem.foreignKeys
  cases Column.ofText? item.piece.text with
  | some c => exact length_foreignKeys_readColumn s item.piece _ c
  | none => exact length_foreignKeys_readConstraint s item.piece _

end CatalogTable

namespace Catalog

theorem foreignKeys_eq (c : Catalog) : c.foreignKeys =
    c.tables.flatMap fun entry => entry.2.foreignKeys.map fun fk => (entry.2, fk) :=
  List.flatMap_map _ _ _

theorem length_foreignKeys_modifyTable {c : Catalog} (h : c.Consistent) {name : String}
    {f : CatalogTable → CatalogTable} {n : Nat}
    (hf : ∀ t, (f t).foreignKeys.length ≤ t.foreignKeys.length + n) :
    (c.modifyTable name f).foreignKeys.length ≤ c.foreignKeys.length + n := by
  rw [foreignKeys_eq, foreignKeys_eq]
  refine Keyed.length_flatMap_modify_le (fun t => t.foreignKeys.map fun fk => (t, fk))
    h.named.nodup fun t => ?_
  rw [List.length_map, List.length_map]
  exact hf t

theorem length_foreignKeys_readEvent {c : Catalog} (h : c.Consistent) (s : Source)
    (event : ScopeEvent) : (c.readEvent s event).foreignKeys.length ≤
      c.foreignKeys.length + (event.item?.toList.flatMap TableItem.foreignKeys).length := by
  cases event with
  | enter table =>
    rw [readEvent, addTable, foreignKeys_eq, foreignKeys_eq, Keyed.insertNew]
    split <;> simp
  | item table piece =>
    refine length_foreignKeys_modifyTable h fun t => le_of_eq ?_
    simpa [ScopeEvent.item?] using CatalogTable.length_foreignKeys_readItem s t ⟨table, piece⟩
  | exit => simp [readEvent]

theorem length_foreignKeys_readEvents {c : Catalog} (h : c.Consistent) (s : Source)
    (events : List ScopeEvent) :
    (events.foldl (readEvent s) c).foreignKeys.length ≤ c.foreignKeys.length +
      ((events.filterMap ScopeEvent.item?).flatMap TableItem.foreignKeys).length := by
  induction events generalizing c with
  | nil => simp
  | cons event events ih =>
    have hstep := length_foreignKeys_readEvent h s event
    have hrest := ih (readEvent_consistent s h event)
    have hitems : ((event :: events).filterMap ScopeEvent.item?).flatMap TableItem.foreignKeys =
        event.item?.toList.flatMap TableItem.foreignKeys ++
          (events.filterMap ScopeEvent.item?).flatMap TableItem.foreignKeys := by
      cases hitem : event.item? <;> simp [hitem]
    rw [List.foldl_cons, hitems, List.length_append]
    omega

theorem length_foreignKeys_readAdded {c : Catalog} (h : c.Consistent)
    (added : List AddedForeignKey) :
    (added.foldl readAddedForeignKey c).foreignKeys.length ≤
      c.foreignKeys.length + added.length := by
  induction added generalizing c with
  | nil => simp
  | cons a added ih =>
    have hstep : (c.readAddedForeignKey a).foreignKeys.length ≤ c.foreignKeys.length + 1 :=
      length_foreignKeys_modifyTable h (by simp)
    have hrest := ih (readAddedForeignKey_consistent h a)
    rw [List.foldl_cons, List.length_cons]
    omega

/-- Indexes do not touch the tables. -/
theorem tables_readIndexes (c : Catalog) (indexes : List Index) :
    (indexes.foldl readIndex c).tables = c.tables := by
  induction indexes generalizing c with
  | nil => rfl
  | cons i indexes ih => exact ih (c.readIndex i)

/-- A catalog has no more foreign keys than the items and the statements of its script declare. -/
theorem length_foreignKeys_le_reads (s : Source) :
    (readSource {} s).foreignKeys.length ≤
      (s.items.flatMap TableItem.foreignKeys).length + s.addedForeignKeys.length := by
  set bodies := (s.scopeEvents .replace).foldl (readEvent s) {} with hbodies
  have hconsistent : bodies.Consistent :=
    foldl_consistent (fun _ event h => readEvent_consistent s h event) consistent_empty _
  have hcount : bodies.foreignKeys.length ≤ 0 + (s.items.flatMap TableItem.foreignKeys).length :=
    length_foreignKeys_readEvents consistent_empty s _
  have htables := tables_readIndexes bodies s.indexes
  have hindexed : (s.indexes.foldl readIndex bodies).Consistent :=
    ⟨htables ▸ hconsistent.named, htables ▸ hconsistent.tables⟩
  have hadded := length_foreignKeys_readAdded hindexed s.addedForeignKeys
  have hsame : (s.indexes.foldl readIndex bodies).foreignKeys = bodies.foreignKeys := by
    rw [foreignKeys, htables, foreignKeys]
  rw [hsame] at hadded
  show ((s.indexes.foldl readIndex bodies) |> s.addedForeignKeys.foldl
    readAddedForeignKey).foreignKeys.length ≤ _
  omega

end Catalog

/-! ## Table-level foreign keys -/

/-- The first range ends before the second one begins, or the other way round. -/
def Apart (a b : Nat × Nat) : Prop := a.2 ≤ b.1 ∨ b.2 ≤ a.1

/-- The byte ranges of the table-level foreign keys of a piece of text that begins at byte `offset`. -/
def clauseRanges (offset : Nat) (t : Text) : List (Nat × Nat) :=
  (Pattern.foreignKey.findAll t).map fun m => (offset + m.start.offset, offset + m.stop.offset)

theorem pairwise_clauseRanges (offset : Nat) (t : Text) :
    (clauseRanges offset t).Pairwise fun a b => a.2 ≤ b.1 :=
  List.pairwise_map.mpr ((Pattern.pairwise_findAll _ t).imp fun h => Nat.add_le_add_left h offset)

theorem within_of_mem_clauseRanges {offset : Nat} {t : Text} {range : Nat × Nat}
    (h : range ∈ clauseRanges offset t) :
    offset ≤ range.1 ∧ range.2 ≤ offset + byteSize t := by
  obtain ⟨m, hm, rfl⟩ := List.mem_map.mp h
  obtain ⟨hin, hmatch⟩ := Pattern.matchAt_of_mem_findAll hm
  obtain ⟨-, w, hw, -⟩ := Pattern.matchAt_eq_some hmatch
  have hstop := (hin.passes hw).offset_add_byteSize
  exact ⟨Nat.le_add_right _ _, by dsimp only; omega⟩

/-- The word REFERENCES stands in the range of the text. -/
def HoldsWord (t : Text) (range : Nat × Nat) : Prop :=
  ∃ m ∈ Pattern.referenceWord.findAll t, range.1 ≤ m.start.offset ∧ m.start.offset < range.2

theorem holdsWord_of_mem_clauseRanges {text before t after : Text}
    (htext : text = before ++ t ++ after) {range : Nat × Nat}
    (h : range ∈ clauseRanges (byteSize before) t) : HoldsWord text range := by
  obtain ⟨m, hm, rfl⟩ := List.mem_map.mp h
  obtain ⟨⟨v, hv⟩, hmatch⟩ := Pattern.matchAt_of_mem_findAll hm
  obtain ⟨d, w, hw, ⟨x, hx, hxword⟩, hrefers⟩ := Pattern.exists_refersAt_of_foreignKey hmatch
  obtain ⟨u, hbegins, -⟩ := hrefers.spelled (by decide)
  have hv' : t = v ++ m.start.rest := hv.rest
  have hsplit : text = before ++ v ++ w ++ d.rest ++ after := by
    rw [htext, hv', hw.rest]
    simp
  have hlast : ∀ y ∈ (before ++ v ++ w).getLast?, isWord y = false := by
    intro y hy
    rw [List.getLast?_append, Option.mem_def.mp hx] at hy
    obtain rfl : x = y := Option.some.inj hy
    exact hxword
  obtain ⟨found, hfound, hoffset⟩ := Pattern.exists_referenceWord hlast hbegins after
  have hstart : m.start.offset = 0 + byteSize v := hv.offset
  have hlt := hrefers.offset_lt (by decide)
  have hd := hw.offset
  rw [byteSize_append, byteSize_append] at hoffset
  refine ⟨found, hsplit ▸ hfound, ?_, ?_⟩
  · dsimp only
    omega
  · dsimp only
    omega

/-! ## Inline foreign keys -/

/-- A column definition ends at a parenthesis, or in front of something other than a word. -/
theorem Pattern.stop_of_columnDefinition {c : Cursor} {m : Match}
    (h : columnDefinition.matchAt c = some m) :
    m.stop.before = some ')' ∨ ∀ x ∈ m.stop.rest.head?, isWord x = false := by
  -- the type is a word, which is taken whole because the sizes behind it may be left out
  set sizes : Pattern := blanks ++ char '(' ++ blanks ++ group 4 digits ++
    opt (blanks ++ char ',' ++ blanks ++ group 5 digits) ++ blanks ++ char ')' with hsizes
  set last : Continue Match := fun e i => (opt sizes).run e i fun e i => some ⟨c, e, i⟩ with hlast
  have hrun : columnDefinition.matchAt c =
      (textStart ++ blanks ++ group 1 (opt openingQuote) ++ group 2 wordRun ++ opt closingQuote ++
        gap).run c [] fun d h => wordRun.run d h fun e i =>
          last e ((3, ⟨d.offset, e.offset, d.rest⟩) :: i) := rfl
  have htotal : ∀ e i, (last e i).isSome = true := fun e i => isSome_run_opt sizes rfl
  rw [hrun] at h
  obtain ⟨d, i, -, h⟩ := exists_of_run h
  have hword := run_wordRun_eq (c := d) (g := i)
    (k := fun e i => last e ((3, ⟨d.offset, e.offset, d.rest⟩) :: i)) (Or.inl (htotal _ _))
  rw [hword] at h
  split at h
  · cases h
  rcases orElse_eq_some h with h | h
  · obtain ⟨e, j, htakes, hm⟩ := exists_of_run h
    rw [hsizes, takes_append] at htakes
    obtain ⟨e', j', -, hclose⟩ := htakes
    cases hclose with
    | one hrest hx =>
      left
      rw [Option.some.injEq] at hm
      rw [← hm]
      simpa [Cursor.past, CharClass.holds] using hx
  · right
    intro x hx
    have hstop : m.stop = d.farthest isWord := by
      rw [run_empty, Option.some.injEq] at h
      rw [← h]
    rw [hstop] at hx
    have hnot := List.head?_dropWhile_not isWord d.rest
    rw [Option.mem_def] at hx
    have hhead : (d.rest.dropWhile isWord).head? = some x := hx
    rw [hhead] at hnot
    exact hnot

/-- No word ends in front of a clause that begins with a word and stands behind a column definition. -/
theorem isWord_getLast?_of_columnDefinition {before t v w : Text} {m : Match} {c : Cursor}
    (hm : Pattern.columnDefinition.matchAt (Cursor.atStart t) = some m)
    (hv : (Cursor.atStart t).Passes v m.stop) (hw : (Cursor.atStart m.stop.rest).Passes w c)
    (hedge : c.atWordEdge = true) (hhead : ∃ x ∈ c.rest.head?, isWord x = true) :
    ∀ y ∈ (before ++ v ++ w).getLast?, isWord y = false := by
  intro y hy
  obtain ⟨x, hx, hxword⟩ := hhead
  cases hlast : w.getLast? with
  | none =>
    -- the clause begins right behind the column definition
    obtain rfl : w = [] := List.getLast?_eq_none_iff.mp hlast
    have hbefore : m.stop.before = some ')' := by
      rcases Pattern.stop_of_columnDefinition hm with hstop | hstop
      · exact hstop
      · have hrest : m.stop.rest = c.rest := hw.rest
        rw [hrest] at hstop
        rw [hstop x hx] at hxword
        cases hxword
    have hlastv : v.getLast? = some ')' := by
      have hor : m.stop.before = v.getLast?.or none := hv.before
      rwa [Option.or_none, hbefore, eq_comm] at hor
    rw [List.append_nil, List.getLast?_append, hlastv] at hy
    obtain rfl : ')' = y := Option.some.inj hy
    rfl
  | some z =>
    rw [List.getLast?_append, hlast] at hy
    obtain rfl : z = y := Option.some.inj hy
    have hbefore : c.before = some z := by
      have hor : c.before = w.getLast?.or none := hw.before
      rwa [hlast] at hor
    rw [Cursor.atWordEdge_eq_any, hbefore, Option.mem_def.mp hx] at hedge
    simpa [hxword] using hedge

/-- An item with an inline foreign key holds the word, and does not begin with it. -/
theorem holdsWord_of_reference? {text before t after : Text} (htext : text = before ++ t ++ after)
    {column : Column} (hcolumn : Column.ofText? t = some column) {fk : ForeignKey}
    (hfk : column.reference? = some fk) :
    HoldsWord text (byteSize before, byteSize before + byteSize t) := by
  obtain ⟨m, hm, -, hrest, -⟩ := Column.exists_match hcolumn
  obtain ⟨r, hr, -⟩ := Option.map_eq_some_iff.mp hfk
  obtain ⟨found, hfound, -⟩ := Option.map_eq_some_iff.mp hr
  rw [hrest] at hfound
  obtain ⟨⟨w, hw⟩, hmatch⟩ := Pattern.matchAt_of_search hfound
  obtain ⟨hedge, hrefers⟩ := Pattern.refersAt_of_reference hmatch
  obtain ⟨z, hbegins, -⟩ := hrefers.spelled (by decide)
  obtain ⟨-, v, hv, -⟩ := Pattern.matchAt_eq_some hm
  have hv' : t = v ++ m.stop.rest := hv.rest
  have hw' : m.stop.rest = w ++ found.start.rest := hw.rest
  have hlast : ∀ y ∈ (before ++ v ++ w).getLast?, isWord y = false :=
    isWord_getLast?_of_columnDefinition hm hv hw hedge hbegins.exists_isWord_head
  obtain ⟨word, hword, hoffset⟩ := Pattern.exists_referenceWord hlast hbegins after
  refine ⟨word, ?_, ?_, ?_⟩
  · have hsplit : text = before ++ v ++ w ++ found.start.rest ++ after := by
      rw [htext, hv', hw']
      simp
    exact hsplit ▸ hword
  · dsimp only
    rw [hoffset, byteSize_append, byteSize_append]
    omega
  · have hpos := hbegins.byteSize_pos
    dsimp only
    rw [hoffset, hv', hw']
    simp only [byteSize_append]
    omega

/-! ## Ranges of foreign keys -/

/-- The range of the whole item for an inline foreign key, those of the clauses for table-level
ones. -/
def TableItem.foreignKeyRanges (item : TableItem) : List (Nat × Nat) :=
  match Column.ofText? item.piece.text with
  | some column => column.reference?.toList.map fun _ =>
      (item.piece.offset, item.piece.offset + byteSize item.piece.text)
  | none => clauseRanges item.piece.offset item.piece.text

/-- The ranges of the foreign keys that a statement adds. -/
def Statement.addedRanges (st : Statement) : List (Nat × Nat) :=
  match alteredTable? st.text with
  | none => []
  | some _ => clauseRanges st.offset st.text

/-- The item has bytes of the range. -/
def TableItem.Overlaps (item : TableItem) (range : Nat × Nat) : Prop :=
  item.piece.offset < range.2 ∧ range.1 < item.piece.offset + byteSize item.piece.text

instance (item : TableItem) (range : Nat × Nat) : Decidable (item.Overlaps range) :=
  inferInstanceAs (Decidable (_ ∧ _))

theorem TableItem.length_foreignKeyRanges (item : TableItem) :
    item.foreignKeyRanges.length = item.foreignKeys.length := by
  unfold foreignKeyRanges foreignKeys
  cases Column.ofText? item.piece.text <;> simp [clauseRanges, SchemaReview.foreignKeys]

theorem TableItem.within_of_mem_foreignKeyRanges {item : TableItem} {range : Nat × Nat}
    (h : range ∈ item.foreignKeyRanges) :
    item.piece.offset ≤ range.1 ∧ range.2 ≤ item.piece.offset + byteSize item.piece.text := by
  unfold foreignKeyRanges at h
  split at h
  · obtain ⟨fk, -, rfl⟩ := List.mem_map.mp h
    exact ⟨le_rfl, le_rfl⟩
  · exact within_of_mem_clauseRanges h

theorem TableItem.pairwise_foreignKeyRanges (item : TableItem) :
    item.foreignKeyRanges.Pairwise fun a b => a.2 ≤ b.1 := by
  unfold foreignKeyRanges
  split
  · rename_i column _
    cases column.reference? <;> simp
  · exact pairwise_clauseRanges _ _

namespace Source

variable (s : Source)

/-- The ranges of the foreign keys in table bodies. -/
def bodyRanges : List (Nat × Nat) := s.items.flatMap TableItem.foreignKeyRanges

/-- The ranges of the foreign keys that statements add. -/
def addedRanges : List (Nat × Nat) := s.statements.flatMap Statement.addedRanges

/-- The ranges of the foreign keys that statements add and that lie, in part, in a table body. -/
def addedInBodies : List (Nat × Nat) :=
  s.addedRanges.filter fun range => s.items.any fun item => item.Overlaps range

theorem length_addedRanges : s.addedRanges.length = s.addedForeignKeys.length := by
  have hone : ∀ st, (Statement.addedRanges st).length = (s.addedBy st).length := by
    intro st
    unfold Statement.addedRanges addedBy
    cases alteredTable? st.text <;> simp [clauseRanges, SchemaReview.foreignKeys]
  simp [addedRanges, addedForeignKeys, List.length_flatMap, hone]

theorem pairwise_bodyRanges : s.bodyRanges.Pairwise Apart := by
  refine List.pairwise_flatMap.mpr ⟨fun item _ => ?_, s.pairwise_items.imp ?_⟩
  · exact item.pairwise_foreignKeyRanges.imp Or.inl
  · intro a b hab x hx y hy
    have hx' := TableItem.within_of_mem_foreignKeyRanges hx
    have hy' := TableItem.within_of_mem_foreignKeyRanges hy
    exact Or.inl (hx'.2.trans (hab.2.trans hy'.1))

theorem pairwise_addedRanges : s.addedRanges.Pairwise Apart := by
  have hwithin : ∀ {st : Statement} {range : Nat × Nat}, range ∈ st.addedRanges →
      st.offset ≤ range.1 ∧ range.2 ≤ st.offset + byteSize st.text := by
    intro st range h
    unfold Statement.addedRanges at h
    split at h
    · cases h
    · exact within_of_mem_clauseRanges h
  refine List.pairwise_flatMap.mpr ⟨fun st _ => ?_, s.pairwise_statements.imp ?_⟩
  · unfold Statement.addedRanges
    split
    · exact .nil
    · exact (pairwise_clauseRanges _ _).imp Or.inl
  · intro a b hab x hx y hy
    have hx' := hwithin hx
    have hy' := hwithin hy
    left
    omega

theorem holdsWord_of_mem_bodyRanges {range : Nat × Nat} (h : range ∈ s.bodyRanges) :
    HoldsWord s.text range := by
  obtain ⟨item, hitem, h⟩ := List.mem_flatMap.mp h
  obtain ⟨before, after, htext, hbefore⟩ := (s.isItem_of_mem_itemsIn hitem).stands
  unfold TableItem.foreignKeyRanges at h
  rw [← hbefore] at h
  split at h
  · rename_i column hcolumn
    obtain ⟨fk, hfk, rfl⟩ := List.mem_map.mp h
    exact holdsWord_of_reference? htext hcolumn (Option.mem_toList.mp hfk)
  · exact holdsWord_of_mem_clauseRanges htext h

theorem holdsWord_of_mem_addedRanges {range : Nat × Nat} (h : range ∈ s.addedRanges) :
    HoldsWord s.text range := by
  obtain ⟨st, hst, h⟩ := List.mem_flatMap.mp h
  obtain ⟨before, after, htext, hbefore, -⟩ := stands_of_mem_statements hst
  unfold Statement.addedRanges at h
  rw [← hbefore] at h
  split at h
  · cases h
  · exact holdsWord_of_mem_clauseRanges htext h

end Source

/-! ## The bound -/

/-- There are at least as many words as ranges that hold one and do not overlap. -/
theorem length_le_of_pairwise_apart {t : Text} {ranges : List (Nat × Nat)}
    (hapart : ranges.Pairwise Apart) (hwords : ∀ range ∈ ranges, HoldsWord t range) :
    ranges.length ≤ (Pattern.referenceWord.findAll t).length := by
  have : Nonempty Match := ⟨⟨.atStart t, .atStart t, []⟩⟩
  choose! word hmem hin using hwords
  have hnodup : (ranges.map word).Nodup := by
    refine List.pairwise_map.mpr (hapart.imp_of_mem fun {a b} ha hb hab heq => ?_)
    have ha' := hin a ha
    have hb' := hin b hb
    rw [heq] at ha'
    unfold Apart at hab
    omega
  have hsubset : ranges.map word ⊆ Pattern.referenceWord.findAll t := by
    intro m hm
    obtain ⟨range, hrange, rfl⟩ := List.mem_map.mp hm
    exact hmem range hrange
  rw [← List.length_map word]
  exact (hnodup.subperm hsubset).length_le

/-- **Foreign keys and REFERENCES clauses.**  A catalog of one script has at most as many foreign keys as
the script has the word REFERENCES, and those foreign keys more that a statement adds out of a table
body. -/
theorem length_foreignKeys_le (sql : String) :
    (Catalog.ofScript sql).foreignKeys.length ≤
      (Pattern.referenceWord.findAll (Source.ofString sql).text).length +
        (Source.ofString sql).addedInBodies.length := by
  set s := Source.ofString sql with hs
  set outside := s.addedRanges.filter fun range => !s.items.any fun item => item.Overlaps range
    with houtside
  have hreads : (Catalog.ofScript sql).foreignKeys.length ≤
      s.bodyRanges.length + s.addedRanges.length := by
    have hbodies : s.bodyRanges.length = (s.items.flatMap TableItem.foreignKeys).length := by
      simp [Source.bodyRanges, List.length_flatMap, TableItem.length_foreignKeyRanges]
    rw [hbodies, s.length_addedRanges]
    exact Catalog.length_foreignKeys_le_reads s
  have hsplit : s.addedRanges.length = s.addedInBodies.length + outside.length :=
    List.length_eq_length_filter_add _
  have hapart : (s.bodyRanges ++ outside).Pairwise Apart := by
    refine List.pairwise_append.mpr
      ⟨s.pairwise_bodyRanges, s.pairwise_addedRanges.filter _, fun a ha b hb => ?_⟩
    obtain ⟨item, hitem, ha⟩ := List.mem_flatMap.mp ha
    have hwithin := TableItem.within_of_mem_foreignKeyRanges ha
    have hnot : ¬ item.Overlaps b := by
      have hnone := (List.mem_filter.mp hb).2
      simp only [Bool.not_eq_true', List.any_eq_false, decide_eq_true_eq] at hnone
      exact hnone item hitem
    unfold TableItem.Overlaps at hnot
    unfold Apart
    omega
  have hwords : ∀ range ∈ s.bodyRanges ++ outside, HoldsWord s.text range := by
    intro range hrange
    rcases List.mem_append.mp hrange with hrange | hrange
    · exact s.holdsWord_of_mem_bodyRanges hrange
    · exact s.holdsWord_of_mem_addedRanges (List.mem_filter.mp hrange).1
  have hcount := length_le_of_pairwise_apart hapart hwords
  rw [List.length_append] at hcount
  omega

/-- A table and a statement that alters it, with only a line break between them. -/
def alteredBodyScript : String :=
  "CREATE TABLE a (x INT, FOREIGN KEY (x) REFERENCES b(id))\n" ++
  "ALTER TABLE a ADD COLUMN y INT;"

/-- The one foreign key of the table body is recorded twice. -/
theorem foreignKey_recorded_twice :
    (Pattern.referenceWord.findAll (Source.ofString alteredBodyScript).text).length <
      (Catalog.ofScript alteredBodyScript).foreignKeys.length := by
  decide +kernel

end SchemaReview
