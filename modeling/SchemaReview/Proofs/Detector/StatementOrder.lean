import SchemaReview.Proofs.Detector.Rearranged
import SchemaReview.Proofs.Scope.Events

/-!
# Proofs.Detector.StatementOrder — the order of statements does not matter

A script of plain statements declares what its statements declare, one after the other, so that
statements in another order declare the same in another order (`rearranges_scriptOf`).  Only the items
of a table must keep theirs: they stand in one statement when no two statements declare a table with the
same key.  Main statement: `perm_run_scriptOf`.
-/

namespace SchemaReview

/-- The keys of the tables that a statement declares. -/
def StatementText.tableKeys (p : StatementText) : List String :=
  (Source.ofText p.piece).tables.map TableDecl.key

/-- Statements in another order declare the same in another order. -/
theorem rearranges_scriptOf {ps qs : List StatementText} (hperm : ps.Perm qs)
    (hkeys : ps.Pairwise fun p q => ∀ k ∈ p.tableKeys, k ∉ q.tableKeys) :
    (Source.ofText (scriptOf ps)).Rearranges (Source.ofText (scriptOf qs)) where
  tables := by
    have hnames : ((Source.ofText (scriptOf ps)).tables.map (·.name)).Perm
        ((Source.ofText (scriptOf qs)).tables.map (·.name)) := by
      rw [name_tables_scriptOf, name_tables_scriptOf]
      exact hperm.flatMap_right _
    have hmapped := hnames.map nameKey
    rwa [List.map_map, List.map_map] at hmapped
  items := by
    rw [Source.items, Source.items, content_itemsIn_scriptOf, content_itemsIn_scriptOf]
    refine agreeBy_flatMap hperm (hkeys.imp fun {p q} hpq => ?_)
    -- an item has the key of a table that its statement declares
    have hdeclared : ∀ (p : StatementText),
        ∀ c ∈ ((Source.ofText p.piece).itemsIn .replace).map TableItem.content,
          nameKey c.1 ∈ p.tableKeys := by
      intro p c hc
      obtain ⟨item, hitem, rfl⟩ := List.mem_map.mp hc
      exact List.mem_map.mpr ⟨item.table, Source.table_mem_tables _ hitem, rfl⟩
    intro c hc d hd hcd
    exact hpq _ (hdeclared p c hc) (hcd ▸ hdeclared q d hd)
  nested := by
    rw [Rearranged, content_itemsIn_scriptOf, content_itemsIn_scriptOf]
    exact hperm.flatMap_right _
  indexes := by
    rw [Rearranged, content_indexes_scriptOf, content_indexes_scriptOf]
    exact hperm.flatMap_right _
  added := by
    rw [Rearranged, content_addedForeignKeys_scriptOf, content_addedForeignKeys_scriptOf]
    exact hperm.flatMap_right _
  arrows := by
    rw [arrows_cascadeGraph_scriptOf, arrows_cascadeGraph_scriptOf]
    exact hperm.flatMap_right _

/-- **The order of statements does not matter.**  For plain statements, no two of which declare a table
with the same key, every detector finds the same things whatever the order of the statements: the
findings have the same kinds, tables, columns and indexes, as often. -/
theorem perm_run_scriptOf {ps qs : List StatementText} (hperm : ps.Perm qs)
    (hkeys : ps.Pairwise fun p q => ∀ k ∈ p.tableKeys, k ∉ q.tableKeys) (d : Detector) :
    ((d.run (String.ofList (scriptOf ps))).map Finding.summary).Perm
      ((d.run (String.ofList (scriptOf qs))).map Finding.summary) := by
  have hsource : ∀ t : Text, Source.ofString (String.ofList t) = Source.ofText t := by
    intro t
    rw [Source.ofString, String.toList_ofList]
  rw [Detector.run, Detector.run, hsource, hsource]
  exact d.rearranged_find (rearranges_scriptOf hperm hkeys)

/-- A table whose key allows null values, an index on it, and another table. -/
def sampleStatements : List StatementText :=
  [{ text := "CREATE TABLE a (x INT, PRIMARY KEY (x))".toList
     plain := by simp
     commentFree := .of_not_mem (by decide) (by decide)
     balanced := Balanced.withCommas (by decide : Balanced false _) },
    { text := "CREATE INDEX i ON a (x)".toList
      plain := by simp
      commentFree := .of_not_mem (by decide) (by decide)
      balanced := Balanced.withCommas (by decide : Balanced false _) },
    { text := "CREATE TABLE b (x TEXT)".toList
      plain := by simp
      commentFree := .of_not_mem (by decide) (by decide)
      balanced := Balanced.withCommas (by decide : Balanced false _) }]

/-- The sample statements in reverse order. -/
theorem perm_run_scriptOf_sampleStatements :
    sampleStatements.Perm sampleStatements.reverse ∧
    (sampleStatements.Pairwise fun p q => ∀ k ∈ p.tableKeys, k ∉ q.tableKeys) ∧
    Detector.nullPrimaryKey.run (String.ofList (scriptOf sampleStatements)) ≠ [] ∧
    ((Detector.nullPrimaryKey.run (String.ofList (scriptOf sampleStatements))).map
        Finding.summary).Perm
      ((Detector.nullPrimaryKey.run (String.ofList (scriptOf sampleStatements.reverse))).map
        Finding.summary) := by
  have hperm : sampleStatements.Perm sampleStatements.reverse := (List.reverse_perm _).symm
  have hkeys : sampleStatements.Pairwise fun p q => ∀ k ∈ p.tableKeys, k ∉ q.tableKeys := by
    decide +kernel
  exact ⟨hperm, hkeys, by decide +kernel, perm_run_scriptOf hperm hkeys .nullPrimaryKey⟩

end SchemaReview
