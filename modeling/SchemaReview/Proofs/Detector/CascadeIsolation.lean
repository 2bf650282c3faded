import SchemaReview.Proofs.Ddl.ForeignKey
import SchemaReview.Proofs.Detector.CascadeCycle
import SchemaReview.Proofs.Scope.Events
import SchemaReview.Proofs.Source.Statement

/-!
# Proofs.Detector.CascadeIsolation — cycles of cascading deletes among tables without relations

Two detectors gather foreign keys in their own ways.  The one for cycles takes every `REFERENCES`
clause of a statement.  The one for tables without relations takes the clauses in table bodies, and the
table-level foreign keys of statements that alter a table.

* `Source.ReadsCascade s offset`: the second detector reads a cascading clause at this byte.
* `mem_relatedTables`: then it has recorded the table that the clause names, which is the table that the
  first detector has as the end of the edge.  Every table of a cycle is the end of one of its edges.
* `cascadeTables_not_isolated`: so the two do not contradict each other on a cycle whose clauses the
  second one reads.  They do on the column that a statement adds with a reference
  (`cascadeTable_isolated`): the clause is neither in a table body nor table-level.
-/

namespace SchemaReview

open Text

/-- A cascading clause begins at byte `offset` that stands in a table body, or in a table-level foreign
key of a statement that alters a table. -/
inductive Source.ReadsCascade (s : Source) : Nat → Prop
  | item {item : TableItem} {r : Reference} (hitem : item ∈ s.items)
      (hreference : r ∈ references item.piece.text) (hcascades : r.cascades = true) :
      s.ReadsCascade (item.piece.offset + r.offset)
  | added {statement : Statement} {table : String} {m : Match} {c : Cursor}
      (hstatement : statement ∈ s.statements) (htable : alteredTable? statement.text = some table)
      (hm : m ∈ Pattern.foreignKey.findAll statement.text) (hc : Cursor.In statement.text c)
      (hrefers : m.RefersAt 2 3 c) (hcascades : beginsWithCascade m.stop.rest = true) :
      s.ReadsCascade (statement.offset + c.offset)

namespace Source

variable {s : Source}

/-- Both detectors name the same table at a clause that both of them read. -/
theorem mem_relatedTables {a b : String} {offset : Nat} (hclause : s.CascadeClause a b offset)
    (hread : s.ReadsCascade offset) : b ∈ relatedTables s := by
  generalize hoffset : offset = byte at hread
  obtain ⟨hstatement, -, hreference, hcascades⟩ := hclause
  rename_i st table r
  obtain ⟨before, after, htext, hbefore, -, -⟩ := stands_of_mem_statements hstatement
  obtain ⟨m, hin, hrefers, rfl⟩ := exists_of_mem_references hreference
  -- the clauses stand at the same byte, so what is read behind it is the same name
  cases hread with
  | @item item r' hitem hreference' hcascades' =>
    obtain ⟨before', after', htext', hbefore'⟩ := (s.isItem_of_mem_itemsIn hitem).stands
    obtain ⟨m', hin', hrefers', rfl⟩ := exists_of_mem_references hreference'
    have heq : m.start.rest ++ after = m'.start.rest ++ after' := by
      refine hin.append_eq htext htext' hin' ?_
      rw [hbefore, hbefore']
      exact hoffset
    have hname : m.groupText 1 = m'.groupText 1 :=
      hrefers.groupText_eq (by decide) hrefers' (by decide) hcascades hcascades' heq
    have hkey : nameKey (Reference.ofMatch m).table = nameKey (Reference.ofMatch m').table := by
      rw [Reference.ofMatch, Match.groupString, hname]
      rfl
    refine List.mem_append_left _ (List.mem_flatMap.mpr ⟨item, hitem, ?_⟩)
    exact List.mem_flatMap.mpr ⟨Reference.ofMatch m', hreference', by simp [hkey]⟩
  | @added st' table' m' c hstatement' htable' hm' hin' hrefers' hcascades' =>
    obtain ⟨before', after', htext', hbefore', -, -⟩ := stands_of_mem_statements hstatement'
    have heq : m.start.rest ++ after = c.rest ++ after' := by
      refine hin.append_eq htext htext' hin' ?_
      rw [hbefore, hbefore']
      exact hoffset
    have hname : m.groupText 1 = m'.groupText 2 :=
      hrefers.groupText_eq (by decide) hrefers' (by decide) hcascades hcascades' heq
    have hkey : nameKey (Reference.ofMatch m).table = (ForeignKey.ofMatch m').tableKey := by
      rw [Reference.ofMatch, Match.groupString, hname]
      rfl
    refine List.mem_append_right _ (List.mem_flatMap.mpr
      ⟨⟨table', s.lineOf (st'.offset + (ForeignKey.ofMatch m').offset), ForeignKey.ofMatch m'⟩, ?_, ?_⟩)
    · refine List.mem_flatMap.mpr ⟨st', hstatement', ?_⟩
      rw [addedBy, htable']
      exact List.mem_map.mpr ⟨_, List.mem_map.mpr ⟨m', hm', rfl⟩, rfl⟩
    · simp [hkey]

end Source

/-- Every node of a cycle is the end of one of its edges. -/
theorem exists_mem_cycleEdges {first : String} {rest : List String} {key : String}
    (h : key ∈ first :: rest) : ∃ source, (source, key) ∈ cycleEdges first rest := by
  have hlen : (first :: rest).length = (rest ++ [first]).length := by simp
  have hmem : key ∈ (cycleEdges first rest).map Prod.snd := by
    rw [cycleEdges, List.map_snd_zip hlen.ge]
    simpa [or_comm] using h
  obtain ⟨⟨source, target⟩, hedge, rfl⟩ := List.mem_map.mp hmem
  exact ⟨source, hedge⟩

/-- The table of a finding is none of those that take part in a foreign key. -/
theorem nameKey_not_mem_relatedTables {sql : String} {g : Finding}
    (hg : g ∈ Detector.tablesWithoutRelations.run sql) {name : String} (hname : name ∈ g.table) :
    nameKey name ∉ relatedTables (Source.ofString sql) := by
  have hrun : Detector.tablesWithoutRelations.run sql =
      (firstBy TableDecl.key ((Source.ofString sql).tables.filter
        fun t => t.key ∉ relatedTables (Source.ofString sql))).map
          (isolatedTable (Source.ofString sql)) := rfl
  rw [hrun] at hg
  obtain ⟨table, htable, rfl⟩ := List.mem_map.mp hg
  obtain rfl : table.name = name := Option.some.inj hname
  have hfilter := (List.mem_filter.mp (mem_of_mem_firstBy TableDecl.key htable)).2
  exact of_decide_eq_true hfilter

/-- Two tables that refer to each other, and a third one. -/
def pairScript : String :=
  "CREATE TABLE a (b_id INT REFERENCES b(id) ON DELETE CASCADE);\n" ++
  "CREATE TABLE b (a_id INT REFERENCES a(id) ON DELETE CASCADE);\n" ++
  "CREATE TABLE c (id INT);"

/-- A table that is altered so that it refers to itself. -/
def addedColumnScript : String :=
  "CREATE TABLE a (id INT);\n" ++
  "ALTER TABLE a ADD COLUMN p INT REFERENCES a(id) ON DELETE CASCADE;"

/-- **Cycles and tables without relations.**  Where the clauses of a reported cycle stand in table bodies
or in table-level foreign keys of statements that alter a table, no table of the cycle is reported as
taking part in no foreign key. -/
theorem cascadeTables_not_isolated (sql : String) :
    ∀ f ∈ Detector.infiniteDeleteCascade.run sql, ∀ first rest,
      ReportsCycle (Source.ofString sql) f first rest →
      (∀ note ∈ f.notes, (Source.ofString sql).ReadsCascade note.span.offset) →
      ∀ g ∈ Detector.tablesWithoutRelations.run sql, ∀ name ∈ g.table,
        nameKey name ∉ first :: rest := by
  intro f _ first rest hreports hread g hg name hname hmem
  obtain ⟨source, hedge⟩ := exists_mem_cycleEdges hmem
  obtain ⟨note, hnote, hnotes⟩ := exists_of_forall₂ hreports.notes hedge
  have hrelated := Source.mem_relatedTables hnotes.cascadeClause (hread note hnote)
  exact nameKey_not_mem_relatedTables hg hname hrelated

/-- Two tables that refer to each other, beside one that has no foreign key. -/
theorem cascadeTables_not_isolated_pair :
    ∃ f ∈ Detector.infiniteDeleteCascade.run pairScript, ∃ g ∈
      Detector.tablesWithoutRelations.run pairScript,
      ReportsCycle (Source.ofString pairScript) f "A" ["B"] ∧ g.table = some "c" ∧
        nameKey "c" ∉ ["A", "B"] := by
  have hcycle : (Source.ofString pairScript).cascadeGraph.firstCycle? = some ["A", "B"] := by
    decide +kernel
  obtain ⟨f, hf, hfinding, hreports⟩ := reportsCycle_of_firstCycle? hcycle
  have hitems : ∀ note ∈ (cascadeFinding (Source.ofString pairScript)
      (Source.ofString pairScript).cascadeGraph ["A", "B"]).notes,
      ∃ item ∈ (Source.ofString pairScript).items, ∃ r ∈ references item.piece.text,
        r.cascades = true ∧ item.piece.offset + r.offset = note.span.offset := by
    decide +kernel
  have hisolated : ∃ g ∈ Detector.tablesWithoutRelations.run pairScript, g.table = some "c" := by
    decide +kernel
  obtain ⟨g, hg, hname⟩ := hisolated
  refine ⟨f, hf, g, hg, hreports, hname, ?_⟩
  refine cascadeTables_not_isolated pairScript f hf "A" ["B"] hreports ?_ g hg "c" hname
  intro note hnote
  rw [hfinding] at hnote
  obtain ⟨item, hitem, r, hr, hcascades, hoffset⟩ := hitems note hnote
  exact hoffset ▸ .item hitem hr hcascades

/-- A column that a statement adds with a cascading reference closes a cycle, on a table that is also
reported as taking part in no foreign key. -/
theorem cascadeTable_isolated :
    ∃ f ∈ Detector.infiniteDeleteCascade.run addedColumnScript, ∃ g ∈
      Detector.tablesWithoutRelations.run addedColumnScript,
      ReportsCycle (Source.ofString addedColumnScript) f "A" [] ∧ g.table = some "a" ∧
        nameKey "a" ∈ ["A"] := by
  have hcycle : (Source.ofString addedColumnScript).cascadeGraph.firstCycle? = some ["A"] := by
    decide +kernel
  have hisolated : ∃ g ∈ Detector.tablesWithoutRelations.run addedColumnScript,
      g.table = some "a" := by
    decide +kernel
  obtain ⟨f, hf, -, hreports⟩ := reportsCycle_of_firstCycle? hcycle
  obtain ⟨g, hg, hname⟩ := hisolated
  exact ⟨f, hf, g, hg, hreports, hname, by decide⟩

end SchemaReview
