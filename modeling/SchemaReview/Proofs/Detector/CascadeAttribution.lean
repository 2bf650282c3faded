import SchemaReview.Proofs.Ddl.ForeignKey
import SchemaReview.Proofs.Detector.CascadeCycle
import SchemaReview.Proofs.Pattern.Verbatim
import SchemaReview.Proofs.Scope.Events
import SchemaReview.Proofs.Source.Statement

/-!
# Proofs.Detector.CascadeAttribution — the table to which a cascading clause is attributed

The detector for cycles attributes a clause to the first table header of its statement, or else to the
table that the statement alters.  Statements end at semicolons.  The scan of table scopes attributes
the items of a body to the header in front of the body, whether or not a semicolon stands in between.

* `exists_header_of_mem_tables`: a table of the scan was read off a header at its offset.
* `exists_header_of_find?`: a header found in a statement is found at its place in the text, with the
  same name.  The name cannot reach over the semicolon.
* `cascadeEdge_attributed`: the clause of a reported edge stands in one statement, and its source is the
  table of that statement.  That is the table in whose body the clause stands, when the header of this
  table is the first one of the statement.
* `cascadeEdge_misattributed`: without a semicolon between two tables, it is another table.
-/

namespace SchemaReview

open Text

/-! ## Where tables are declared -/

section

variable {s : Source} {mode : ScopeMode}

theorem enter_not_mem_itemEvents {scope : OpenScope} {stop : Nat} {table : TableDecl} :
    ScopeEvent.enter table ∉ s.itemEvents scope stop := by
  unfold Source.itemEvents
  split
  · simp
  · dsimp only
    split <;> simp

theorem enter_not_mem_closeEvents {stop last : Nat} {stack : List OpenScope} {table : TableDecl} :
    ScopeEvent.enter table ∉ s.closeEvents stop last stack := by
  simp [Source.closeEvents, enter_not_mem_itemEvents]

theorem enter_not_mem_readChar {offset : Nat} {x : Char} {next : Cursor} {st : ScopeState}
    {table : TableDecl} : ScopeEvent.enter table ∉ (s.readChar offset x next st).2 := by
  obtain ⟨stack, quote⟩ := st
  cases stack with
  | nil => simp [Source.readChar]
  | cons top below =>
    cases quote with
    | some q => simp [Source.readChar]
    | none =>
      rcases readChar_cases s offset x next top below with
        ⟨-, h⟩ | ⟨-, h⟩ | ⟨-, -, h⟩ | ⟨-, -, h⟩ | ⟨-, -, h⟩ | ⟨-, h⟩ | h <;> rw [h] <;>
        simp [enter_not_mem_itemEvents, enter_not_mem_closeEvents]

/-- The table of a header. -/
def TableHeader.table (s : Source) (header : TableHeader) : TableDecl :=
  ⟨header.name, s.lineOf header.start, header.start⟩

theorem eq_of_enter_mem_openScope {header : TableHeader} {st : ScopeState} {table : TableDecl}
    (h : ScopeEvent.enter table ∈ (s.openScope mode header st).2) : table = header.table s := by
  unfold Source.openScope at h
  cases mode with
  | replace => simpa [enter_not_mem_closeEvents, TableHeader.table] using h
  | nested =>
    cases hst : st.stack <;> simpa [hst, enter_not_mem_itemEvents, TableHeader.table] using h

theorem exists_header_of_enter_mem {resume : Nat} {st : ScopeState} {before : Option Char}
    {offset : Nat} {t : Text} {table : TableDecl}
    (h : ScopeEvent.enter table ∈ s.eventsFrom mode resume st before offset t) :
    ∃ w c header, Cursor.Passes ⟨before, offset, t⟩ w c ∧ TableHeader.at? c = some header ∧
      table = header.table s := by
  induction t generalizing resume st before offset with
  | nil => exact absurd h enter_not_mem_closeEvents
  | cons x xs ih =>
    have hlater : ∀ {resume : Nat} {st : ScopeState},
        ScopeEvent.enter table ∈ s.eventsFrom mode resume st (some x) (offset + x.utf8Size) xs →
        ∃ w c header, Cursor.Passes ⟨before, offset, x :: xs⟩ w c ∧
          TableHeader.at? c = some header ∧ table = header.table s := by
      intro resume st hmem
      obtain ⟨w, c, header, hw, hheader, htable⟩ := ih hmem
      exact ⟨_, c, header, (Cursor.Passes.past rfl).trans hw, hheader, htable⟩
    rw [Source.eventsFrom] at h
    split at h
    · exact hlater h
    · split at h
      · rename_i header hheader
        rcases List.mem_append.mp h with h | h
        · refine ⟨[], _, header, .refl _, ?_, eq_of_enter_mem_openScope h⟩
          split at hheader
          · exact hheader
          · cases hheader
        · exact hlater h
      · rcases List.mem_append.mp h with h | h
        · exact absurd h enter_not_mem_readChar
        · exact hlater h

end

namespace Source

variable {s : Source}

/-- A declared table was read off a header at its offset. -/
theorem exists_header_of_mem_tables {table : TableDecl} (h : table ∈ s.tables) :
    ∃ c header, Cursor.In s.text c ∧ TableHeader.at? c = some header ∧ header.name = table.name ∧
      c.offset = table.offset := by
  obtain ⟨event, hevent, hopened⟩ := List.mem_filterMap.mp h
  cases event with
  | enter table' =>
    obtain rfl : table' = table := Option.some.inj hopened
    obtain ⟨w, c, header, hw, hheader, rfl⟩ := exists_header_of_enter_mem hevent
    exact ⟨c, header, ⟨w, hw⟩, hheader, rfl, (TableHeader.start_of_at? hheader).symm⟩
  | item | exit => cases hopened

/-- A header that is found in a statement stands in the text as well. -/
theorem exists_header_of_find? {st : Statement} (hst : st ∈ s.statements) {header : TableHeader}
    (h : TableHeader.find? st.text 0 = some header) :
    ∃ c header', Cursor.In s.text c ∧ TableHeader.at? c = some header' ∧
      header'.name = header.name ∧ c.offset = st.offset + header.start := by
  obtain ⟨before, after, htext, hbefore, hlast, hhead⟩ := stands_of_mem_statements hst
  rw [TableHeader.find?, Pattern.searchAt_zero, Option.map_eq_some_iff] at h
  obtain ⟨m, hm, rfl⟩ := h
  obtain ⟨⟨w, hw⟩, hmatch⟩ := Pattern.matchAt_of_search hm
  have hfront : before.getLast?.any isWord = false := by
    cases hx : before.getLast? with
    | none => rfl
    | some x =>
      rw [hlast x hx]
      rfl
  have htransfers : Pattern.createTable.Transfers (.verbatim before.getLast? st.offset after)
      (fun _ => True) fun _ => True :=
    Pattern.transfers_of_stopsAt_of_kept (by decide) hfront (fun _ _ => trivial) fun _ => hhead
  have hplaced := htransfers.matchAt (c := m.start) trivial
  rw [hmatch, Option.map_some] at hplaced
  refine ⟨_, _, ⟨before ++ w, ?_⟩, by rw [TableHeader.at?, hplaced]; rfl, ?_, rfl⟩
  · have hrest : st.text = w ++ m.start.rest := hw.rest
    have hoffset : m.start.offset = 0 + byteSize w := hw.offset
    have hprevious : m.start.before = w.getLast?.or none := hw.before
    refine ⟨?_, ?_, ?_⟩
    · simp [Placement.cursor, Cursor.atStart, htext, hrest]
    · simp [Placement.cursor, Cursor.atStart, hbefore, hoffset]
    · simp [Placement.cursor, Cursor.atStart, hprevious]
  · show String.ofList (Match.groupText _ 1) = String.ofList (m.groupText 1)
    rw [Placement.groupText_hit_verbatim hmatch]

end Source

/-! ## Attribution -/

/-- The byte lies in the item. -/
def TableItem.Covers (item : TableItem) (offset : Nat) : Prop :=
  item.piece.offset ≤ offset ∧ offset < item.piece.offset + byteSize item.piece.text

instance (item : TableItem) (offset : Nat) : Decidable (item.Covers offset) :=
  inferInstanceAs (Decidable (_ ∧ _))

/-- The header of the table is the first one in the statement. -/
def Statement.DeclaresFirst (st : Statement) (table : TableDecl) : Prop :=
  (TableHeader.find? st.text 0).map (fun header => st.offset + header.start) = some table.offset

instance (st : Statement) (table : TableDecl) : Decidable (st.DeclaresFirst table) :=
  inferInstanceAs (Decidable (_ = _))

namespace Source

variable {s : Source}

/-- A statement is about the table that it declares first. -/
theorem nameKey_eq_of_declaresFirst {st : Statement} (hst : st ∈ s.statements) {table : TableDecl}
    (htable : table ∈ s.tables) (hfirst : st.DeclaresFirst table) {name : String}
    (hname : st.Concerns name) : nameKey name = table.key := by
  obtain ⟨header, hfind, hstart⟩ := Option.map_eq_some_iff.mp hfirst
  obtain ⟨c, header', hc, hheader', hname', hoffset⟩ := exists_header_of_find? hst hfind
  obtain ⟨d, header'', hd, hheader'', hname'', hoffset'⟩ := exists_header_of_mem_tables htable
  obtain rfl : c = d := hc.eq_of_offset hd (by omega)
  obtain rfl : header' = header'' := Option.some.inj (hheader'.symm.trans hheader'')
  rcases hname with ⟨header, hfind', rfl⟩ | ⟨hnone, -⟩
  · obtain rfl := Option.some.inj (hfind.symm.trans hfind')
    rw [TableDecl.key, ← hname'', hname']
  · rw [hnone] at hfind
    cases hfind

/-- The clause of an edge stands in a statement about the source of the edge. -/
theorem CascadeClause.exists_statement {a b : String} {offset : Nat}
    (h : s.CascadeClause a b offset) :
    ∃ st ∈ s.statements, st.Covers offset ∧ ∃ name, st.Concerns name ∧ nameKey name = a := by
  obtain ⟨hst, hname, hreference, -⟩ := h
  rename_i st name r
  refine ⟨st, hst, ⟨Nat.le_add_right _ _, ?_⟩, name, hname, rfl⟩
  obtain ⟨m, hm, rfl⟩ := List.mem_map.mp hreference
  obtain ⟨hin, hmatch⟩ := Pattern.matchAt_of_mem_findAll hm
  obtain ⟨t, hbegins, -⟩ := (Pattern.refersAt_of_reference hmatch).2.spelled (by decide)
  have hsize := hin.offset_add_byteSize
  have hpos := hbegins.byteSize_pos
  show st.offset + m.start.offset < st.offset + byteSize st.text
  omega

end Source

/-- Two tables that refer to each other, with a semicolon between them. -/
def separatedScript : String :=
  "CREATE TABLE a (b_id INT REFERENCES b(id) ON DELETE CASCADE);\n" ++
  "CREATE TABLE b (a_id INT REFERENCES a(id) ON DELETE CASCADE)"

/-- A table that refers to another one, with only a line break between them. -/
def joinedScript : String :=
  "CREATE TABLE a (id INT)\n" ++
  "CREATE TABLE b (a_id INT REFERENCES a(id) ON DELETE CASCADE)"

/-- **Attribution of cascading clauses.**  Every finding reports a cycle.  The clause of every edge of the
cycle stands in a statement, the only one at this place, and the source of the edge is the table of this
statement: that of its first header, or else the one it alters.  So where the clause stands in the body of
a table whose header is the first one of the statement, this table is the source of the edge. -/
theorem cascadeEdge_attributed (sql : String) :
    ∀ f ∈ Detector.infiniteDeleteCascade.run sql,
      (∃ first rest, ReportsCycle (Source.ofString sql) f first rest) ∧
      ∀ first rest, ReportsCycle (Source.ofString sql) f first rest →
      ∀ edge note, (edge, note) ∈ (cycleEdges first rest).zip f.notes →
      ∃ st ∈ (Source.ofString sql).statements, st.Covers note.span.offset ∧
        (∀ st' ∈ (Source.ofString sql).statements, st'.Covers note.span.offset → st' = st) ∧
        (∃ name, st.Concerns name ∧ nameKey name = edge.1) ∧
        ∀ item ∈ (Source.ofString sql).items, item.Covers note.span.offset →
          st.DeclaresFirst item.table → edge.1 = item.table.key := by
  intro f hf
  refine ⟨exists_reportsCycle hf, fun first rest hreports edge note hpair => ?_⟩
  have hclause := (List.forall₂_zip hreports.notes hpair).cascadeClause
  obtain ⟨st, hst, hcovers, name, hname, hkey⟩ := hclause.exists_statement
  refine ⟨st, hst, hcovers, fun st' hst' hcovers' => ?_, ⟨name, hname, hkey⟩, ?_⟩
  · exact Source.eq_of_covers hst' hst hcovers' hcovers
  · intro item hitem _ hfirst
    rw [← hkey]
    exact Source.nameKey_eq_of_declaresFirst hst (Source.table_mem_tables _ hitem) hfirst hname

/-- With a semicolon between the tables, each edge of their cycle starts at the table in whose body its
clause stands. -/
theorem cascadeEdge_attributed_separated :
    ∃ f ∈ Detector.infiniteDeleteCascade.run separatedScript,
      ReportsCycle (Source.ofString separatedScript) f "A" ["B"] ∧
      ∀ edge note, (edge, note) ∈ (cycleEdges "A" ["B"]).zip f.notes →
        ∃ item ∈ (Source.ofString separatedScript).items, item.Covers note.span.offset ∧
          edge.1 = item.table.key := by
  have hcycle : (Source.ofString separatedScript).cascadeGraph.firstCycle? = some ["A", "B"] := by
    decide +kernel
  have hitems : ∀ note ∈ (cascadeFinding (Source.ofString separatedScript)
      (Source.ofString separatedScript).cascadeGraph ["A", "B"]).notes,
      ∃ item ∈ (Source.ofString separatedScript).items, item.Covers note.span.offset ∧
        ∀ st ∈ (Source.ofString separatedScript).statements, st.Covers note.span.offset →
          st.DeclaresFirst item.table := by
    decide +kernel
  obtain ⟨f, hf, hfinding, hreports⟩ := reportsCycle_of_firstCycle? hcycle
  refine ⟨f, hf, hreports, fun edge note hpair => ?_⟩
  obtain ⟨item, hitem, hcovers, hfirst⟩ := hitems note (hfinding ▸ (List.of_mem_zip hpair).2)
  obtain ⟨st, hst, hstcovers, -, -, hsource⟩ :=
    (cascadeEdge_attributed separatedScript f hf).2 "A" ["B"] hreports edge note hpair
  exact ⟨item, hitem, hcovers, hsource item hitem hcovers (hfirst st hst hstcovers)⟩

/-- Without a semicolon between the tables, a clause in the body of the second one is attributed to the
first one. -/
theorem cascadeEdge_misattributed :
    ∃ f ∈ Detector.infiniteDeleteCascade.run joinedScript,
      ReportsCycle (Source.ofString joinedScript) f "A" [] ∧
      ∃ edge note, (edge, note) ∈ (cycleEdges "A" []).zip f.notes ∧
        ∃ item ∈ (Source.ofString joinedScript).items, item.Covers note.span.offset ∧
          edge.1 ≠ item.table.key := by
  have hcycle : (Source.ofString joinedScript).cascadeGraph.firstCycle? = some ["A"] := by
    decide +kernel
  have hitem : ∃ pair ∈ (cycleEdges "A" []).zip (cascadeFinding (Source.ofString joinedScript)
      (Source.ofString joinedScript).cascadeGraph ["A"]).notes,
      ∃ item ∈ (Source.ofString joinedScript).items, item.Covers pair.2.span.offset ∧
        pair.1.1 ≠ item.table.key := by
    decide +kernel
  obtain ⟨f, hf, hfinding, hreports⟩ := reportsCycle_of_firstCycle? hcycle
  obtain ⟨⟨edge, note⟩, hpair, hitem⟩ := hitem
  exact ⟨f, hf, hreports, edge, note, hfinding ▸ hpair, hitem⟩

end SchemaReview
