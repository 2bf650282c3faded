import Mathlib.Data.List.Chain
import Mathlib.Data.List.Perm.Subperm
import Mathlib.Logic.Relation
import SchemaReview.Detector.Run
import SchemaReview.Proofs.Sequence

/-!
# Proofs.Detector.CascadeCycle — the cascade detector and the cycles of the script

* `CascadeClause s a b offset`: the clause at `offset` makes deletes cascade between the tables with
  the keys `a` and `b`.  The edges are read off the statements, not off the graph of the detector.
* `Visits`: the tables that the depth-first search has visited are those of its path.  So it goes on below
  every table that is not on the path (`cycleBelow?_succ`).
* `Enters`: what holds whenever the search enters a node, kept from node to node.
* `cycleBelow?_sound`: what the search returns is a cycle with distinct nodes.
* `cycleBelow?_complete`: below a node that lies on a cycle the search returns something.
* `searchTo_eq_firstCycle?`: the bound on the depth of the search is never met.
* `infiniteDeleteCascade_run`: one finding exactly when there is a cycle, with one note for each of
  its edges.
-/

open Relation

namespace SchemaReview

/-! ## The cascading deletes of a script -/

/-- The table that a statement is about: that of its first header, or else the one it alters. -/
def Statement.Concerns (statement : Statement) (table : String) : Prop :=
  (∃ header, TableHeader.find? statement.text 0 = some header ∧ header.name = table) ∨
    (TableHeader.find? statement.text 0 = none ∧ alteredTable? statement.text = some table)

/-- The clause at `offset` makes deletes cascade between the tables with the keys `a` and `b`. -/
inductive Source.CascadeClause (s : Source) : String → String → Nat → Prop
  | intro {statement : Statement} {table : String} {r : Reference}
      (hstatement : statement ∈ s.statements) (htable : statement.Concerns table)
      (hreference : r ∈ references statement.text) (hcascades : r.cascades = true) :
      s.CascadeClause (nameKey table) (nameKey r.table) (statement.offset + r.offset)

/-- Some clause makes deletes cascade between the tables with these keys. -/
def Source.CascadesTo (s : Source) (a b : String) : Prop := ∃ offset, s.CascadeClause a b offset

/-- A cycle: distinct nodes, each of which leads to the next and the last to the first. -/
structure IsCycle (r : String → String → Prop) (first : String) (rest : List String) : Prop where
  nodup : (first :: rest).Nodup
  chain : List.IsChain r (first :: (rest ++ [first]))

/-- The edges of a cycle, in order. -/
def cycleEdges (first : String) (rest : List String) : List (String × String) :=
  (first :: rest).zip (rest ++ [first])

theorem IsCycle.transGen {r : String → String → Prop} {first : String} {rest : List String}
    (h : IsCycle r first rest) : TransGen r first first := by
  -- a chain that starts at `first` reaches each of its later members
  have hreach : ∀ (l : List String) (a b : String), List.IsChain r (a :: (l ++ [b])) →
      TransGen r a b := by
    intro l
    induction l with
    | nil => exact fun a b hc => .single (List.isChain_cons_cons.mp hc).1
    | cons c l ih =>
      intro a b hc
      obtain ⟨hac, hrest⟩ := List.isChain_cons_cons.mp hc
      exact TransGen.head hac (ih c b hrest)
  exact hreach rest first first h.chain

/-! ## The search -/

namespace CascadeGraph

/-- There is an arrow from `a` to `b`. -/
def Leads (arrows : List (String × String)) (a b : String) : Prop := (a, b) ∈ arrows

/-- A path of the search, its end first. -/
structure IsPath (arrows : List (String × String)) (path : List String) : Prop where
  nodup : path.Nodup
  chain : List.IsChain (fun b a => Leads arrows a b) path

variable {arrows : List (String × String)}

theorem mem_targets {a b : String} : b ∈ targets arrows a ↔ Leads arrows a b := by
  simp [targets, Leads]

theorem isPath_singleton (arrows : List (String × String)) (node : String) :
    IsPath arrows [node] :=
  ⟨List.nodup_singleton node, .singleton node⟩

theorem IsPath.cons {node next : String} {path : List String} (h : IsPath arrows (node :: path))
    (hlead : Leads arrows node next) (hnew : next ∉ node :: path) :
    IsPath arrows (next :: node :: path) :=
  ⟨List.nodup_cons.mpr ⟨hnew, h.nodup⟩, List.isChain_cons_cons.mpr ⟨hlead, h.chain⟩⟩

/-- An arrow back into the path closes a cycle. -/
theorem IsPath.isCycle {node next : String} {path : List String} (h : IsPath arrows (node :: path))
    (hlead : Leads arrows node next) (hmem : next ∈ node :: path) :
    IsCycle (Leads arrows) next ((node :: path).takeWhile (· ≠ next)).reverse := by
  obtain ⟨l, post, hsplit⟩ := List.append_of_mem hmem
  have hnodup : (l ++ next :: post).Nodup := hsplit ▸ h.nodup
  have hnext : next ∉ l := fun hl =>
    (List.nodup_append.mp hnodup).2.2 next hl next List.mem_cons_self rfl
  have htake : (node :: path).takeWhile (· ≠ next) = l := by
    rw [hsplit, List.takeWhile_append_of_pos]
    · simp
    · intro a ha
      simp only [decide_eq_true_eq]
      rintro rfl
      exact hnext ha
  rw [htake]
  constructor
  · rw [List.nodup_cons, List.mem_reverse, List.nodup_reverse]
    exact ⟨hnext, (List.nodup_append.mp hnodup).1⟩
  · -- read backwards, the cycle is `next` in front of an initial part of the path
    have hback : List.IsChain (fun b a => Leads arrows a b) (next :: (l ++ [next])) := by
      have hpath : List.IsChain (fun b a => Leads arrows a b) ((l ++ [next]) ++ post) := by
        have hchain := h.chain
        rw [hsplit] at hchain
        simpa using hchain
      refine List.isChain_cons.mpr ⟨fun y hy => ?_, hpath.left_of_append⟩
      have hhead : (l ++ [next]).head? = some node := by
        have hfirst := congrArg List.head? hsplit
        cases l <;> simpa using hfirst.symm
      rw [hhead, Option.mem_some_iff] at hy
      exact hy ▸ hlead
    rw [← List.isChain_reverse] at hback
    simpa using hback

/-- The visited tables are those of the path. -/
def Visits (visited path : List String) : Prop := ∀ name, name ∈ visited ↔ name ∈ path

theorem Visits.nil : Visits [] [] := fun _ => Iff.rfl

/-- The search adds a node to its path and to the visited tables. -/
theorem Visits.insert {visited path : List String} (h : Visits visited path) (node : String) :
    Visits (visited.insert node) (node :: path) := by
  intro name
  rw [List.mem_insert_iff, List.mem_cons, h name]

/-- A table that is not on the path was not visited, so the search goes on below it. -/
theorem cycleBelow?_succ {visited path : List String} (hvisits : Visits visited path) (fuel : Nat)
    (node : String) :
    cycleBelow? arrows (fuel + 1) node path visited =
      (targets arrows node).findSome? fun next =>
        if next ∈ node :: path then
          some (next :: ((node :: path).takeWhile (· ≠ next)).reverse)
        else cycleBelow? arrows fuel next (node :: path) (visited.insert node) := by
  rw [cycleBelow?]
  refine findSome?_congr fun next _ => ?_
  by_cases hmem : next ∈ node :: path
  · rw [if_pos hmem, if_pos hmem]
  · have hnew : next ∉ visited.insert node := mt (hvisits.insert node next).mp hmem
    rw [if_neg hmem, if_neg hmem, if_neg hnew]

/-- What the search returns is a cycle. -/
theorem cycleBelow?_sound {fuel : Nat} {node : String} {path visited cycle : List String}
    (hpath : IsPath arrows (node :: path)) (hvisits : Visits visited path)
    (h : cycleBelow? arrows fuel node path visited = some cycle) :
    ∃ first rest, cycle = first :: rest ∧ IsCycle (Leads arrows) first rest := by
  induction fuel generalizing node path visited with
  | zero => simp [cycleBelow?] at h
  | succ fuel ih =>
    rw [cycleBelow?_succ hvisits] at h
    obtain ⟨next, hnext, hfound⟩ := List.exists_of_findSome?_eq_some h
    have hlead : Leads arrows node next := mem_targets.mp hnext
    by_cases hmem : next ∈ node :: path
    · rw [if_pos hmem, Option.some.injEq] at hfound
      exact ⟨next, _, hfound.symm, hpath.isCycle hlead hmem⟩
    · rw [if_neg hmem] at hfound
      exact ih (hpath.cons hlead hmem) (hvisits.insert node) hfound

/-- Arrows do not leave the nodes. -/
def Within (arrows : List (String × String)) (nodes : List String) : Prop :=
  ∀ a b, Leads arrows a b → a ∈ nodes ∧ b ∈ nodes

/-- A path among the nodes has at most as many members as there are nodes. -/
theorem length_le_of_isPath {nodes path : List String} (hpath : IsPath arrows path)
    (hsub : path ⊆ nodes) : path.length ≤ nodes.length :=
  (List.Nodup.subperm hpath.nodup hsub).length_le

/-- What holds whenever the search enters a node: the node extends the path among the nodes, the visited tables are
those of the path, and the depth that is left is enough for the nodes that are not on it. -/
structure Enters (arrows : List (String × String)) (nodes : List String) (fuel : Nat) (node : String)
    (path visited : List String) : Prop where
  isPath : IsPath arrows (node :: path)
  visits : Visits visited path
  subset : node :: path ⊆ nodes
  enough : nodes.length ≤ fuel + path.length

namespace Enters

variable {nodes : List String} {fuel : Nat} {node next : String} {path visited : List String}

theorem start (h : node ∈ nodes) : Enters arrows nodes nodes.length node [] [] where
  isPath := isPath_singleton arrows node
  visits := .nil
  subset := by simpa using h
  enough := by simp

/-- The search goes on to a table that is not on the path yet. -/
theorem step (h : Enters arrows nodes (fuel + 1) node path visited) (hwithin : Within arrows nodes)
    (hlead : Leads arrows node next) (hnew : next ∉ node :: path) :
    Enters arrows nodes fuel next (node :: path) (visited.insert node) where
  isPath := h.isPath.cons hlead hnew
  visits := h.visits.insert node
  subset := List.cons_subset.mpr ⟨(hwithin node next hlead).2, h.subset⟩
  enough := by
    have henough := h.enough
    rw [List.length_cons]
    omega

/-- There is depth left for a node that is entered. -/
theorem fuel_ne_zero (h : Enters arrows nodes fuel node path visited) : fuel ≠ 0 := by
  have hlength := length_le_of_isPath h.isPath h.subset
  have henough := h.enough
  rw [List.length_cons] at hlength
  omega

end Enters

/-- Below a node on a cycle the search returns something: it can only fail by leaving the path for a
new node on the cycle each time, and there are not enough nodes for that. -/
theorem cycleBelow?_complete {nodes : List String} (hwithin : Within arrows nodes) {fuel : Nat}
    {node : String} {path visited : List String} (h : Enters arrows nodes fuel node path visited)
    (hcycle : TransGen (Leads arrows) node node) : cycleBelow? arrows fuel node path visited ≠ none := by
  induction fuel generalizing node path visited with
  | zero => exact absurd rfl h.fuel_ne_zero
  | succ fuel ih =>
    intro hnone
    obtain ⟨next, hlead, hback⟩ := TransGen.head'_iff.mp hcycle
    rw [cycleBelow?_succ h.visits, List.findSome?_eq_none_iff] at hnone
    have hfail := hnone next (mem_targets.mpr hlead)
    by_cases hmem : next ∈ node :: path
    · rw [if_pos hmem] at hfail
      exact Option.some_ne_none _ hfail
    · rw [if_neg hmem] at hfail
      exact ih (h.step hwithin hlead hmem) (TransGen.tail' hback hlead) hfail

/-- The search never goes deeper than there are nodes, so a larger bound gives the same answer. -/
theorem cycleBelow?_fuel {nodes : List String} (hwithin : Within arrows nodes) {fuel : Nat}
    {node : String} {path visited : List String} (h : Enters arrows nodes fuel node path visited) (extra : Nat) :
    cycleBelow? arrows (fuel + extra) node path visited = cycleBelow? arrows fuel node path visited := by
  induction fuel generalizing node path visited with
  | zero => exact absurd rfl h.fuel_ne_zero
  | succ fuel ih =>
    rw [Nat.add_right_comm, cycleBelow?_succ h.visits, cycleBelow?_succ h.visits]
    refine findSome?_congr fun next hnext => ?_
    have hlead : Leads arrows node next := mem_targets.mp hnext
    by_cases hmem : next ∈ node :: path
    · rw [if_pos hmem, if_pos hmem]
    · rw [if_neg hmem, if_neg hmem]
      exact ih (h.step hwithin hlead hmem)

/-! ## The graph -/

theorem fromTable_mem_tableNames {g : CascadeGraph} {e : CascadeEdge} (he : e ∈ g) :
    e.fromTable ∈ g.tableNames :=
  List.mem_flatMap.mpr ⟨e, he, by simp⟩

theorem toTable_mem_tableNames {g : CascadeGraph} {e : CascadeEdge} (he : e ∈ g) :
    e.toTable ∈ g.tableNames :=
  List.mem_flatMap.mpr ⟨e, he, by simp⟩

theorem mem_nodes {g : CascadeGraph} {key : String} :
    key ∈ g.nodes ↔ ∃ name ∈ g.tableNames, nameKey name = key := by
  simp [nodes]

theorem leads_arrows {g : CascadeGraph} {a b : String} :
    Leads g.arrows a b ↔ ∃ e ∈ g, e.fromKey = a ∧ e.toKey = b := by
  simp [Leads, arrows]

theorem within_nodes (g : CascadeGraph) : Within g.arrows g.nodes := by
  intro a b h
  obtain ⟨e, he, rfl, rfl⟩ := leads_arrows.mp h
  exact ⟨mem_nodes.mpr ⟨_, fromTable_mem_tableNames he, rfl⟩,
    mem_nodes.mpr ⟨_, toTable_mem_tableNames he, rfl⟩⟩

/-- The name shown for a node is a name of that node. -/
theorem nameKey_nameOf {g : CascadeGraph} {key : String} (h : key ∈ g.nodes) :
    nameKey (g.nameOf key) = key := by
  obtain ⟨name, hname, hkey⟩ := mem_nodes.mp h
  have hfound : (g.tableNames.find? fun n => nameKey n = key).isSome := by
    rw [List.find?_isSome]
    exact ⟨name, hname, by simpa using hkey⟩
  obtain ⟨found, heq⟩ := Option.isSome_iff_exists.mp hfound
  have hfirst := List.find?_some heq
  rw [nameOf, heq, Option.getD_some]
  simpa using hfirst

/-- No arrow is without an offset. -/
theorem exists_edgeOffset? {g : CascadeGraph} {a b : String} (h : Leads g.arrows a b) :
    ∃ e ∈ g, e.fromKey = a ∧ e.toKey = b ∧ g.edgeOffset? a b = some e.offset := by
  obtain ⟨e, he, ha, hb⟩ := leads_arrows.mp h
  have hfound : (g.find? fun e => e.fromKey = a ∧ e.toKey = b).isSome := by
    rw [List.find?_isSome]
    exact ⟨e, he, by simp [ha, hb]⟩
  obtain ⟨first, heq⟩ := Option.isSome_iff_exists.mp hfound
  have hfirst := List.find?_some heq
  simp only [Bool.decide_and, Bool.and_eq_true, decide_eq_true_eq] at hfirst
  exact ⟨first, List.mem_of_find?_eq_some heq, hfirst.1, hfirst.2, by rw [edgeOffset?, heq]; rfl⟩

theorem firstCycle?_sound {g : CascadeGraph} {cycle : List String}
    (h : g.firstCycle? = some cycle) :
    ∃ first rest, cycle = first :: rest ∧ IsCycle (Leads g.arrows) first rest := by
  obtain ⟨start, -, hfound⟩ := List.exists_of_findSome?_eq_some h
  exact cycleBelow?_sound (isPath_singleton _ start) .nil hfound

/-- The search from all nodes in turn finds a cycle exactly when there is one. -/
theorem firstCycle?_eq_none_iff {g : CascadeGraph} :
    g.firstCycle? = none ↔ ¬ ∃ a, TransGen (Leads g.arrows) a a := by
  constructor
  · rintro hnone ⟨a, hcycle⟩
    obtain ⟨b, hlead, -⟩ := TransGen.head'_iff.mp hcycle
    have ha : a ∈ g.nodes := (within_nodes g a b hlead).1
    rw [firstCycle?, List.findSome?_eq_none_iff] at hnone
    exact cycleBelow?_complete (within_nodes g) (.start ha) hcycle (hnone a ha)
  · intro hacyclic
    rcases hsome : g.firstCycle? with _ | cycle
    · rfl
    · obtain ⟨first, rest, -, hcycle⟩ := firstCycle?_sound hsome
      exact absurd ⟨first, hcycle.transGen⟩ hacyclic

/-- The search from all nodes in turn, at most `fuel` nodes deep. -/
def searchTo (g : CascadeGraph) (fuel : Nat) : Option (List String) :=
  g.nodes.findSome? fun start => cycleBelow? g.arrows fuel start [] []

theorem searchTo_eq_firstCycle? (g : CascadeGraph) (extra : Nat) :
    g.searchTo (g.nodes.length + extra) = g.firstCycle? := by
  exact findSome?_congr fun start hstart => cycleBelow?_fuel (within_nodes g) (.start hstart) extra

end CascadeGraph

/-! ## The finding -/

namespace Source

variable {s : Source}

theorem concerns_iff {statement : Statement} {table : String} :
    ((TableHeader.find? statement.text 0).map (·.name) <|> alteredTable? statement.text) =
      some table ↔ statement.Concerns table := by
  unfold Statement.Concerns
  rcases TableHeader.find? statement.text 0 with _ | header
  · simp
  · simp

/-- The edges of the graph are the cascading clauses of the script. -/
theorem cascadeClause_iff {a b : String} {offset : Nat} :
    s.CascadeClause a b offset ↔
      ∃ e ∈ s.cascadeGraph, e.fromKey = a ∧ e.toKey = b ∧ e.offset = offset := by
  constructor
  · rintro ⟨hstatement, htable, hreference, hcascades⟩
    rename_i statement table r
    refine ⟨⟨table, r.table, statement.offset + r.offset⟩, ?_, rfl, rfl, rfl⟩
    refine List.mem_flatMap.mpr ⟨statement, hstatement, ?_⟩
    rw [cascadeEdgesOf, concerns_iff.mpr htable]
    exact List.mem_map.mpr ⟨r, List.mem_filter.mpr ⟨hreference, hcascades⟩, rfl⟩
  · rintro ⟨e, he, rfl, rfl, rfl⟩
    obtain ⟨statement, hstatement, hedge⟩ := List.mem_flatMap.mp he
    rw [cascadeEdgesOf] at hedge
    split at hedge
    · simp at hedge
    · rename_i table htable
      obtain ⟨r, hr, rfl⟩ := List.mem_map.mp hedge
      obtain ⟨hreference, hcascades⟩ := List.mem_filter.mp hr
      exact .intro hstatement (concerns_iff.mp htable) hreference hcascades

theorem leads_cascadeGraph {a b : String} :
    CascadeGraph.Leads s.cascadeGraph.arrows a b ↔ s.CascadesTo a b := by
  rw [CascadeGraph.leads_arrows]
  constructor
  · rintro ⟨e, he, ha, hb⟩
    exact ⟨e.offset, cascadeClause_iff.mpr ⟨e, he, ha, hb, rfl⟩⟩
  · rintro ⟨offset, hclause⟩
    obtain ⟨e, he, ha, hb, -⟩ := cascadeClause_iff.mp hclause
    exact ⟨e, he, ha, hb⟩

theorem leads_cascadeGraph_eq (s : Source) :
    CascadeGraph.Leads s.cascadeGraph.arrows = s.CascadesTo := by
  funext a b
  exact propext leads_cascadeGraph

/-- The note is about the edge from `a` to `b`: it names both tables, and its span is that of a
clause that makes this edge. -/
def NotesCascade (s : Source) (edge : String × String) (note : Note) : Prop :=
  ∃ offset, s.CascadeClause edge.1 edge.2 offset ∧ note.span = s.spanAt offset "REFERENCES".length ∧
    ∃ child parent, nameKey child = edge.1 ∧ nameKey parent = edge.2 ∧
      note.message = child ++ " -> " ++ parent ++ s!" (line {note.span.line})"

theorem NotesCascade.cascadeClause {edge : String × String} {note : Note}
    (h : s.NotesCascade edge note) : s.CascadeClause edge.1 edge.2 note.span.offset := by
  obtain ⟨offset, hclause, hspan, -⟩ := h
  rw [hspan]
  exact hclause

theorem exists_cascadeNote? {edge : String × String} (h : s.CascadesTo edge.1 edge.2) :
    ∃ note, cascadeNote? s s.cascadeGraph edge = some note ∧ s.NotesCascade edge note := by
  have hlead := leads_cascadeGraph.mpr h
  obtain ⟨e, he, ha, hb, hoffset⟩ := CascadeGraph.exists_edgeOffset? hlead
  obtain ⟨hnode, hnode'⟩ := CascadeGraph.within_nodes _ _ _ hlead
  refine ⟨_, by rw [cascadeNote?, hoffset]; rfl, e.offset, ?_, rfl, _, _, ?_, ?_, rfl⟩
  · exact cascadeClause_iff.mpr ⟨e, he, ha, hb, rfl⟩
  · exact CascadeGraph.nameKey_nameOf hnode
  · exact CascadeGraph.nameKey_nameOf hnode'

end Source

theorem IsCycle.forall₂ {r : String → String → Prop} {first : String} {rest : List String}
    (h : IsCycle r first rest) : List.Forall₂ r (first :: rest) (rest ++ [first]) :=
  List.isChain_cons_append_singleton_iff_forall₂.mp h.chain

theorem IsCycle.of_mem_cycleEdges {r : String → String → Prop} {first : String}
    {rest : List String} (h : IsCycle r first rest) {edge : String × String}
    (hedge : edge ∈ cycleEdges first rest) : r edge.1 edge.2 :=
  (List.forall₂_iff_zip.mp h.forall₂).2 hedge

/-- The path closed by its first table has the edges of the cycle as neighbours. -/
theorem zip_drop_eq_cycleEdges (first : String) (rest : List String) :
    (first :: rest ++ [first]).zip ((first :: rest ++ [first]).drop 1) = cycleEdges first rest := by
  have hlen : (first :: rest).length = (rest ++ [first]).length := by simp
  calc (first :: rest ++ [first]).zip ((first :: rest ++ [first]).drop 1)
      = (first :: rest ++ [first]).zip (rest ++ [first] ++ []) := by simp
    _ = (first :: rest).zip (rest ++ [first]) ++ [first].zip [] := List.zip_append hlen
    _ = cycleEdges first rest := by simp [cycleEdges]

/-- What the detector says about a cycle of the script. -/
structure ReportsCycle (s : Source) (f : Finding) (first : String) (rest : List String) : Prop where
  kind : f.kind = .cascadeDeleteCycle
  cycle : IsCycle s.CascadesTo first rest
  notes : List.Forall₂ s.NotesCascade (cycleEdges first rest) f.notes
  message : ∃ name names, (name :: names).map nameKey = first :: rest ∧
    f.message = "Cycle of cascading deletes between tables: " ++
      " -> ".intercalate (name :: names ++ [name])

theorem cascadeFinding_reports {s : Source} {first : String} {rest : List String}
    (h : IsCycle s.CascadesTo first rest) :
    ReportsCycle s (cascadeFinding s s.cascadeGraph (first :: rest)) first rest := by
  refine ⟨rfl, h, ?_, s.cascadeGraph.nameOf first, rest.map s.cascadeGraph.nameOf, ?_, ?_⟩
  · have hnotes : (cascadeFinding s s.cascadeGraph (first :: rest)).notes =
        (cycleEdges first rest).filterMap (cascadeNote? s s.cascadeGraph) := by
      rw [← zip_drop_eq_cycleEdges]
      rfl
    rw [hnotes]
    exact forall₂_filterMap fun edge hedge => Source.exists_cascadeNote? (h.of_mem_cycleEdges hedge)
  · -- every member of the cycle is at the start of an edge, hence a node
    have hnode : ∀ key ∈ first :: rest, nameKey (s.cascadeGraph.nameOf key) = key := by
      intro key hkey
      obtain ⟨next, -, hedge⟩ := exists_of_forall₂ h.forall₂ hkey
      exact CascadeGraph.nameKey_nameOf
        (CascadeGraph.within_nodes _ _ _ (Source.leads_cascadeGraph.mpr hedge)).1
    calc (s.cascadeGraph.nameOf first :: rest.map s.cascadeGraph.nameOf).map nameKey
        = (first :: rest).map (fun key => nameKey (s.cascadeGraph.nameOf key)) := by simp
      _ = (first :: rest).map (fun key => key) := List.map_congr_left hnode
      _ = first :: rest := List.map_id' _
  · simp [cascadeFinding, Finding.new, Finding.withNotes, Finding.withHelp]

/-- The cycle that the search returns is reported. -/
theorem reportsCycle_of_firstCycle? {sql : String} {first : String} {rest : List String}
    (h : (Source.ofString sql).cascadeGraph.firstCycle? = some (first :: rest)) :
    ∃ f ∈ Detector.infiniteDeleteCascade.run sql,
      f = cascadeFinding (Source.ofString sql) (Source.ofString sql).cascadeGraph (first :: rest) ∧
      ReportsCycle (Source.ofString sql) f first rest := by
  have hrun : Detector.infiniteDeleteCascade.run sql =
      ((Source.ofString sql).cascadeGraph.firstCycle?.map
        (cascadeFinding (Source.ofString sql) (Source.ofString sql).cascadeGraph)).toList := rfl
  obtain ⟨first', rest', heq, hcycle⟩ := CascadeGraph.firstCycle?_sound h
  rw [Source.leads_cascadeGraph_eq] at hcycle
  rw [List.cons.injEq] at heq
  obtain ⟨rfl, rfl⟩ := heq
  refine ⟨_, ?_, rfl, cascadeFinding_reports hcycle⟩
  rw [hrun, h]
  exact List.mem_singleton_self _

/-- Whatever the detector finds is a cycle. -/
theorem exists_reportsCycle {sql : String} {f : Finding}
    (hf : f ∈ Detector.infiniteDeleteCascade.run sql) :
    ∃ first rest, ReportsCycle (Source.ofString sql) f first rest := by
  have hfound : f ∈ ((Source.ofString sql).cascadeGraph.firstCycle?.map
      (cascadeFinding (Source.ofString sql) (Source.ofString sql).cascadeGraph)).toList := hf
  obtain ⟨cycle, hcycle, rfl⟩ := Option.map_eq_some_iff.mp (Option.mem_toList.mp hfound)
  obtain ⟨first, rest, rfl, hleads⟩ := CascadeGraph.firstCycle?_sound hcycle
  rw [Source.leads_cascadeGraph_eq] at hleads
  exact ⟨first, rest, cascadeFinding_reports hleads⟩

/-- **Cycles of cascading deletes.**  The detector reports something exactly when the script has a
cycle; then it reports one finding, with the edges of a cycle of distinct tables as its notes.  The
search never goes deeper than there are tables: with a larger bound it gives the same answer. -/
theorem infiniteDeleteCascade_run (sql : String) :
    (Detector.infiniteDeleteCascade.run sql ≠ [] ↔
        ∃ a, TransGen (Source.ofString sql).CascadesTo a a) ∧
      (Detector.infiniteDeleteCascade.run sql = [] ∨
        ∃ f first rest, Detector.infiniteDeleteCascade.run sql = [f] ∧
          ReportsCycle (Source.ofString sql) f first rest) ∧
      ∀ extra, (Source.ofString sql).cascadeGraph.searchTo
          ((Source.ofString sql).cascadeGraph.nodes.length + extra) =
        (Source.ofString sql).cascadeGraph.firstCycle? := by
  set s := Source.ofString sql with hs
  have hrun : Detector.infiniteDeleteCascade.run sql =
      (s.cascadeGraph.firstCycle?.map (cascadeFinding s s.cascadeGraph)).toList := rfl
  refine ⟨?_, ?_, s.cascadeGraph.searchTo_eq_firstCycle?⟩
  · have hnone := s.cascadeGraph.firstCycle?_eq_none_iff
    rw [Source.leads_cascadeGraph_eq] at hnone
    rw [hrun, ne_eq, Option.toList_eq_nil_iff, Option.map_eq_none_iff, hnone, not_not]
  · rcases hcycle : s.cascadeGraph.firstCycle? with _ | cycle
    · left
      rw [hrun, hcycle]
      rfl
    · right
      obtain ⟨first, rest, rfl, hfound⟩ := CascadeGraph.firstCycle?_sound hcycle
      rw [Source.leads_cascadeGraph_eq] at hfound
      refine ⟨_, first, rest, ?_, cascadeFinding_reports hfound⟩
      rw [hrun, hcycle]
      rfl

end SchemaReview
