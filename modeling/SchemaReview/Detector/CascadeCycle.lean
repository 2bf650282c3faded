import SchemaReview.Ddl.Alteration
import SchemaReview.Finding.Basic
import SchemaReview.Sequence

/-!
# Detector.CascadeCycle — cycles of cascading deletes

Foreign keys whose deletes cascade are the edges of a directed graph on table keys.  The first
cycle found by depth-first search, from the tables in order of first appearance, is reported.
-/

namespace SchemaReview

/-- A foreign key whose deletes cascade. -/
structure CascadeEdge where
  /-- The declaring table as written. -/
  fromTable : String
  /-- The referenced table as written. -/
  toTable : String
  /-- Byte offset of the clause in the source. -/
  offset : Nat
deriving DecidableEq, Repr

namespace CascadeEdge

/-- Key of the declaring table. -/
def fromKey (e : CascadeEdge) : String := nameKey e.fromTable

/-- Key of the referenced table. -/
def toKey (e : CascadeEdge) : String := nameKey e.toTable

end CascadeEdge

/-- The edges of a graph of cascading deletes, in script order. -/
abbrev CascadeGraph := List CascadeEdge

namespace CascadeGraph

/-- The names of the tables, as written, in order of appearance. -/
def tableNames (g : CascadeGraph) : List String := g.flatMap fun e => [e.fromTable, e.toTable]

/-- The table keys in order of first appearance. -/
def nodes (g : CascadeGraph) : List String := distinct (g.tableNames.map nameKey)

/-- The name of a table as first written. -/
def nameOf (g : CascadeGraph) (key : String) : String :=
  (g.tableNames.find? fun name => nameKey name = key).getD key

/-- The keys at both ends of each edge. -/
def arrows (g : CascadeGraph) : List (String × String) := g.map fun e => (e.fromKey, e.toKey)

/-- The offset of the first edge between two tables. -/
def edgeOffset? (g : CascadeGraph) (source target : String) : Option Nat :=
  (g.find? fun e => e.fromKey = source ∧ e.toKey = target).map (·.offset)

/-- The ends of the arrows that begin at a table, in script order. -/
def targets (arrows : List (String × String)) (node : String) : List String :=
  (arrows.filter fun a => a.1 = node).map (·.2)

/-- The first cycle that the search meets below `node`.  The path has its end first, and a table that
was visited before is not searched again.  `fuel` bounds the number of tables that can still be added
to the path. -/
def cycleBelow? (arrows : List (String × String)) :
    Nat → String → List String → List String → Option (List String)
  | 0, _, _, _ => none
  | fuel + 1, node, path, visited =>
    (targets arrows node).findSome? fun next =>
      if next ∈ node :: path then
        some (next :: ((node :: path).takeWhile (· ≠ next)).reverse)
      else if next ∈ visited.insert node then none
      else cycleBelow? arrows fuel next (node :: path) (visited.insert node)

/-- The first cycle, without its first table repeated at the end. -/
def firstCycle? (g : CascadeGraph) : Option (List String) :=
  let arrows := g.arrows
  let nodes := g.nodes
  nodes.findSome? fun start => cycleBelow? arrows nodes.length start [] []

end CascadeGraph

/-- The edges that one statement declares. -/
def cascadeEdgesOf (statement : Statement) : List CascadeEdge :=
  match (TableHeader.find? statement.text 0).map (·.name) <|> alteredTable? statement.text with
  | none => []
  | some table =>
    ((references statement.text).filter (·.cascades)).map fun r =>
      ⟨table, r.table, statement.offset + r.offset⟩

/-- The graph of cascading deletes of a source. -/
def Source.cascadeGraph (s : Source) : CascadeGraph := s.statements.flatMap cascadeEdgesOf

/-- The note for one edge of a cycle. -/
def cascadeNote? (s : Source) (g : CascadeGraph) (edge : String × String) : Option Note :=
  (g.edgeOffset? edge.1 edge.2).map fun offset =>
    let span := s.spanAt offset 10
    ⟨g.nameOf edge.1 ++ " -> " ++ g.nameOf edge.2 ++ s!" (line {span.line})", span⟩

/-- The finding for a cycle. -/
def cascadeFinding (s : Source) (g : CascadeGraph) (cycle : List String) : Finding :=
  let closed := cycle ++ cycle.take 1
  let notes : List Note := (closed.zip (closed.drop 1)).filterMap (cascadeNote? s g)
  let found := Finding.new .error .cascadeDeleteCycle
    ("Cycle of cascading deletes between tables: " ++ " -> ".intercalate (closed.map g.nameOf))
  { found with span := notes.head?.map Note.span }
    |>.withNotes notes
    |>.withHelp "Remove at least one ON DELETE CASCADE dependency from the cycle"

/-- The first cycle of cascading deletes. -/
def cascadeCycles (s : Source) : List Finding :=
  let g := s.cascadeGraph
  (g.firstCycle?.map (cascadeFinding s g)).toList

end SchemaReview
