import Mathlib.Data.List.Basic
import SchemaReview.Ddl.Index
import SchemaReview.Detector.CascadeCycle
import SchemaReview.Proofs.Pattern.Verbatim

/-!
# Proofs.Ddl.Padding — clauses behind white space

None of the clauses begins with white space, and none of them asks where the text begins.  So spaces,
tabs and line feeds in front of a text only move the clauses in it: `foreignKeys_padding`,
`references_padding`; names are the same: `alteredTable?_padding`, `map_name_find?_padding`.
-/

namespace SchemaReview

open Text

variable {w : Text} (hw : IsPadding w) (t : Text)

/-! ## Names -/

section

include hw

/-- A search for a name gives the same name. -/
theorem map_groupString_search_padding {p : Pattern} (hp : p.skipsPadding = true) (n : Nat) :
    (p.search (w ++ t)).map (·.groupString n) = (p.search t).map (·.groupString n) := by
  rw [Pattern.search_padding hp hw, Option.map_map]
  cases hm : p.search t with
  | none => rfl
  | some m =>
    obtain ⟨c, hc⟩ := Pattern.exists_matchAt_of_searchFrom hm
    exact congrArg some (Pattern.groupString_behind w hc n)

theorem alteredTable?_padding : alteredTable? (w ++ t) = alteredTable? t :=
  map_groupString_search_padding hw t (by decide) 1

theorem map_name_find?_padding :
    (TableHeader.find? (w ++ t) 0).map (·.name) = (TableHeader.find? t 0).map (·.name) := by
  have hname : ∀ t, (TableHeader.find? t 0).map (·.name) =
      (Pattern.createTable.search t).map (·.groupString 1) := by
    intro t
    have hstart : Cursor.atByte t 0 = ⟨none, 0, t⟩ := by
      cases t <;> rfl
    rw [TableHeader.find?, Pattern.searchAt, hstart, Option.map_map]
    rfl
  rw [hname, hname]
  exact map_groupString_search_padding hw t (by decide) 1

end

/-! ## Foreign keys -/

/-- The foreign key where its text stands `n` bytes further on. -/
def ForeignKey.shift (n : Nat) (fk : ForeignKey) : ForeignKey := { fk with offset := n + fk.offset }

def Reference.shift (n : Nat) (r : Reference) : Reference := { r with offset := n + r.offset }

section

include hw

theorem foreignKeys_padding : foreignKeys (w ++ t) = (foreignKeys t).map (.shift (byteSize w)) := by
  rw [foreignKeys, foreignKeys, Pattern.findAll_padding (by decide) hw, List.map_map, List.map_map]
  refine List.map_congr_left fun m hm => ?_
  obtain ⟨c, hc⟩ := Pattern.exists_matchAt_of_mem_findAllFrom hm
  simp only [Function.comp_apply, ForeignKey.ofMatch, ForeignKey.shift, Match.groupString,
    Pattern.groupText_behind w hc, Pattern.rest_stop_behind, Pattern.offset_start_behind]

theorem references_padding : references (w ++ t) = (references t).map (.shift (byteSize w)) := by
  rw [references, references, Pattern.findAll_padding (by decide) hw, List.map_map, List.map_map]
  refine List.map_congr_left fun m hm => ?_
  obtain ⟨c, hc⟩ := Pattern.exists_matchAt_of_mem_findAllFrom hm
  simp only [Function.comp_apply, Reference.ofMatch, Reference.shift, Match.groupString,
    Pattern.groupText_behind w hc, Pattern.rest_stop_behind, Pattern.offset_start_behind]

end

/-- A foreign key without its position. -/
def ForeignKey.content (fk : ForeignKey) : List String × String × List String :=
  (fk.columns, fk.table, fk.targets)

/-- An added foreign key without its position. -/
def AddedForeignKey.content (a : AddedForeignKey) : String × List String × String × List String :=
  (a.table, a.foreignKey.content)

/-- What a statement adds, read from its text. -/
def addedContents (t : Text) : List (String × List String × String × List String) :=
  (alteredTable? t).elim [] fun table => (foreignKeys t).map fun fk => (table, fk.content)

theorem content_addedBy (s : Source) (statement : Statement) :
    (s.addedBy statement).map AddedForeignKey.content = addedContents statement.text := by
  unfold Source.addedBy addedContents
  cases alteredTable? statement.text with
  | none => rfl
  | some table =>
    rw [List.map_map]
    rfl

theorem content_addedForeignKeys (s : Source) :
    s.addedForeignKeys.map AddedForeignKey.content =
      s.statements.flatMap fun statement => addedContents statement.text := by
  rw [Source.addedForeignKeys, List.map_flatMap]
  exact List.flatMap_congr fun statement _ => content_addedBy s statement

include hw in
theorem addedContents_padding : addedContents (w ++ t) = addedContents t := by
  simp only [addedContents, alteredTable?_padding hw, foreignKeys_padding hw, List.map_map]
  rfl

/-! ## Cascading deletes -/

/-- The edge where its statement stands `n` bytes further on. -/
def CascadeEdge.shift (n : Nat) (e : CascadeEdge) : CascadeEdge := { e with offset := n + e.offset }

theorem CascadeGraph.arrows_map_shift (n : Nat) (g : CascadeGraph) :
    arrows (g.map (.shift n)) = g.arrows := by
  rw [arrows, List.map_map]
  rfl

include hw in
/-- The edges of a statement move as far as its first character does. -/
theorem cascadeEdgesOf_padding {start start' n : Nat} (hstart : start' + byteSize w = n + start) :
    cascadeEdgesOf ⟨start', w ++ t⟩ = (cascadeEdgesOf ⟨start, t⟩).map (.shift n) := by
  have hcascades : ((fun r : Reference => r.cascades) ∘ Reference.shift (byteSize w)) =
      fun r => r.cascades := rfl
  unfold cascadeEdgesOf
  simp only [map_name_find?_padding hw, alteredTable?_padding hw, references_padding hw,
    List.filter_map, hcascades]
  cases (TableHeader.find? t 0).map (·.name) <|> alteredTable? t with
  | none => rfl
  | some table =>
    simp only [List.map_map]
    refine List.map_congr_left fun r _ => ?_
    have hoffset : start' + (byteSize w + r.offset) = n + (start + r.offset) := by omega
    simp only [Function.comp_apply, Reference.shift, CascadeEdge.shift, hoffset]

end SchemaReview
