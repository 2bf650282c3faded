import SchemaReview.Proofs.Ddl.Padding
import SchemaReview.Proofs.Source.Pieces

/-!
# Proofs.Ddl.Pieces — indexes and added foreign keys of a script, piece by piece

Apart from positions, the indexes, the added foreign keys and the cascading deletes of a script are
those of its pieces, one after the other.  An index clause ends in its statement because its column list
does.  Statements are read apart from each other, with a line break in front of all but the first, which
makes no difference (`addedContents_padding`, `cascadeEdgesOf_padding`).
-/

namespace SchemaReview

open Text

/-! ## Indexes -/

/-- An index without its position. -/
def Index.content (i : Index) : String × String × Bool × List String :=
  (i.name, i.table, i.unique, i.columns)

/-- What a match of the index pattern says, wherever it stands. -/
theorem Index.content_ofMatch_hit {c : Cursor} {m : Match}
    (h : Pattern.createIndex.matchAt c = some m) (s s' : Source) (front : Option Char) (start : Nat)
    (after : Text) :
    (Index.ofMatch s ((Placement.verbatim front start after).hit m)).content =
      (Index.ofMatch s' m).content := by
  simp only [Index.content, Index.ofMatch, Match.groupString, Placement.groupText_hit_verbatim h,
    Placement.group?_hit, Option.isSome_map]

theorem Pattern.transfers_createIndex {front : Option Char} (hfront : front.any isWord = false)
    (start : Nat) (after : Text) :
    createIndex.Transfers (.verbatim front start after) InStatement InStatement :=
  .seq (transfers_of_stopsAt (by decide) hfront) (transfers_parenthesized 4)

theorem findAllFrom_createIndex_append (p : StatementText) {front : Option Char}
    (hfront : front.any isWord = false) (start : Nat) (after : Text) :
    Pattern.createIndex.findAllFrom 0 front start (p.piece ++ after) =
      (Pattern.createIndex.findAll p.piece).map (Placement.verbatim front start after).hit ++
        Pattern.createIndex.findAllFrom 0 (some '\n') (start + byteSize p.piece) after := by
  have hlast : p.piece.getLast? = some '\n' := by simp [StatementText.piece]
  have hmatch : ∀ before offset x xs, x :: xs <:+ p.piece →
      Pattern.createIndex.matchAt ((Placement.verbatim front start after).cursor
          ⟨before, offset, x :: xs⟩) =
        (Pattern.createIndex.matchAt ⟨before, offset, x :: xs⟩).map
          (Placement.verbatim front start after).hit := by
    intro before offset x xs hsuffix
    rcases p.inStatement_piece.of_suffix hsuffix (by simp) with hrest | hrest
    · exact (Pattern.transfers_createIndex hfront start after).matchAt hrest
    · -- at the line break neither of them matches
      rw [List.cons.injEq] at hrest
      have hnone : ∀ c : Cursor, c.rest.head? = some '\n' → Pattern.createIndex.matchAt c = none := by
        intro c hc
        exact Pattern.matchAt_eq_none_of_refuses (x := '\n') (by decide) (by simp [hc])
      rw [hnone _ (by simp [Placement.cursor, hrest.1]), hnone _ (by simp [hrest.1])]
      rfl
  have hend : ∀ before offset, Pattern.createIndex.matchAt ⟨before, offset, []⟩ = none :=
    fun _ _ => Pattern.matchAt_eq_none_of_refuses (x := '\n') (by decide) (by simp)
  have hfind := Pattern.findAllFrom_text hmatch hend 0 none 0 (Nat.zero_le _)
  rw [hlast] at hfind
  simp only [Placement.text_verbatim, Placement.start_verbatim, Placement.after_verbatim,
    Placement.before_verbatim, Option.none_or, Option.some_or, Nat.add_zero, Nat.zero_add] at hfind
  rw [← Pattern.findAllFrom_of_le (le_refl start)]
  exact hfind

theorem content_indexes_scriptOf (ps : List StatementText) :
    (Source.ofText (scriptOf ps)).indexes.map Index.content =
      ps.flatMap fun p => (Source.ofText p.piece).indexes.map Index.content := by
  have hfrom : ∀ (s : Source) (front : Option Char), front.any isWord = false → ∀ start,
      (Pattern.createIndex.findAllFrom 0 front start (scriptOf ps)).map
          (fun m => (Index.ofMatch s m).content) =
        ps.flatMap fun p => (Source.ofText p.piece).indexes.map Index.content := by
    intro s
    induction ps with
    | nil =>
      intro front _ start
      have hnone : Pattern.createIndex.matchAt ⟨front, start, []⟩ = none :=
        Pattern.matchAt_eq_none_of_refuses (x := '\n') (by decide) (by simp)
      simp [scriptOf, Pattern.findAllFrom, hnone]
    | cons p ps ih =>
      intro front hfront start
      rw [scriptOf_cons, findAllFrom_createIndex_append p hfront, List.map_append,
        ih (some '\n') rfl, List.flatMap_cons]
      refine congrArg₂ (· ++ ·) ?_ rfl
      rw [Source.indexes, text_ofText_piece, List.map_map, List.map_map]
      refine List.map_congr_left fun m hm => ?_
      obtain ⟨c, hc⟩ := Pattern.exists_matchAt_of_mem_findAllFrom hm
      exact Index.content_ofMatch_hit hc s (Source.ofText p.piece) front start (scriptOf ps)
  have hscript := hfrom (Source.ofText (scriptOf ps)) none rfl 0
  rw [Source.indexes, text_ofText_scriptOf, List.map_map]
  exact hscript

/-! ## Added foreign keys and cascading deletes -/

theorem isPadding_lineFeed : IsPadding ['\n'] := by
  intro c hc
  rw [List.mem_singleton] at hc
  simp [hc]

theorem content_addedForeignKeys_scriptOf (ps : List StatementText) :
    (Source.ofText (scriptOf ps)).addedForeignKeys.map AddedForeignKey.content =
      ps.flatMap fun p => (Source.ofText p.piece).addedForeignKeys.map AddedForeignKey.content := by
  simp only [content_addedForeignKeys]
  exact flatMap_statements_scriptOf (addedContents_padding isPadding_lineFeed) ps

theorem arrows_cascadeGraph_scriptOf (ps : List StatementText) :
    (Source.ofText (scriptOf ps)).cascadeGraph.arrows =
      ps.flatMap fun p => (Source.ofText p.piece).cascadeGraph.arrows := by
  -- by the keys of its tables, an edge does not show where its statement stands
  have harrows : ∀ {w : Text}, IsPadding w → ∀ (start : Nat) (t : Text),
      CascadeGraph.arrows (cascadeEdgesOf ⟨start, w ++ t⟩) =
        CascadeGraph.arrows (cascadeEdgesOf ⟨0, t⟩) := by
    intro w hw start t
    rw [cascadeEdgesOf_padding hw t (Nat.add_zero (start + byteSize w)).symm,
      CascadeGraph.arrows_map_shift]
  have hsource : ∀ s : Source, s.cascadeGraph.arrows =
      s.statements.flatMap fun st => CascadeGraph.arrows (cascadeEdgesOf ⟨0, st.text⟩) := by
    intro s
    rw [Source.cascadeGraph, CascadeGraph.arrows, List.map_flatMap]
    refine List.flatMap_congr fun st _ => ?_
    exact harrows (w := []) (List.forall_mem_nil _) st.offset st.text
  simp only [hsource]
  exact flatMap_statements_scriptOf (f := fun t => CascadeGraph.arrows (cascadeEdgesOf ⟨0, t⟩))
    (harrows isPadding_lineFeed 0) ps

end SchemaReview
