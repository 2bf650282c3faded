import Mathlib.Data.List.Sort
import SchemaReview.Proofs.Ddl.ForeignKey
import SchemaReview.Proofs.Pattern.Extent
import SchemaReview.Proofs.Pattern.Numbering

/-!
# Proofs.Ddl.Reference — every foreign key is a reference

Main statement (`foreignKeys_sublist_references`): what the table-level foreign keys of a text refer to is found
again, in the same order, among the `REFERENCES` clauses of the text.

* `exists_reference_of_foreignKey`: a foreign key ends with a clause that the pattern for references reads alike.
* `stop_le_of_reference`: a reference ends at the first closing parenthesis at the latest.  There is one in front of
  the clause of a foreign key, so no reference that begins before runs into the clause.
* `exists_mem_reference`: so the search for references does not pass over the clause, and as foreign keys do not
  overlap, their clauses are found in their order (`exists_sublist_references`).
-/

namespace SchemaReview

open Text

/-- The first match is the `REFERENCES` clause that the second one ends with. -/
structure Match.IsClauseOf (r m : Match) : Prop where
  table : r.groupText 1 = m.groupText 2
  columns : r.groupText 2 = m.groupText 3
  stop : r.stop = m.stop
  start_le : m.start.offset ≤ r.start.offset
  start_lt : r.start.offset < m.stop.offset

namespace Pattern

/-! ## The clause of a foreign key -/

theorem renumber_referenceTo : (referenceTo 1 2).renumber Nat.succ = referenceTo 2 3 := rfl

/-- A clause is read alike under the numbers of references. -/
theorem exists_run_reference {c d : Cursor} {g : Captures} {m : Match}
    (hg : g.lookup 2 = none ∧ g.lookup 3 = none)
    (h : (referenceTo 2 3).run d g (fun e i => some (Match.mk c e i)) = some m) :
    ∃ r : Match, (referenceTo 1 2).run d [] (fun e i => some (Match.mk d e i)) = some r ∧ r.stop = m.stop ∧
      r.groupText 1 = m.groupText 2 ∧ r.groupText 2 = m.groupText 3 := by
  let F : Match → Match := fun r => ⟨c, r.stop, r.captures.renumber Nat.succ g⟩
  have heq : ((referenceTo 1 2).renumber Nat.succ).run d (Captures.renumber Nat.succ [] g)
      (fun e i => some (Match.mk c e i)) = ((referenceTo 1 2).run d [] fun e i => some (Match.mk d e i)).map F :=
    run_renumber (referenceTo 1 2) d [] fun _ _ => rfl
  have hg' : Captures.renumber Nat.succ [] g = g := rfl
  rw [renumber_referenceTo, hg', h] at heq
  obtain ⟨r, hr, rfl⟩ := Option.map_eq_some_iff.mp heq.symm
  have hlookup := Captures.lookup_renumber Nat.succ_injective r.captures g
  refine ⟨r, hr, rfl, ?_, ?_⟩
  · rw [Match.groupText, Match.groupText, Match.group?, Match.group?, hlookup 1, hg.1, Option.or_none]
  · rw [Match.groupText, Match.groupText, Match.group?, Match.group?, hlookup 2, hg.2, Option.or_none]

/-- A foreign key ends with a reference, behind the closing parenthesis of its columns. -/
theorem exists_reference_of_foreignKey {m : Match} (h : foreignKey.matchAt m.start = some m) :
    ∃ r w bl, m.start.Passes (w ++ ')' :: bl) r.start ∧ (∀ x ∈ bl, isBlank x = true) ∧
      reference.matchAt r.start = some r ∧ r.IsClauseOf m := by
  obtain ⟨d, g, w, bl, hw, hbl, hg, hrun⟩ := exists_run_of_foreignKey h
  have hrefers : m.RefersAt 2 3 d := ⟨g, hrun⟩
  obtain ⟨r, hr, hstop, htable, hcolumns⟩ := exists_run_reference hg hrun
  have hedge : d.atWordEdge = true := by
    obtain ⟨x, hx, hword⟩ := exists_getLast?_of_blanks hbl w
    obtain ⟨_, hbegins, -⟩ := hrefers.spelled (by decide)
    obtain ⟨y, hy, hyword⟩ := hbegins.exists_isWord_head
    rw [Cursor.atWordEdge_eq_any, hw.before, Option.mem_def.mp hx, Option.mem_def.mp hy]
    simp [hword, hyword]
  have hmatch : reference.matchAt d = some r := by
    have heq : reference.matchAt d =
        if d.atWordEdge then (referenceTo 1 2).run d [] fun e i => some ⟨d, e, i⟩ else none := rfl
    rw [heq, if_pos hedge, hr]
  obtain rfl : r.start = d := (matchAt_eq_some hmatch).1
  refine ⟨r, w, bl, hw, hbl, hmatch, htable, hcolumns, hstop, ?_, hrefers.offset_lt (by decide)⟩
  rw [hw.offset]
  exact Nat.le_add_right _ _

/-! ## How far a reference goes -/

/-- A reference passes no closing parenthesis but the one it ends with. -/
theorem exists_passes_of_reference {c : Cursor} {r : Match} (h : reference.matchAt c = some r) :
    ∃ w, c.Passes w r.stop ∧ ')' ∉ w.dropLast := by
  obtain ⟨c', g', hedge, htakes⟩ := takes_append.mp (takes_of_matchAt h).2
  cases hedge
  rw [referenceTo, takes_append] at htakes
  obtain ⟨e, i, hname, hlist⟩ := htakes
  obtain ⟨v, hv, hstop⟩ := hname.exists_passes
  have hv' : ')' ∉ v := hstop ')' (by decide)
  cases hlist with
  | altLeft hlist =>
    obtain ⟨w, hw, hnot⟩ := exists_of_takes_parenthesized hlist
    refine ⟨v ++ (w ++ [')']), hv.trans hw, ?_⟩
    rw [← List.append_assoc, List.dropLast_concat, List.mem_append, not_or]
    exact ⟨hv', hnot⟩
  | altRight hempty =>
    cases hempty
    exact ⟨v, hv, fun hmem => hv' (List.dropLast_subset v hmem)⟩

/-- A reference that begins before a position ends before it when white space and a closing parenthesis stand there. -/
theorem stop_le_of_reference {t : Text} {c d : Cursor} {u v bl : Text} {r : Match} (hc : Cursor.In t c)
    (hu : c.Passes u d) (hne : u ≠ []) (h : reference.matchAt c = some r) (ht : t = v ++ ')' :: bl ++ d.rest)
    (hbl : ∀ x ∈ bl, isBlank x = true) : r.stop.offset ≤ d.offset := by
  -- the reference begins with a word, so it begins before the closing parenthesis
  have hbefore : ')' ∈ u := by
    obtain ⟨w, hw⟩ := hc
    have hsplit : w ++ u = v ++ ')' :: bl := by
      have htext : t = w ++ c.rest := hw.rest
      rw [ht, hu.rest, ← List.append_assoc] at htext
      exact (List.append_cancel_right htext).symm
    rcases List.append_eq_append_iff.mp hsplit with ⟨a, -, rfl⟩ | ⟨a, -, htail⟩
    · simp
    · cases a with
      | nil =>
        rw [List.nil_append] at htail
        simp [← htail]
      | cons y ys =>
        rw [List.cons_append, List.cons.injEq] at htail
        obtain ⟨x, xs, rfl⟩ := List.exists_cons_of_ne_nil hne
        obtain ⟨_, hbegins, -⟩ := (refersAt_of_reference h).2.spelled (by decide)
        obtain ⟨z, hz, hword⟩ := hbegins.exists_isWord_head
        rw [hu.rest, List.cons_append, List.head?_cons, Option.mem_some_iff] at hz
        subst hz
        rw [isWord_of_isBlank (hbl x (by simp [htail.2]))] at hword
        cases hword
  obtain ⟨w, hw, hnot⟩ := exists_passes_of_reference h
  rw [hw.offset, hu.offset]
  rcases List.append_eq_append_iff.mp (hu.rest.symm.trans hw.rest) with ⟨a, rfl, -⟩ | ⟨a, rfl, -⟩
  · cases a with
    | nil => simp
    | cons y ys =>
      -- it would pass the closing parenthesis
      rw [List.dropLast_append_of_ne_nil (List.cons_ne_nil y ys), List.mem_append, not_or] at hnot
      exact absurd hbefore hnot.1
  · rw [byteSize_append]
    omega

/-- The clause of every foreign key is found as a reference. -/
theorem exists_mem_reference {t : Text} {m : Match} (h : m ∈ foreignKey.findAll t) :
    ∃ r ∈ reference.findAll t, r.IsClauseOf m := by
  obtain ⟨hin, hmatch⟩ := matchAt_of_mem_findAll h
  obtain ⟨r, w, bl, hw, hbl, hr, hclause⟩ := exists_reference_of_foreignKey hmatch
  obtain ⟨v, hv⟩ := hin.passes hw
  obtain ⟨v', hv'⟩ := hin
  have ht : t = v' ++ w ++ ')' :: bl ++ r.start.rest := by
    have hstart : t = v' ++ m.start.rest := hv'.rest
    rw [hstart, hw.rest]
    simp
  refine ⟨r, mem_findAll_of_apart ⟨v, hv⟩ hr fun hc hu hne hr' => ?_, hclause⟩
  exact stop_le_of_reference hc hu hne hr' ht hbl

/-! ## The lists -/

/-- Matches that are found, in the order in which they stand, are a sublist of all that are found. -/
theorem sublist_findAll {p : Pattern} (hp : 0 < p.least) {t : Text} {ms : List Match}
    (hsubset : ms ⊆ p.findAll t) (hms : ms.Pairwise fun a b => a.start.offset < b.start.offset) :
    ms.Sublist (p.findAll t) := by
  have hnodup : ms.Nodup := hms.imp fun hlt heq => by
    rw [heq] at hlt
    exact Nat.lt_irrefl _ hlt
  have hantisymm : Std.Antisymm fun a b : Match => a.start.offset < b.start.offset :=
    ⟨fun a b hab hba => absurd hba (Nat.lt_asymm hab)⟩
  exact List.sublist_of_subperm_of_pairwise (List.subperm_of_subset hnodup hsubset) hms
    (pairwise_start_findAll hp t)

/-- The clauses of the foreign keys are among the references, in the same order. -/
theorem exists_sublist_references (t : Text) :
    ∃ rs : List Match, rs.Sublist (reference.findAll t) ∧
      List.Forall₂ Match.IsClauseOf rs (foreignKey.findAll t) := by
  have : Nonempty Match := ⟨⟨.atStart [], .atStart [], []⟩⟩
  choose! clause hmem hclause using fun m (hm : m ∈ foreignKey.findAll t) => exists_mem_reference hm
  refine ⟨(foreignKey.findAll t).map clause, sublist_findAll (by decide) ?_ ?_, ?_⟩
  · intro r hr
    obtain ⟨m, hm, rfl⟩ := List.mem_map.mp hr
    exact hmem m hm
  · -- a clause begins in its foreign key, and foreign keys do not overlap
    rw [List.pairwise_map]
    refine (pairwise_findAll foreignKey t).imp_of_mem fun {a b} ha hb hab => ?_
    have hlt := (hclause a ha).start_lt
    have hle := (hclause b hb).start_le
    omega
  · rw [List.forall₂_map_left_iff, List.forall₂_same]
    exact hclause

end Pattern

/-- **Every foreign key is a reference.**  What the table-level foreign keys say about the tables they refer to is a
sublist of what the `REFERENCES` clauses say, for every text. -/
theorem foreignKeys_sublist_references (t : Text) :
    ((foreignKeys t).map fun fk => (fk.table, fk.targets, fk.cascades)).Sublist
      ((references t).map fun r => (r.table, r.columns, r.cascades)) := by
  obtain ⟨rs, hsublist, hclauses⟩ := Pattern.exists_sublist_references t
  have hsame : (rs.map Reference.ofMatch).map (fun r => (r.table, r.columns, r.cascades)) =
      (foreignKeys t).map fun fk => (fk.table, fk.targets, fk.cascades) := by
    rw [foreignKeys, List.map_map, List.map_map, ← List.forall₂_eq_eq_eq, List.forall₂_map_left_iff,
      List.forall₂_map_right_iff]
    refine hclauses.imp fun r m hclause => ?_
    simp [ForeignKey.ofMatch, Reference.ofMatch, Match.groupString, hclause.table, hclause.columns, hclause.stop]
  rw [← hsame]
  exact (hsublist.map _).map _

/-- A list that is closed only by the parenthesis in front of the clause of a foreign key. -/
example :
    let t := "REFERENCES a (x, FOREIGN KEY (y) REFERENCES b (z) ON DELETE CASCADE".toList
    ((foreignKeys t).map fun fk => (fk.table, fk.targets, fk.cascades)) = [("b", ["Z"], true)] ∧
      ((references t).map fun r => (r.table, r.columns, r.cascades)) =
        [("a", ["X", "FOREIGN"], false), ("b", ["Z"], true)] := by
  decide +kernel

end SchemaReview
