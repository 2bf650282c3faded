import SchemaReview.Proofs.Source.Span

/-!
# Proofs.Source.Column — columns of the masked text and of the script

A span gets its column from the masked text, where a character of a comment has one space for each of its bytes.
So the column is too high by the further bytes of the comment characters that stand in front of the position on
its line, and right when there are none (`spanAt_column`).

* `markedScript ls`: the characters of a script, each with whether it belongs to a comment.
* `length_flatMap_maskedChar`: how many characters there are more in the masked text.
* `exists_standsBehind`: the span of a position, from a cut of the marked script at the line and at the position.
-/

namespace SchemaReview

open Text

/-! ## Characters of comments -/

/-- The characters of a piece, each with whether it belongs to a comment. -/
def Lexeme.marked (l : Lexeme) : List (Char × Bool) := l.text.map fun c => (c, l.isComment)

/-- The characters of a script, each with whether it belongs to a comment. -/
def markedScript (ls : List Lexeme) : List (Char × Bool) := ls.flatMap Lexeme.marked

/-- The characters without the marks. -/
def unmark (m : List (Char × Bool)) : Text := m.map Prod.fst

/-- A character as it stands in the masked text. -/
def maskedChar (x : Char × Bool) : Text := if x.2 then blankOut x.1 else [x.1]

/-- The bytes of the comment characters beyond the first byte of each. -/
def commentExcess : List (Char × Bool) → Nat
  | [] => 0
  | x :: m => (if x.2 then x.1.utf8Size - 1 else 0) + commentExcess m

theorem unmark_markedScript (ls : List Lexeme) : unmark (markedScript ls) = ls.flatMap Lexeme.text := by
  rw [unmark, markedScript, List.map_flatMap]
  congr 1
  funext l
  rw [Lexeme.marked, List.map_map]
  exact List.map_id _

theorem masked_eq_flatMap (l : Lexeme) : l.masked = l.marked.flatMap maskedChar := by
  cases l with
  | code c => rfl
  | quoted t => simp [Lexeme.masked, Lexeme.marked, Lexeme.text, Lexeme.isComment, maskedChar, List.flatMap_map]
  | comment t => simp [Lexeme.masked, Lexeme.marked, Lexeme.text, Lexeme.isComment, maskedChar, List.flatMap_map]

/-- The masked text, character by character. -/
theorem Lexes.maskComments_eq {t : Text} {ls : List Lexeme} (h : Lexes t ls) :
    SchemaReview.maskComments t = (markedScript ls).flatMap maskedChar := by
  rw [h.maskComments, markedScript, List.flatMap_assoc]
  congr 1
  funext l
  exact masked_eq_flatMap l

theorem byteSize_maskedChar (x : Char × Bool) : byteSize (maskedChar x) = x.1.utf8Size := by
  unfold maskedChar
  split
  · rw [← length_bytes, bytes_blankOut, List.length_map, String.length_utf8EncodeChar]
  · rw [byteSize_cons, byteSize_nil, Nat.add_zero]

theorem byteSize_flatMap_maskedChar (m : List (Char × Bool)) :
    byteSize (m.flatMap maskedChar) = byteSize (unmark m) := by
  induction m with
  | nil => rfl
  | cons x m ih =>
    rw [List.flatMap_cons, byteSize_append, byteSize_maskedChar, ih]
    rfl

theorem length_blankOut (c : Char) : (blankOut c).length = c.utf8Size := by
  unfold blankOut
  split
  · rename_i hbreak
    rcases isLineBreak_iff.mp hbreak with rfl | rfl <;> rfl
  · rw [List.length_replicate]

theorem length_maskedChar (x : Char × Bool) :
    (maskedChar x).length = 1 + if x.2 then x.1.utf8Size - 1 else 0 := by
  unfold maskedChar
  split
  · have hpos := x.1.utf8Size_pos
    rw [length_blankOut]
    omega
  · rfl

/-- Masking adds a character for each further byte of a comment character. -/
theorem length_flatMap_maskedChar (m : List (Char × Bool)) :
    (m.flatMap maskedChar).length = m.length + commentExcess m := by
  induction m with
  | nil => rfl
  | cons x m ih =>
    rw [List.flatMap_cons, List.length_append, length_maskedChar, ih, commentExcess, List.length_cons]
    omega

/-- Nothing is added when every comment character has one byte. -/
theorem commentExcess_eq_zero_iff (m : List (Char × Bool)) :
    commentExcess m = 0 ↔ ∀ x ∈ m, x.2 = true → x.1.utf8Size = 1 := by
  induction m with
  | nil => exact iff_of_true rfl (by simp)
  | cons x m ih =>
    have hpos := x.1.utf8Size_pos
    have hhead : (if x.2 then x.1.utf8Size - 1 else 0) = 0 ↔ (x.2 = true → x.1.utf8Size = 1) := by
      split
      · rename_i hcomment
        rw [forall_prop_of_true hcomment]
        omega
      · rename_i hcode
        exact iff_of_true rfl fun hcomment => absurd hcomment hcode
    rw [commentExcess, Nat.add_eq_zero_iff, hhead, List.forall_mem_cons]
    exact and_congr_right fun _ => ih

/-! ## The column of a position -/

/-- The span stands in the script on the line `l`, behind the characters `mid` of this line. -/
structure StandsBehind (t : Text) (ls : List Lexeme) (span : Span) (l : LineRange) (mid : List (Char × Bool)) :
    Prop where
  holdsByte : HoldsByte t span.offset span.line l
  slice_eq : slice t l.start span.offset = unmark mid
  /-- The characters stand between the start of the line and the span. -/
  cut : ∃ front rest, markedScript ls = front ++ (mid ++ rest) ∧ byteSize (unmark front) = l.start ∧
    byteSize (unmark front) + byteSize (unmark mid) = span.offset

/-- A position of the script is on the line that holds it. -/
theorem exists_holdsByte {t before after : Text} (ht : t = before ++ after) (hne : t ≠ []) :
    ∃ l front mid, HoldsByte t (byteSize before) ((Source.ofText t).lineOf (byteSize before)) l ∧
      before = front ++ mid ∧ byteSize front = l.start := by
  -- the lines are those of the masked text
  have hline : (Source.ofText t).lineOf (byteSize before) = (Source.ofMasked t).lineOf (byteSize before) :=
    congrArg (lineNumber · _) (lineRanges_maskComments t)
  obtain ⟨l, front, mid, hl, hbefore, hfront⟩ := Source.exists_line (s := Source.ofMasked t) ht hne
  rw [hline]
  refine ⟨l, front, mid, ⟨hl, ?_, fun l' hl' => ?_⟩, hbefore, hfront⟩
  · rw [hbefore, byteSize_append]
    omega
  · exact Source.lt_start_of_getElem?_lineOf (s := Source.ofMasked t) hne hl'

/-- The column counts the characters of the masked text in front of the position. -/
theorem exists_standsBehind {t before after : Text} {ls : List Lexeme} (hls : Lexes t ls) (ht : t = before ++ after)
    (hne : t ≠ []) (length : Nat) :
    ∃ l mid, StandsBehind t ls ((Source.ofText t).spanAt (byteSize before) length) l mid ∧
      ((Source.ofText t).spanAt (byteSize before) length).column = (mid.flatMap maskedChar).length + 1 := by
  obtain ⟨l, front, mid, hholds, rfl, hfront⟩ := exists_holdsByte ht hne
  -- the same cut of the marked script
  have hunmark : unmark (markedScript ls) = front ++ (mid ++ after) := by
    rw [unmark_markedScript, hls.flatMap_text, ht, List.append_assoc]
  obtain ⟨mfront, mrest, hmarked, hmfront, hmrest⟩ := List.map_eq_append_iff.mp hunmark
  obtain ⟨mmid, mafter, rfl, hmmid, -⟩ := List.map_eq_append_iff.mp hmrest
  change unmark mfront = front at hmfront
  change unmark mmid = mid at hmmid
  subst hmfront hmmid
  have hoffset : byteSize (unmark mfront ++ unmark mmid) = l.start + byteSize (unmark mmid) := by
    rw [byteSize_append, hfront]
  refine ⟨l, mmid, ⟨hholds, ?_, mfront, mafter, hmarked, hfront, (byteSize_append ..).symm⟩, ?_⟩
  · show slice t l.start (byteSize (unmark mfront ++ unmark mmid)) = _
    rw [hoffset, ht, ← hfront, slice_append]
  · have hmasked : maskComments t = mfront.flatMap maskedChar ++ mmid.flatMap maskedChar ++
        mafter.flatMap maskedChar := by
      rw [hls.maskComments_eq, hmarked, List.flatMap_append, List.flatMap_append, List.append_assoc]
    have hstart : lineStart (Source.ofText t).lines ((Source.ofText t).lineOf
        (byteSize (unmark mfront ++ unmark mmid))) = byteSize (mfront.flatMap maskedChar) := by
      have hlines : (Source.ofText t).lines = lineRanges t := lineRanges_maskComments t
      rw [lineStart, hlines, hholds.getElem?_eq, byteSize_flatMap_maskedChar, hfront]
    have hend : byteSize (unmark mfront ++ unmark mmid) =
        byteSize (mfront.flatMap maskedChar) + byteSize (mmid.flatMap maskedChar) := by
      rw [byteSize_flatMap_maskedChar, byteSize_flatMap_maskedChar, byteSize_append]
    show (Text.slice (maskComments t) _ _).length + 1 = _
    rw [hstart, hend, hmasked, slice_append]

/-- **The column is too high by the further bytes of the comment characters in front of the position.**  So it
counts the characters of the script when each comment character in front of the position on its line has one byte,
and not otherwise. -/
theorem spanAt_column (sql : String) {o : Nat} (ho : o < byteSize sql.toList)
    (hboundary : isBoundary sql.toList o = true) {ls : List Lexeme} (hls : Lexes sql.toList ls) (length : Nat) :
    ∃ l mid, StandsBehind sql.toList ls ((Source.ofString sql).spanAt o length) l mid ∧
      ((Source.ofString sql).spanAt o length).column =
        1 + (slice sql.toList l.start o).length + commentExcess mid ∧
      (((Source.ofString sql).spanAt o length).column = 1 + (slice sql.toList l.start o).length ↔
        ∀ x ∈ mid, x.2 = true → x.1.utf8Size = 1) := by
  obtain ⟨before, after, ht, rfl⟩ := (isBoundary_iff ho.le).mp hboundary
  have hne : sql.toList ≠ [] := by
    intro hnil
    rw [hnil] at ho
    exact absurd ho (Nat.not_lt_zero _)
  obtain ⟨l, mid, hstands, hcolumn⟩ := exists_standsBehind hls ht hne length
  have hcount : (slice sql.toList l.start (byteSize before)).length = mid.length := by
    have hslice := congrArg List.length hstands.slice_eq
    rwa [unmark, List.length_map] at hslice
  have hexcess : ((Source.ofString sql).spanAt (byteSize before) length).column =
      1 + (slice sql.toList l.start (byteSize before)).length + commentExcess mid := by
    rw [hcount, Source.ofString, hcolumn, length_flatMap_maskedChar]
    omega
  refine ⟨l, mid, hstands, hexcess, ?_⟩
  rw [← commentExcess_eq_zero_iff, hexcess]
  omega

/-- The comment of another line does not count. -/
theorem spanAt_column_second_line : ∃ ls l mid, Lexes "-- é\n/* c */ é x".toList ls ∧
    StandsBehind "-- é\n/* c */ é x".toList ls ((Source.ofString "-- é\n/* c */ é x").spanAt 17 1) l mid ∧
    ((Source.ofString "-- é\n/* c */ é x").spanAt 17 1).column =
      1 + (slice "-- é\n/* c */ é x".toList l.start 17).length + commentExcess mid ∧
    (((Source.ofString "-- é\n/* c */ é x").spanAt 17 1).column =
        1 + (slice "-- é\n/* c */ é x".toList l.start 17).length ↔
      ∀ x ∈ mid, x.2 = true → x.1.utf8Size = 1) := by
  obtain ⟨ls, hls⟩ := exists_lexes "-- é\n/* c */ é x".toList
  obtain ⟨l, mid, hstands⟩ := spanAt_column "-- é\n/* c */ é x" (o := 17) (by decide) (by decide) hls 1
  exact ⟨ls, l, mid, hls, hstands⟩

/-- The accented letter of the comment counts twice: the column is 10, and 8 characters stand in front. -/
theorem column_behind_accented_comment : isBoundary "/* é */ x".toList 9 = true ∧
    ∃ l, HoldsByte "/* é */ x".toList 9 ((Source.ofString "/* é */ x").spanAt 9 1).line l ∧
      ((Source.ofString "/* é */ x").spanAt 9 1).column ≠ 1 + (slice "/* é */ x".toList l.start 9).length := by
  refine ⟨by decide, ⟨0, 10⟩, ⟨by decide, by decide, ?_⟩, by decide⟩
  intro l' hl'
  have hnone : (lineRanges "/* é */ x".toList)[((Source.ofString "/* é */ x").spanAt 9 1).line]? = none := by decide
  rw [hnone] at hl'
  cases hl'

end SchemaReview
