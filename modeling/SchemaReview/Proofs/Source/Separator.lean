import SchemaReview.Proofs.Source.Segment
import SchemaReview.Proofs.Text.Slice

/-!
# Proofs.Source.Separator — the statements between the semicolons outside quoted regions

* `Segment.pieces`: what stands between the separators of a reading.
* `Segments.statements_eq`: the statements are the pieces that are not blank.
* `Segment.pieces_cover`, `Segment.not_covers_separator`: the pieces leave out the separators and nothing else.
* `statements_between_separators`: all of it for the statements of a script.
-/

namespace SchemaReview

open Text

/-! ## The pieces between separators -/

/-- A list of stretches has no separator, or it is cut at the first one. -/
theorem Segment.cut_induction {motive : List Segment → Prop}
    (last : ∀ ls, Segment.separator ∉ ls → motive ls)
    (cut : ∀ front rest, Segment.separator ∉ front → motive rest →
      motive (front ++ Segment.separator :: rest)) (ls : List Segment) : motive ls := by
  induction hlen : ls.length using Nat.strongRecOn generalizing ls with
  | _ n ih =>
    subst hlen
    by_cases hmem : Segment.separator ∈ ls
    · obtain ⟨front, rest, rfl, hfront⟩ := List.eq_append_cons_of_mem hmem
      exact cut front rest hfront (ih rest.length (by simp; omega) rest rfl)
    · exact last ls hmem

/-- Pieces that stand one after the other from the offset on, each followed by a separator. -/
def piecesFrom (offset : Nat) : List (List Segment) → List Statement
  | [] => []
  | p :: ps => ⟨offset, segmentText p⟩ :: piecesFrom (offset + byteSize (segmentText p) + 1) ps

/-- The pieces between the separators. -/
def Segment.pieces (offset : Nat) (ls : List Segment) : List Statement :=
  piecesFrom offset (ls.splitOn Segment.separator)

namespace Segment

variable {ls front rest : List Segment}

theorem pieces_last (hls : separator ∉ ls) (offset : Nat) : pieces offset ls = [⟨offset, segmentText ls⟩] := by
  rw [pieces, List.splitOn_eq_singleton hls]
  rfl

theorem pieces_cut (hfront : separator ∉ front) (offset : Nat) (rest : List Segment) :
    pieces offset (front ++ separator :: rest) =
      ⟨offset, segmentText front⟩ :: pieces (offset + byteSize (segmentText front) + 1) rest := by
  rw [pieces, List.splitOn_append_cons_self_of_not_mem hfront]
  rfl

theorem byteSize_text_separator (rest : List Segment) :
    byteSize (segmentText (separator :: rest)) = 1 + byteSize (segmentText rest) := by
  rw [segmentText_cons, byteSize_append]
  rfl

/-- A piece is made of stretches none of which is a separator, and stands behind those in front of it. -/
theorem exists_of_mem_pieces {offset : Nat} {st : Statement} (h : st ∈ pieces offset ls) :
    ∃ lead piece rest, ls = lead ++ (piece ++ rest) ∧ separator ∉ piece ∧
      st = ⟨offset + byteSize (segmentText lead), segmentText piece⟩ := by
  induction ls using cut_induction generalizing offset with
  | last ls hls =>
    rw [pieces_last hls, List.mem_singleton] at h
    exact ⟨[], ls, [], by simp, hls, h⟩
  | cut front rest hfront ih =>
    rw [pieces_cut hfront, List.mem_cons] at h
    rcases h with rfl | h
    · exact ⟨[], front, separator :: rest, rfl, hfront, rfl⟩
    · obtain ⟨lead, piece, behind, rfl, hpiece, rfl⟩ := ih h
      refine ⟨front ++ separator :: lead, piece, behind, by simp, hpiece, ?_⟩
      rw [segmentText_append, byteSize_append, byteSize_text_separator, Statement.mk.injEq]
      exact ⟨by omega, rfl⟩

/-- A byte lies in a piece, or it is a separator. -/
theorem pieces_cover {offset o : Nat} (hle : offset ≤ o) (hlt : o < offset + byteSize (segmentText ls)) :
    (∃ st ∈ pieces offset ls, st.Covers o) ∨
      ∃ lead rest, ls = lead ++ separator :: rest ∧ o = offset + byteSize (segmentText lead) := by
  induction ls using cut_induction generalizing offset with
  | last ls hls =>
    rw [pieces_last hls]
    exact Or.inl ⟨_, List.mem_singleton_self _, hle, hlt⟩
  | cut front rest hfront ih =>
    rw [segmentText_append, byteSize_append, byteSize_text_separator] at hlt
    rw [pieces_cut hfront]
    rcases Nat.lt_trichotomy o (offset + byteSize (segmentText front)) with hinside | hhere | hbehind
    · exact Or.inl ⟨_, List.mem_cons_self, hle, hinside⟩
    · exact Or.inr ⟨front, rest, rfl, hhere⟩
    · have hstart : offset + byteSize (segmentText front) + 1 ≤ o := hbehind
      rcases ih hstart (by omega) with ⟨st, hst, hcovers⟩ | ⟨lead, behind, rfl, ho⟩
      · exact Or.inl ⟨st, List.mem_cons_of_mem _ hst, hcovers⟩
      · refine Or.inr ⟨front ++ separator :: lead, behind, by simp, ?_⟩
        rw [segmentText_append, byteSize_append, byteSize_text_separator]
        omega

/-- No piece holds a separator. -/
theorem not_covers_separator {offset : Nat} {st : Statement}
    (h : st ∈ pieces offset (front ++ separator :: rest)) :
    ¬ st.Covers (offset + byteSize (segmentText front)) := by
  obtain ⟨lead, piece, behind, hls, hpiece, rfl⟩ := exists_of_mem_pieces h
  rintro ⟨hle, hlt⟩
  dsimp only at hle hlt
  rcases List.append_eq_append_iff.mp hls with ⟨between, rfl, hrest⟩ | ⟨between, rfl, hrest⟩
  · -- the piece would begin behind the separator
    rcases between with _ | ⟨s, between⟩
    · rcases piece with _ | ⟨s, piece⟩
      · simp [segmentText] at hlt
      · rw [List.nil_append, List.cons_append] at hrest
        rw [(List.cons.inj hrest).1] at hpiece
        exact hpiece List.mem_cons_self
    · rw [List.cons_append] at hrest
      rw [← (List.cons.inj hrest).1, segmentText_append, byteSize_append, byteSize_text_separator] at hle
      omega
  · rcases List.append_eq_append_iff.mp hrest with ⟨more, rfl, -⟩ | ⟨more, rfl, hmore⟩
    · rw [segmentText_append, segmentText_append, byteSize_append, byteSize_append] at hlt
      omega
    · rcases more with _ | ⟨s, more⟩
      · rw [List.append_nil, segmentText_append, byteSize_append] at hlt
        omega
      · rw [List.cons_append] at hmore
        rw [← (List.cons.inj hmore).1] at hpiece
        exact hpiece (List.mem_append_right _ List.mem_cons_self)

/-- The pieces of a text that stands further on. -/
theorem pieces_add (n offset : Nat) (ls : List Segment) :
    pieces (n + offset) ls = (pieces offset ls).map fun st => ⟨n + st.offset, st.text⟩ := by
  induction ls using cut_induction generalizing offset with
  | last ls hls =>
    rw [pieces_last hls, pieces_last hls]
    rfl
  | cut front rest hfront ih =>
    rw [pieces_cut hfront, pieces_cut hfront, Nat.add_assoc, Nat.add_assoc, ih, List.map_cons, Nat.add_assoc]

end Segment

/-! ## The statements are the pieces that are not blank -/

/-- The statement has nothing but white space. -/
def Statement.isBlank (st : Statement) : Bool := isBlankText st.text

theorem Statement.ofPiece_eq_filter (start : Nat) (piece : Text) :
    ofPiece start piece = [⟨start, piece⟩].filter fun st => !st.isBlank := by
  rw [ofPiece, List.filter_singleton, isBlank]
  cases isBlankText piece <;> rfl

/-- The characters of a region are passed one by one. -/
theorem statementsFrom_skip (start offset n : Nat) (piece t : Text) :
    statementsFrom start offset n piece t = statementsFrom start (offset + byteSize (t.take n)) 0
      ((t.take n).reverse ++ piece) (t.drop n) := by
  induction n generalizing offset piece t with
  | zero => rfl
  | succ n ih =>
    cases t with
    | nil => rfl
    | cons c cs =>
      rw [statementsFrom, if_neg (by omega), Nat.add_sub_cancel, ih, List.take_succ_cons, List.drop_succ_cons,
        byteSize_cons, Nat.add_assoc, List.reverse_cons, List.append_assoc, List.singleton_append]

/-- One stretch that is no separator joins the piece under way. -/
theorem statementsFrom_headSegment {c : Char} {cs : Text} (h : headSegment c cs ≠ Segment.separator)
    (start offset : Nat) (piece : Text) :
    statementsFrom start offset 0 piece (c :: cs) =
      statementsFrom start (offset + byteSize (headSegment c cs).text) 0
        ((headSegment c cs).text.reverse ++ piece) (cs.drop (regionLength c cs)) := by
  have hc : c ≠ ';' := by
    rintro rfl
    exact h rfl
  rw [statementsFrom, if_pos rfl, if_neg hc, statementsFrom_skip, text_headSegment, byteSize_cons, Nat.add_assoc,
    List.reverse_cons, List.append_assoc, List.singleton_append]

/-- Stretches without a separator join the piece under way. -/
theorem statementsFrom_segments {t : Text} {front rest : List Segment} (h : Segments t (front ++ rest))
    (hfront : Segment.separator ∉ front) (start offset : Nat) (piece : Text) :
    statementsFrom start offset 0 piece t = statementsFrom start (offset + byteSize (segmentText front)) 0
      ((segmentText front).reverse ++ piece) (segmentText rest) := by
  induction front generalizing t offset piece with
  | nil =>
    obtain rfl : segmentText rest = t := h.segmentText_eq
    rfl
  | cons s front ih =>
    obtain ⟨hs, hrest⟩ := not_or.mp (mt List.mem_cons.mpr hfront)
    rcases t with _ | ⟨c, cs⟩
    · exact absurd h.eq_nil (List.cons_ne_nil _ _)
    obtain ⟨ls, hls, hbehind⟩ := h.exists_cons
    obtain ⟨rfl, rfl⟩ := List.cons.inj hls
    rw [statementsFrom_headSegment (Ne.symm hs), ih hbehind hrest, segmentText_cons, byteSize_append, Nat.add_assoc,
      List.reverse_append, List.append_assoc]

/-- The statements of a reading from the start of a piece on. -/
theorem Segments.statementsFrom_eq {t : Text} {ls : List Segment} (h : Segments t ls) (offset : Nat) :
    statementsFrom offset offset 0 [] t = (Segment.pieces offset ls).filter fun st => !st.isBlank := by
  induction ls using Segment.cut_induction generalizing t offset with
  | last ls hls =>
    rw [← List.append_nil ls] at h
    rw [statementsFrom_segments h hls, Segment.pieces_last hls, ← Statement.ofPiece_eq_filter, List.append_nil]
    show Statement.ofPiece offset (segmentText ls).reverse.reverse = _
    rw [List.reverse_reverse]
  | cut front rest hfront ih =>
    have hrest : Segments (segmentText rest) rest := by
      rw [List.append_cons] at h
      exact h.drop
    rw [statementsFrom_segments h hfront, Segment.pieces_cut hfront, List.append_nil, segmentText_cons]
    show statementsFrom _ _ 0 _ (';' :: segmentText rest) = _
    rw [statementsFrom, if_pos rfl, if_pos rfl, ih hrest, List.reverse_reverse, Statement.ofPiece_eq_filter,
      ← List.filter_append, List.singleton_append]

theorem Segments.statements_eq {t : Text} {ls : List Segment} (h : Segments t ls) :
    Text.statements t = (Segment.pieces 0 ls).filter fun st => !st.isBlank :=
  h.statementsFrom_eq 0

/-- A piece that is not blank is its own only statement. -/
theorem Segments.statements_piece {t : Text} {lead piece rest : List Segment}
    (h : Segments t (lead ++ (piece ++ rest))) (hpiece : Segment.separator ∉ piece)
    (hblank : isBlankText (segmentText piece) = false) :
    Text.statements (segmentText piece) = [⟨0, segmentText piece⟩] := by
  rw [h.drop.take.statements_eq, Segment.pieces_last hpiece, List.filter_singleton, Statement.isBlank, hblank]
  rfl

/-! ## All together -/

/-- The statements of a masked text that reads as these stretches. -/
structure SplitAtSeparators (t : Text) (ls : List Segment) (sts : List Statement) : Prop where
  /-- They are what stands between the separators, without the blank pieces. -/
  eq_pieces : sts = (Segment.pieces 0 ls).filter fun st => !st.isBlank
  notBlank : ∀ st ∈ sts, isBlankText st.text = false
  /-- They are slices of the text. -/
  slice_eq : ∀ st ∈ sts, st.offset + byteSize st.text ≤ byteSize t ∧
    slice t st.offset (st.offset + byteSize st.text) = st.text
  /-- Each one ends before the next one begins. -/
  apart : sts.Pairwise fun a b => a.offset + byteSize a.text < b.offset
  /-- A byte in none of them is a semicolon or lies in a blank piece. -/
  outside : ∀ o < byteSize t, (∀ st ∈ sts, ¬ st.Covers o) →
    (bytes t)[o]? = some 59 ∨ ∃ st ∈ Segment.pieces 0 ls, st.isBlank = true ∧ st.Covers o
  /-- A semicolon is left out if and only if it stands outside all regions. -/
  separator_iff : ∀ before after, t = before ++ ';' :: after →
    ((∀ st ∈ sts, ¬ st.Covers (byteSize before)) ↔
      ∃ lead rest, ls = lead ++ Segment.separator :: rest ∧ segmentText lead = before)
  /-- Each one alone is its own only statement. -/
  alone : ∀ st ∈ sts, Text.statements st.text = [⟨0, st.text⟩]

/-- A text with a semicolon is not blank. -/
theorem isBlankText_of_mem {t : Text} (h : ';' ∈ t) : isBlankText t = false := by
  rw [isBlankText, ← Bool.not_eq_true, List.all_eq_true]
  intro hall
  exact absurd (hall ';' h) (by decide)

theorem getElem?_bytes_semicolon (before after : Text) :
    (bytes (before ++ ';' :: after))[byteSize before]? = some 59 := by
  rw [bytes_append, ← length_bytes, List.getElem?_append_right le_rfl, Nat.sub_self]
  rfl

section

variable {t : Text} {ls : List Segment} {st : Statement}

theorem Segments.mem_statements (h : Segments t ls) :
    st ∈ Text.statements t ↔ st ∈ Segment.pieces 0 ls ∧ st.isBlank = false := by
  rw [h.statements_eq, List.mem_filter, Bool.not_eq_true']

theorem Segments.slice_of_mem_pieces (h : Segments t ls) (hst : st ∈ Segment.pieces 0 ls) :
    st.offset + byteSize st.text ≤ byteSize t ∧
      slice t st.offset (st.offset + byteSize st.text) = st.text := by
  obtain ⟨lead, piece, rest, rfl, -, rfl⟩ := Segment.exists_of_mem_pieces hst
  have ht : t = segmentText lead ++ segmentText piece ++ segmentText rest := by
    rw [← h.segmentText_eq, segmentText_append, segmentText_append, List.append_assoc]
  dsimp only
  rw [Nat.zero_add]
  refine ⟨?_, ?_⟩
  · rw [ht, byteSize_append, byteSize_append]
    omega
  · rw [ht]
    exact slice_append _ _ _

/-- A piece that covers a semicolon is not blank. -/
theorem Segments.isBlank_of_covers (h : Segments t ls) {before after : Text} (ht : t = before ++ ';' :: after)
    (hst : st ∈ Segment.pieces 0 ls) (hcovers : st.Covers (byteSize before)) : st.isBlank = false := by
  obtain ⟨front, piece, rest, rfl, -, rfl⟩ := Segment.exists_of_mem_pieces hst
  have hcut : segmentText front ++ (segmentText piece ++ segmentText rest) = before ++ ';' :: after := by
    rw [← segmentText_append, ← segmentText_append, h.segmentText_eq, ht]
  obtain ⟨hle, hend⟩ := hcovers
  dsimp only at hle hend
  have hmem : ';' ∈ segmentText piece := mem_of_cut hcut (by omega) (by omega)
  exact isBlankText_of_mem hmem

/-- A semicolon that no statement covers is a separator. -/
theorem Segments.exists_separator (h : Segments t ls) {before after : Text} (ht : t = before ++ ';' :: after)
    (hnone : ∀ st ∈ Text.statements t, ¬ st.Covers (byteSize before)) :
    ∃ lead rest, ls = lead ++ Segment.separator :: rest ∧ segmentText lead = before := by
  have hlt : byteSize before < 0 + byteSize (segmentText ls) := by
    rw [h.segmentText_eq, ht, byteSize_append, byteSize_cons]
    have := Char.utf8Size_pos ';'
    omega
  rcases Segment.pieces_cover (Nat.zero_le _) hlt with ⟨st, hst, hcovers⟩ | ⟨lead, rest, rfl, hsize⟩
  · have hblank := h.isBlank_of_covers ht hst hcovers
    exact absurd hcovers (hnone st (h.mem_statements.mpr ⟨hst, hblank⟩))
  · refine ⟨lead, rest, rfl, ?_⟩
    have hcut : segmentText lead ++ segmentText (Segment.separator :: rest) = before ++ ';' :: after := by
      rw [← segmentText_append, h.segmentText_eq, ht]
    exact (append_inj_of_byteSize hcut (by omega)).1

end

theorem Segments.splitAtSeparators {t : Text} {ls : List Segment} (h : Segments t ls) :
    SplitAtSeparators t ls (Text.statements t) := by
  constructor
  case eq_pieces => exact h.statements_eq
  case notBlank => exact fun st hst => (h.mem_statements.mp hst).2
  case apart => exact pairwise_statementsFrom 0 rfl
  case slice_eq => exact fun st hst => h.slice_of_mem_pieces (h.mem_statements.mp hst).1
  case outside =>
    intro o ho hnone
    have hlt : o < 0 + byteSize (segmentText ls) := by
      rw [h.segmentText_eq]
      omega
    rcases Segment.pieces_cover (Nat.zero_le o) hlt with ⟨st, hst, hcovers⟩ | ⟨lead, rest, rfl, rfl⟩
    · -- a piece that is not blank would be a statement
      refine Or.inr ⟨st, hst, ?_, hcovers⟩
      by_contra hblank
      exact hnone st (h.mem_statements.mpr ⟨hst, by simpa using hblank⟩) hcovers
    · refine Or.inl ?_
      rw [← h.segmentText_eq, segmentText_append, Nat.zero_add]
      exact getElem?_bytes_semicolon _ _
  case separator_iff =>
    intro before after ht
    constructor
    · exact h.exists_separator ht
    · rintro ⟨lead, rest, rfl, rfl⟩ st hst hcovers
      refine Segment.not_covers_separator (h.mem_statements.mp hst).1 ?_
      rwa [Nat.zero_add]
  case alone =>
    intro st hst
    obtain ⟨hst, hblank⟩ := h.mem_statements.mp hst
    obtain ⟨lead, piece, rest, rfl, hpiece, rfl⟩ := Segment.exists_of_mem_pieces hst
    exact h.statements_piece hpiece hblank

/-- **Statements end at the semicolons outside quoted regions.**  The masked script is read in one way into
quoted regions and characters outside them, and the statements are what stands between the semicolons outside,
blank pieces left out. -/
theorem statements_between_separators (sql : String) :
    ∃ ls, Segments (Source.ofString sql).text ls ∧
      (∀ ls', Segments (Source.ofString sql).text ls' → ls' = ls) ∧
      SplitAtSeparators (Source.ofString sql).text ls (Source.ofString sql).statements := by
  obtain ⟨ls, hls⟩ := exists_segments (Source.ofString sql).text
  exact ⟨ls, hls, fun ls' hls' => hls'.unique hls, hls.splitAtSeparators⟩

end SchemaReview
