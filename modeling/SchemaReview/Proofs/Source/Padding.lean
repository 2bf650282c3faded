import SchemaReview.Proofs.Pattern.Verbatim
import SchemaReview.Proofs.Source.Append
import SchemaReview.Source.Statement

/-!
# Proofs.Source.Padding — a script behind empty lines

Spaces, tabs and line feeds hide nothing and end no statement.

* `IsPadding.maskComments_append`: what stands behind them is masked as if it stood alone.
* `shiftOf_padding`: they add as many lines as there are line feeds.
* `statements_padding`: the statements are the same ones further on, except that the first one now begins
  with the padding (`Statement.Pads`).
-/

namespace SchemaReview

open Text

namespace IsPadding

variable {w : Text} (h : IsPadding w)
include h

theorem isQuote {c : Char} (hc : c ∈ w) : SchemaReview.isQuote c = false := by
  have hquote : (!SchemaReview.isQuote c) = true :=
    h.holds (p := fun c => !SchemaReview.isQuote c) (by decide) hc
  simpa using hquote

theorem not_mem {x : Char} (hx : x ∉ [' ', '\t', '\n']) : x ∉ w := fun hmem => hx (h x hmem)

theorem commentFree : CommentFree w := .of_not_mem (h.not_mem (by decide)) (h.not_mem (by decide))

theorem isBlankText_append (t : Text) : isBlankText (w ++ t) = isBlankText t := by
  have hw : w.all SchemaReview.isBlank = true := List.all_eq_true.mpr fun c hc => h.isBlank hc
  rw [isBlankText, List.all_append, hw, Bool.true_and, isBlankText]

/-! ## Masking -/

theorem after_code : Lexical.code.after w = .code := by
  induction w with
  | nil => rfl
  | cons c w ih =>
    have hc := h c List.mem_cons_self
    simp only [List.mem_cons, List.not_mem_nil, or_false] at hc
    rcases hc with rfl | rfl | rfl <;> exact ih h.tail

theorem maskComments_append (hline : EndsLine w) (t : Text) :
    maskComments (w ++ t) = w ++ maskComments t := by
  rw [SchemaReview.maskComments_append hline h.after_code, h.commentFree.maskComments_eq]

end IsPadding

/-! ## Lines -/

theorem length_lineRangesFrom_padding {w : Text} (h : IsPadding w) (hline : EndsLine w)
    {start offset : Nat} (hnil : w = [] → start = offset) :
    (lineRangesFrom start offset w).length = w.count '\n' := by
  induction w generalizing start offset with
  | nil => rw [lineRangesFrom, if_neg (by simp [hnil rfl])]; rfl
  | cons c w ih =>
    by_cases hc : c = '\n'
    · subst hc
      rw [lineRangesFrom, if_pos (Or.inl rfl), List.length_cons, ih h.tail hline.tail fun _ => rfl,
        List.count_cons_self]
      rintro v hreturn -
      exact absurd hreturn (by decide)
    · have hbreak : isLineBreak c = false := by
        have hspace := h c List.mem_cons_self
        simp only [List.mem_cons, List.not_mem_nil, or_false] at hspace
        rcases hspace with rfl | rfl | rfl
        · rfl
        · rfl
        · exact absurd rfl hc
      rw [lineRangesFrom_of_not_break hbreak, ih h.tail hline.tail, List.count_cons_of_ne hc]
      rintro rfl
      exact absurd hline.eq_lineFeed hc

/-- Padding that ends a line moves what is behind it by its bytes and its line feeds. -/
theorem shiftOf_padding {w : Text} (h : IsPadding w) (hline : EndsLine w) :
    Source.shiftOf w = ⟨byteSize w, w.count '\n'⟩ := by
  rw [Source.shiftOf, ← length_lineRangesFrom_padding h hline fun _ => rfl]
  rfl

/-! ## Statements -/

/-- The second statement is the first one further on by `n` bytes, perhaps with padding taken into it. -/
def Statement.Pads (n : Nat) (st st' : Statement) : Prop :=
  ∃ w, IsPadding w ∧ st'.text = w ++ st.text ∧ st'.offset + byteSize w = n + st.offset

theorem forall₂_ofPiece {w : Text} (hw : IsPadding w) {n start start' : Nat}
    (hstart : start' + byteSize w = n + start) (t : Text) :
    List.Forall₂ (Statement.Pads n) (Statement.ofPiece start t) (Statement.ofPiece start' (w ++ t)) := by
  rw [Statement.ofPiece, Statement.ofPiece, hw.isBlankText_append]
  split
  · exact .nil
  · exact .cons ⟨w, hw, rfl, hstart⟩ .nil

theorem isPadding_nil : IsPadding [] := fun _ hc => nomatch hc

/-- By induction on the text: padding in front of the piece at hand stays with it, and the pieces behind
it only move. -/
theorem forall₂_statementsFrom {w : Text} (hw : IsPadding w) {n start start' : Nat}
    (hstart : start' + byteSize w = n + start) (offset skip : Nat) (piece t : Text) :
    List.Forall₂ (Statement.Pads n) (statementsFrom start offset skip piece t)
      (statementsFrom start' (n + offset) skip (piece ++ w.reverse) t) := by
  induction t generalizing w start start' offset skip piece with
  | nil =>
    rw [statementsFrom, statementsFrom, List.reverse_append, List.reverse_reverse]
    exact forall₂_ofPiece hw hstart _
  | cons c t ih =>
    rw [statementsFrom, statementsFrom, ← List.cons_append, Nat.add_assoc n offset, Nat.add_assoc n offset]
    split
    · split
      · rw [List.reverse_append, List.reverse_reverse]
        refine List.rel_append (forall₂_ofPiece hw hstart _) ?_
        have hnext : n + (offset + 1) + byteSize [] = n + (offset + 1) := rfl
        exact ih isPadding_nil hnext (offset + 1) 0 []
      · exact ih hw hstart (offset + c.utf8Size) _ (c :: piece)
    · exact ih hw hstart (offset + c.utf8Size) _ (c :: piece)

theorem statementsFrom_padding {w : Text} (hw : IsPadding w) (start offset : Nat) (piece t : Text) :
    statementsFrom start offset 0 piece (w ++ t) =
      statementsFrom start (offset + byteSize w) 0 (w.reverse ++ piece) t := by
  induction w generalizing offset piece with
  | nil => rfl
  | cons c w ih =>
    have hregion : ∀ cs, regionLength c cs = 0 := by
      intro cs
      have hdollar : c ≠ '$' := by
        rintro rfl
        exact hw.not_mem (by decide) List.mem_cons_self
      rw [regionLength, hw.isQuote List.mem_cons_self, if_neg Bool.false_ne_true, if_neg hdollar]
    have hsemicolon : c ≠ ';' := by
      rintro rfl
      exact hw.not_mem (by decide) List.mem_cons_self
    rw [List.cons_append, statementsFrom, if_pos rfl, if_neg hsemicolon, hregion, ih hw.tail,
      byteSize_cons, ← Nat.add_assoc, List.reverse_cons, List.append_assoc, List.singleton_append]

/-- The statements behind padding. -/
theorem statements_padding {w : Text} (hw : IsPadding w) (t : Text) :
    List.Forall₂ (Statement.Pads (byteSize w)) (statements t) (statements (w ++ t)) := by
  have hstart : 0 + byteSize w = byteSize w + 0 := Nat.add_comm _ _
  have hmoved := forall₂_statementsFrom hw hstart 0 0 [] t
  rw [statements, statements, statementsFrom_padding hw, List.append_nil, Nat.zero_add]
  exact hmoved

end SchemaReview
