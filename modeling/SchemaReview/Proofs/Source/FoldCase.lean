import SchemaReview.Proofs.Source.Comment
import SchemaReview.Proofs.Text.FoldCase
import SchemaReview.Source.Statement

/-!
# Proofs.Source.FoldCase — a script and its folded form have the same places

Comments, lines and statements are found by characters that are no letters, so folding a script
leaves them where they are.  Dollar tags are the one exception: they are compared letter by letter,
and a script with tags can have other statements when it is folded.
-/

namespace SchemaReview

open Text

@[simp] theorem isQuote_toLower (x : Char) : isQuote x.toLower = isQuote x :=
  apply_toLower isQuote (by decide) x

@[simp] theorem isLineBreak_toLower (x : Char) : isLineBreak x.toLower = isLineBreak x :=
  apply_toLower isLineBreak (by decide) x

theorem isAsciiLetter_of_isQuote {x : Char} (h : isQuote x = true) : isAsciiLetter x = false := by
  rcases isQuote_iff.mp h with rfl | rfl <;> rfl

theorem toLower_of_isQuote {x : Char} (h : isQuote x = true) : x.toLower = x :=
  toLower_eq_self (isAsciiLetter_of_isQuote h)

/-! ## Comments -/

theorem opensComment_foldCase (t : Text) : OpensComment (foldCase t) ↔ OpensComment t := by
  unfold OpensComment
  rw [prefix_foldCase_iff (by simp [isAsciiLetter]), prefix_foldCase_iff (by simp [isAsciiLetter])]

theorem blankOut_toLower (x : Char) : blankOut x.toLower = foldCase (blankOut x) := by
  unfold blankOut
  rw [isLineBreak_toLower, utf8Size_toLower]
  split
  · rfl
  · simp [foldCase, toLower_eq_self (show isAsciiLetter ' ' = false by decide)]

/-- Masking commutes with folding, from every state that a quote can leave. -/
theorem maskFrom_foldCase (state : Lexical) (t : Text)
    (hquote : ∀ q, state = .quoted q → isQuote q = true) :
    maskFrom state (foldCase t) = foldCase (maskFrom state t) := by
  have hdash : '-'.toLower = '-' := toLower_eq_self (by decide)
  have hslash : '/'.toLower = '/' := toLower_eq_self (by decide)
  have hstar : '*'.toLower = '*' := toLower_eq_self (by decide)
  have hspace : ' '.toLower = ' ' := toLower_eq_self (by decide)
  fun_induction maskFrom state t with
  | case1 state => cases state <;> rfl
  | case2 cs ih => simp only [foldCase_cons, hdash, hspace, maskFrom, ih (by simp)]
  | case3 cs ih => simp only [foldCase_cons, hslash, hstar, hspace, maskFrom, ih (by simp)]
  | case4 c cs hnotDash hnotSlash ih =>
    have hopens : ¬ OpensComment (c :: cs) := by
      rintro (⟨v, hv⟩ | ⟨v, hv⟩)
      · obtain ⟨rfl, rfl⟩ := List.cons_eq_cons.mp hv
        exact hnotDash v rfl rfl
      · obtain ⟨rfl, rfl⟩ := List.cons_eq_cons.mp hv
        exact hnotSlash v rfl rfl
    have hfolded : ¬ OpensComment (c.toLower :: foldCase cs) :=
      mt (opensComment_foldCase (c :: cs)).mp hopens
    rw [foldCase_cons, maskFrom_code_cons hfolded, isQuote_toLower, foldCase_cons]
    by_cases hc : isQuote c = true
    · simp only [hc, if_true] at ih ⊢
      rw [toLower_of_isQuote hc, ih fun q hq => by cases hq; exact hc]
    · simp only [hc, if_false, Bool.false_eq_true] at ih ⊢
      rw [ih (by simp)]
  | case5 q c cs ih =>
    have hq : isQuote q = true := hquote q rfl
    have hc := toLower_eq_iff (isAsciiLetter_of_isQuote hq) c
    rw [foldCase_cons, maskFrom, foldCase_cons]
    simp only [hc]
    rw [ih]
    intro q' hq'
    split at hq'
    · cases hq'
    · cases hq'
      exact hq
  | case6 c cs ih =>
    rw [foldCase_cons, maskFrom, foldCase_append, blankOut_toLower, isLineBreak_toLower, ih]
    intro q hq
    split at hq <;> cases hq
  | case7 cs ih => simp only [foldCase_cons, hslash, hstar, hspace, maskFrom, ih (by simp)]
  | case8 c cs hnot ih =>
    have hends : ¬ ['*', '/'] <+: c.toLower :: foldCase cs := by
      rw [← foldCase_cons, prefix_foldCase_iff (by simp [isAsciiLetter])]
      rintro ⟨v, hv⟩
      obtain ⟨rfl, rfl⟩ := List.cons_eq_cons.mp hv
      exact hnot v rfl rfl
    rw [foldCase_cons, maskFrom_blockComment_cons hends, blankOut_toLower, ih (by simp),
      foldCase_append]

theorem maskComments_foldCase (t : Text) : maskComments (foldCase t) = foldCase (maskComments t) :=
  maskFrom_foldCase .code t nofun

/-! ## Lines and spans -/

theorem lineRangesFrom_foldCase (start offset : Nat) (t : Text) :
    lineRangesFrom start offset (foldCase t) = lineRangesFrom start offset t := by
  have hreturn := toLower_eq_iff (show isAsciiLetter '\r' = false by decide)
  have hfeed := toLower_eq_iff (show isAsciiLetter '\n' = false by decide)
  fun_induction lineRangesFrom start offset t with
  | case1 start offset hlt => rw [foldCase_nil, lineRangesFrom, if_pos hlt]
  | case2 start offset hlt => rw [foldCase_nil, lineRangesFrom, if_neg hlt]
  | case3 start offset cs ih =>
    rw [foldCase_cons, foldCase_cons, (hreturn '\r').mpr rfl, (hfeed '\n').mpr rfl, lineRangesFrom, ih]
  | case4 start offset c cs hnot hbreak ih =>
    rw [foldCase_cons, lineRangesFrom, if_pos (by rwa [hreturn, hfeed]), ih]
    intro ds hc hcs
    cases cs with
    | nil => cases hcs
    | cons d cs =>
      rw [foldCase_cons, List.cons.injEq] at hcs
      exact hnot cs ((hreturn c).mp hc) (by rw [(hfeed d).mp hcs.1])
  | case5 start offset c cs hnot hbreak ih =>
    have hc : isLineBreak c.toLower = false := by
      rw [isLineBreak_toLower, ← Bool.not_eq_true, isLineBreak_iff]
      exact hbreak
    rw [foldCase_cons, lineRangesFrom_of_not_break hc, utf8Size_toLower, ih]

/-- The source with its text folded. -/
def Source.foldCase (s : Source) : Source := .ofMasked s.text.foldCase

namespace Source

variable (s : Source)

@[simp] theorem text_foldCase : s.foldCase.text = s.text.foldCase := rfl

@[simp] theorem lines_foldCase : s.foldCase.lines = s.lines := by
  rw [s.lines_eq]
  exact lineRangesFrom_foldCase 0 0 s.text

theorem ofText_foldCase (t : Text) : Source.ofText t.foldCase = (Source.ofText t).foldCase := by
  rw [ofText, maskComments_foldCase]
  rfl

@[simp] theorem lineOf_foldCase (offset : Nat) : s.foldCase.lineOf offset = s.lineOf offset := by
  rw [lineOf, lineOf, lines_foldCase]

@[simp] theorem spanAt_foldCase (offset length : Nat) :
    s.foldCase.spanAt offset length = s.spanAt offset length := by
  unfold spanAt Source.slice
  simp only [lineOf_foldCase, lines_foldCase, text_foldCase, slice_foldCase, length_foldCase]

end Source

/-- The piece with its text folded. -/
def Piece.foldCase (p : Piece) : Piece := { p with text := p.text.foldCase }

@[simp] theorem Source.spanOf_foldCase (s : Source) (p : Piece) :
    s.foldCase.spanOf p.foldCase = s.spanOf p := by
  unfold Source.spanOf
  rw [spanAt_foldCase]
  simp [Piece.foldCase]

/-! ## Statements -/

/-- The statement with its text folded. -/
def Statement.foldCase (statement : Statement) : Statement :=
  { statement with text := statement.text.foldCase }

theorem Statement.ofPiece_foldCase (start : Nat) (piece : Text) :
    Statement.ofPiece start piece.foldCase = (Statement.ofPiece start piece).map Statement.foldCase := by
  unfold Statement.ofPiece isBlankText
  rw [all_foldCase isBlank_toLower]
  split <;> rfl

theorem regionLength_foldCase {c : Char} (hc : c ≠ '$') (cs : Text) :
    regionLength c.toLower (foldCase cs) = regionLength c cs := by
  have hc' : c.toLower ≠ '$' := mt (toLower_eq_iff (by decide) c).mp hc
  unfold regionLength
  rw [isQuote_toLower]
  by_cases hquote : isQuote c = true
  · have hends : ∀ d : Char, decide (d.toLower ≠ c) = decide (d ≠ c) := by
      intro d
      rw [decide_eq_decide, not_iff_not]
      exact toLower_eq_iff (isAsciiLetter_of_isQuote hquote) d
    rw [if_pos hquote, if_pos hquote, toLower_of_isQuote hquote, takeWhile_foldCase hends,
      length_foldCase]
  · rw [if_neg hquote, if_neg hquote, if_neg hc', if_neg hc]

theorem statementsFrom_foldCase (start offset skip : Nat) (piece t : Text) (hdollar : '$' ∉ t) :
    statementsFrom start offset skip piece.foldCase t.foldCase =
      (statementsFrom start offset skip piece t).map Statement.foldCase := by
  induction t generalizing start offset skip piece with
  | nil =>
    rw [foldCase_nil, statementsFrom, statementsFrom, ← foldCase_reverse, Statement.ofPiece_foldCase]
  | cons c cs ih =>
    rw [List.mem_cons, not_or] at hdollar
    have hsemicolon := toLower_eq_iff (show isAsciiLetter ';' = false by decide) c
    have hcons := fun start offset skip => ih start offset skip (c :: piece) hdollar.2
    have hnil := ih (offset + 1) (offset + 1) 0 [] hdollar.2
    simp only [foldCase_cons] at hcons
    rw [foldCase_nil] at hnil
    rw [foldCase_cons, statementsFrom, statementsFrom, utf8Size_toLower,
      regionLength_foldCase (Ne.symm hdollar.1)]
    by_cases hskip : skip = 0
    · rw [if_pos hskip, if_pos hskip]
      by_cases hc : c = ';'
      · rw [if_pos hc, if_pos (hsemicolon.mpr hc), hnil, ← foldCase_reverse,
          Statement.ofPiece_foldCase, List.map_append]
      · rw [if_neg hc, if_neg (mt hsemicolon.mp hc), hcons]
    · rw [if_neg hskip, if_neg hskip, hcons]

theorem Source.statements_foldCase {s : Source} (hdollar : '$' ∉ s.text) :
    s.foldCase.statements = s.statements.map Statement.foldCase :=
  statementsFrom_foldCase 0 0 0 [] s.text hdollar

/-- Masking puts no new characters into a script but spaces. -/
theorem mem_of_mem_maskComments {x : Char} (hx : x ≠ ' ') {t : Text} (h : x ∈ maskComments t) :
    x ∈ t := by
  have hblanked : ∀ {t u : Text}, Blanked t u → x ∈ u → x ∈ t := by
    intro t u hb hmem
    induction hb with
    | nil => exact hmem
    | keep c _ ih =>
      rcases List.mem_cons.mp hmem with rfl | hmem
      · exact List.mem_cons_self
      · exact List.mem_cons_of_mem c (ih hmem)
    | blank _ _ ih =>
      rcases List.mem_append.mp hmem with hmem | hmem
      · exact absurd (List.eq_of_mem_replicate hmem) hx
      · exact List.mem_cons_of_mem _ (ih hmem)
  exact hblanked (blanked_maskFrom .code t) h

end SchemaReview
