import Mathlib.Data.List.Infix
import Mathlib.Data.List.TakeWhile
import SchemaReview.Catalog.Build
import SchemaReview.Detector.Run
import SchemaReview.Proofs.Sequence
import SchemaReview.Proofs.Text.Basic

/-!
# Proofs.Source.Comment — what masking keeps

* `Lexes t ls`: the script `t` read from left to right into code characters, quoted texts and
  comments.  The rules say where a quoted text and a comment end; the masking function is not
  mentioned.  Every script can be read so (`exists_lexes`).
* `Lexes.maskComments`: masking copies code and quoted texts and blanks out comments, piece by piece.
* `Blanked t u`: `u` is `t` with some characters other than line breaks replaced by spaces of the same
  size.  This is enough for sizes and lines to stay (`lineRangesFrom_eq_of_blanked`).
* `maskComments_maskComments`: a masked text has no comments left.
* `CommentFree t`: no comment mark stands in `t`.  Masking leaves such a text as it is.
* `maskComments_keeps_script`: all of it together, with what follows for the detectors and the
  catalog.
-/

namespace SchemaReview

open Text

/-! ## Reading a script from left to right -/

/-- A piece of a script. -/
inductive Lexeme where
  /-- A character of a statement. -/
  | code (c : Char)
  /-- Text in quotes, with its quotes. -/
  | quoted (text : Text)
  /-- A comment, with its marks. -/
  | comment (text : Text)

namespace Lexeme

/-- The piece as written. -/
def text : Lexeme → Text
  | code c => [c]
  | quoted t => t
  | comment t => t

/-- The piece is a comment. -/
def isComment : Lexeme → Bool
  | comment _ => true
  | _ => false

/-- The piece with comments blanked out. -/
def masked : Lexeme → Text
  | code c => [c]
  | quoted t => t
  | comment t => t.flatMap blankOut

end Lexeme

/-- A comment begins here. -/
def OpensComment (t : Text) : Prop := ['-', '-'] <+: t ∨ ['/', '*'] <+: t

/-- The script reads as these pieces.  A quoted text runs to the next quote of its kind, a comment
after two dashes up to a line break, a comment after slash-star to the first star-slash; what is not
closed runs to the end. -/
inductive Lexes : Text → List Lexeme → Prop
  | nil : Lexes [] []
  | code {c : Char} {t : Text} {ls : List Lexeme} (hquote : isQuote c = false)
      (hcomment : ¬ OpensComment (c :: t)) (h : Lexes t ls) : Lexes (c :: t) (.code c :: ls)
  | quoted {q : Char} {body t : Text} {ls : List Lexeme} (hquote : isQuote q = true)
      (hbody : q ∉ body) (h : Lexes t ls) :
      Lexes (q :: (body ++ q :: t)) (.quoted (q :: (body ++ [q])) :: ls)
  | openQuoted {q : Char} {body : Text} (hquote : isQuote q = true) (hbody : q ∉ body) :
      Lexes (q :: body) [.quoted (q :: body)]
  | lineComment {body t : Text} {ls : List Lexeme} (hbody : ∀ c ∈ body, isLineBreak c = false)
      (hend : ∀ c ∈ t.head?, isLineBreak c = true) (h : Lexes t ls) :
      Lexes ('-' :: '-' :: (body ++ t)) (.comment ('-' :: '-' :: body) :: ls)
  | blockComment {body t : Text} {ls : List Lexeme} (hbody : ¬ ['*', '/'] <:+: body ++ ['*'])
      (h : Lexes t ls) :
      Lexes ('/' :: '*' :: (body ++ '*' :: '/' :: t))
        (.comment ('/' :: '*' :: (body ++ ['*', '/'])) :: ls)
  | openBlockComment {body : Text} (hbody : ¬ ['*', '/'] <:+: body) :
      Lexes ('/' :: '*' :: body) [.comment ('/' :: '*' :: body)]

/-- Nothing is lost or added by reading. -/
theorem Lexes.flatMap_text {t : Text} {ls : List Lexeme} (h : Lexes t ls) :
    ls.flatMap Lexeme.text = t := by
  induction h with
  | nil => rfl
  | code _ _ _ ih => simp [Lexeme.text, ih]
  | quoted _ _ _ ih => simp [Lexeme.text, ih]
  | openQuoted => simp [Lexeme.text]
  | lineComment _ _ _ ih => simp [Lexeme.text, ih]
  | blockComment _ _ ih => simp [Lexeme.text, ih]
  | openBlockComment => simp [Lexeme.text]

/-- A text has no star-slash, or there is a first one. -/
theorem starSlash_cases (t : Text) : ¬ ['*', '/'] <:+: t ∨
    ∃ body rest, t = body ++ '*' :: '/' :: rest ∧ ¬ ['*', '/'] <:+: body ++ ['*'] :=
  first_infix_cases (by simp) t

/-- A text is cut in front of its first line break, or at its end. -/
theorem exists_lineBreak (t : Text) : ∃ body after, t = body ++ after ∧
    (∀ c ∈ body, isLineBreak c = false) ∧ ∀ c ∈ after.head?, isLineBreak c = true := by
  refine ⟨t.takeWhile fun c => !isLineBreak c, t.dropWhile fun c => !isLineBreak c,
    List.takeWhile_append_dropWhile.symm, fun c hc => ?_, fun c hc => ?_⟩
  · simpa using List.mem_takeWhile_imp hc
  · have hnot := List.head?_dropWhile_not (fun c => !isLineBreak c) t
    rw [Option.mem_def] at hc
    simpa [hc] using hnot

/-- Every script can be read. -/
theorem exists_lexes (t : Text) : ∃ ls, Lexes t ls := by
  induction hlen : t.length using Nat.strongRecOn generalizing t with
  | _ n ih =>
    subst hlen
    rcases t with _ | ⟨c, t⟩
    · exact ⟨[], .nil⟩
    by_cases hquote : isQuote c = true
    · by_cases hclosed : c ∈ t
      · obtain ⟨body, rest, rfl, hbody⟩ := List.eq_append_cons_of_mem hclosed
        obtain ⟨ls, hls⟩ := ih rest.length (by simp; omega) rest rfl
        exact ⟨_, .quoted hquote hbody hls⟩
      · exact ⟨_, .openQuoted hquote hclosed⟩
    by_cases hcomment : OpensComment (c :: t)
    · rcases hcomment with ⟨rest, hrest⟩ | ⟨rest, hrest⟩
      · obtain ⟨body, after, rfl, hbody, hafter⟩ := exists_lineBreak rest
        obtain ⟨ls, hls⟩ := ih after.length (by rw [← hrest]; simp; omega) after rfl
        rw [← hrest]
        show ∃ ls, Lexes ('-' :: '-' :: (body ++ after)) ls
        exact ⟨_, .lineComment hbody hafter hls⟩
      · rw [← hrest]
        rcases starSlash_cases rest with hopen | ⟨body, after, rfl, hbody⟩
        · exact ⟨_, .openBlockComment hopen⟩
        · obtain ⟨ls, hls⟩ := ih after.length (by rw [← hrest]; simp; omega) after rfl
          exact ⟨_, .blockComment hbody hls⟩
    · obtain ⟨ls, hls⟩ := ih t.length (by simp) t rfl
      exact ⟨_, .code (by simpa using hquote) hcomment hls⟩

/-! ## Masking piece by piece -/

theorem isLineBreak_iff {c : Char} : isLineBreak c = true ↔ c = '\n' ∨ c = '\r' := by
  simp [isLineBreak]

theorem isQuote_iff {c : Char} : isQuote c = true ↔ c = '\x27' ∨ c = '"' := by
  simp [isQuote]

@[simp] theorem blankOut_dash : blankOut '-' = [' '] := by decide

@[simp] theorem blankOut_slash : blankOut '/' = [' '] := by decide

@[simp] theorem blankOut_star : blankOut '*' = [' '] := by decide

/-- A character that opens no comment is copied. -/
theorem maskFrom_code_cons {c : Char} {t : Text} (h : ¬ OpensComment (c :: t)) :
    maskFrom .code (c :: t) = c :: maskFrom (if isQuote c then .quoted c else .code) t := by
  rw [maskFrom]
  · rintro cs rfl rfl
    exact h (Or.inl ⟨cs, rfl⟩)
  · rintro cs rfl rfl
    exact h (Or.inr ⟨cs, rfl⟩)

theorem not_opensComment_of_isQuote {q : Char} {t : Text} (h : isQuote q = true) :
    ¬ OpensComment (q :: t) := by
  rcases isQuote_iff.mp h with rfl | rfl <;> simp [OpensComment, List.cons_prefix_cons]

theorem not_opensComment_of_isLineBreak {c : Char} {t : Text} (h : isLineBreak c = true) :
    ¬ OpensComment (c :: t) := by
  rcases isLineBreak_iff.mp h with rfl | rfl <;> simp [OpensComment, List.cons_prefix_cons]

theorem maskFrom_quoted_append {q : Char} {body : Text} (h : q ∉ body) (t : Text) :
    maskFrom (.quoted q) (body ++ t) = body ++ maskFrom (.quoted q) t := by
  induction body with
  | nil => rfl
  | cons c body ih =>
    obtain ⟨hc, hbody⟩ := not_or.mp (mt List.mem_cons.mpr h)
    rw [List.cons_append, maskFrom, if_neg (Ne.symm hc), ih hbody, List.cons_append]

theorem maskFrom_lineComment_append {body : Text} (h : ∀ c ∈ body, isLineBreak c = false)
    (t : Text) :
    maskFrom .lineComment (body ++ t) = body.flatMap blankOut ++ maskFrom .lineComment t := by
  induction body with
  | nil => rfl
  | cons c body ih =>
    rw [List.cons_append, maskFrom, h c List.mem_cons_self, if_neg Bool.false_ne_true,
      ih fun d hd => h d (List.mem_cons_of_mem c hd), List.flatMap_cons, List.append_assoc]

/-- At a line break, and at the end, a comment after dashes is over. -/
theorem maskFrom_lineComment_eq_code {t : Text} (h : ∀ c ∈ t.head?, isLineBreak c = true) :
    maskFrom .lineComment t = maskFrom .code t := by
  rcases t with _ | ⟨c, t⟩
  · rfl
  · have hc : isLineBreak c = true := h c rfl
    have hquote : isQuote c = false := by rcases isLineBreak_iff.mp hc with rfl | rfl <;> rfl
    rw [maskFrom_code_cons (not_opensComment_of_isLineBreak hc), maskFrom, blankOut, if_pos hc,
      if_pos hc, hquote]
    rfl

/-- A character of a comment that does not begin its end is blanked out. -/
theorem maskFrom_blockComment_cons {c : Char} {t : Text} (h : ¬ ['*', '/'] <+: c :: t) :
    maskFrom .blockComment (c :: t) = blankOut c ++ maskFrom .blockComment t := by
  rw [maskFrom]
  rintro cs rfl rfl
  exact h ⟨cs, rfl⟩

theorem maskFrom_blockComment_of_not_infix {body : Text} (h : ¬ ['*', '/'] <:+: body) :
    maskFrom .blockComment body = body.flatMap blankOut := by
  induction body with
  | nil => rfl
  | cons c body ih =>
    rw [List.infix_cons_iff, not_or] at h
    rw [maskFrom_blockComment_cons h.1, ih h.2, List.flatMap_cons]

theorem maskFrom_blockComment_append {body : Text} (h : ¬ ['*', '/'] <:+: body ++ ['*'])
    (t : Text) : maskFrom .blockComment (body ++ '*' :: '/' :: t) =
      body.flatMap blankOut ++ ' ' :: ' ' :: maskFrom .code t := by
  induction body with
  | nil => rfl
  | cons c body ih =>
    rw [List.cons_append, List.infix_cons_iff, not_or] at h
    have hstart : ¬ ['*', '/'] <+: c :: (body ++ '*' :: '/' :: t) := by
      intro hpre
      refine h.1 ?_
      have hlen : ['*', '/'].length ≤ (c :: (body ++ ['*'])).length := by simp
      have hshort : c :: (body ++ ['*']) <+: c :: (body ++ '*' :: '/' :: t) :=
        ⟨'/' :: t, by simp⟩
      exact List.prefix_of_prefix_length_le hpre hshort hlen
    rw [List.cons_append, maskFrom_blockComment_cons hstart, ih h.2, List.flatMap_cons,
      List.append_assoc]

/-- Masking copies what is no comment and blanks the comments out. -/
theorem Lexes.maskComments {t : Text} {ls : List Lexeme} (h : Lexes t ls) :
    maskComments t = ls.flatMap Lexeme.masked := by
  unfold SchemaReview.maskComments
  induction h with
  | nil => rfl
  | code hquote hcomment _ ih =>
    rw [maskFrom_code_cons hcomment, hquote, if_neg Bool.false_ne_true, ih]
    rfl
  | quoted hquote hbody _ ih =>
    rw [maskFrom_code_cons (not_opensComment_of_isQuote hquote), hquote, if_pos rfl,
      maskFrom_quoted_append hbody, maskFrom, if_pos rfl, ih]
    simp [Lexeme.masked]
  | openQuoted hquote hbody =>
    have hrest := maskFrom_quoted_append hbody []
    rw [List.append_nil, maskFrom, List.append_nil] at hrest
    rw [maskFrom_code_cons (not_opensComment_of_isQuote hquote), hquote, if_pos rfl, hrest]
    simp [Lexeme.masked]
  | lineComment hbody hend _ ih =>
    rw [maskFrom, maskFrom_lineComment_append hbody, maskFrom_lineComment_eq_code hend, ih]
    simp [Lexeme.masked]
  | blockComment hbody _ ih =>
    rw [maskFrom, maskFrom_blockComment_append hbody, ih]
    simp [Lexeme.masked]
  | openBlockComment hbody =>
    rw [maskFrom, maskFrom_blockComment_of_not_infix hbody]
    simp [Lexeme.masked]

/-- Masking leaves a script as it is when the script has no comments, and then only. -/
theorem Lexes.maskComments_eq_self_iff {t : Text} {ls : List Lexeme} (h : Lexes t ls) :
    SchemaReview.maskComments t = t ↔ ∀ l ∈ ls, l.isComment = false := by
  constructor
  · intro hsame
    rw [h.maskComments] at hsame
    induction h with
    | nil => exact List.forall_mem_nil _
    | code _ _ _ ih => exact List.forall_mem_cons.mpr ⟨rfl, ih (List.cons.inj hsame).2⟩
    | @quoted q body t ls hquote hbody h ih =>
      have hcut : (q :: (body ++ [q])) ++ ls.flatMap Lexeme.masked = (q :: (body ++ [q])) ++ t := by
        simpa [Lexeme.masked] using hsame
      exact List.forall_mem_cons.mpr ⟨rfl, ih (List.append_cancel_left hcut)⟩
    | openQuoted => exact List.forall_mem_singleton.mpr rfl
    -- a comment begins with a mark, and masked with a blank
    | lineComment => exact absurd (List.cons.inj hsame).1 (by decide)
    | blockComment => exact absurd (List.cons.inj hsame).1 (by decide)
    | openBlockComment => exact absurd (List.cons.inj hsame).1 (by decide)
  · intro hcomment
    have hmasked : ∀ l ∈ ls, l.masked = l.text := by
      intro l hl
      cases l with
      | code c => rfl
      | quoted u => rfl
      | comment u => cases hcomment _ hl
    rw [h.maskComments, List.flatMap_congr hmasked, h.flatMap_text]

/-! ## Sizes and lines -/

/-- `u` is `t` with some characters other than line breaks replaced by spaces of the same size. -/
inductive Blanked : Text → Text → Prop
  | nil : Blanked [] []
  | keep (c : Char) {t u : Text} (h : Blanked t u) : Blanked (c :: t) (c :: u)
  | blank {c : Char} {t u : Text} (hc : isLineBreak c = false) (h : Blanked t u) :
      Blanked (c :: t) (List.replicate c.utf8Size ' ' ++ u)

theorem Blanked.blankOut (c : Char) {t u : Text} (h : Blanked t u) :
    Blanked (c :: t) (blankOut c ++ u) := by
  unfold SchemaReview.blankOut
  by_cases hc : isLineBreak c = true
  · rw [if_pos hc]
    exact .keep c h
  · rw [if_neg hc]
    exact .blank (by simpa using hc) h

theorem Blanked.marks {a b : Char} (ha : SchemaReview.blankOut a = [' '])
    (hb : SchemaReview.blankOut b = [' ']) {t u : Text} (h : Blanked t u) :
    Blanked (a :: b :: t) (' ' :: ' ' :: u) := by
  have hboth := (h.blankOut b).blankOut a
  rwa [ha, hb] at hboth

theorem blanked_maskFrom (state : Lexical) (t : Text) : Blanked t (maskFrom state t) := by
  fun_induction maskFrom state t with
  | case1 => exact .nil
  | case2 cs ih => exact ih.marks blankOut_dash blankOut_dash
  | case3 cs ih => exact ih.marks blankOut_slash blankOut_star
  | case4 c cs _ _ ih => exact ih.keep c
  | case5 q c cs ih => exact ih.keep c
  | case6 c cs ih => exact ih.blankOut c
  | case7 cs ih => exact ih.marks blankOut_star blankOut_slash
  | case8 c cs _ ih => exact ih.blankOut c

theorem byteSize_replicate_space (n : Nat) : byteSize (List.replicate n ' ') = n := by
  induction n with
  | zero => rfl
  | succ n ih =>
    have hspace : ' '.utf8Size = 1 := rfl
    rw [List.replicate_succ, byteSize_cons, ih, hspace, Nat.add_comm]

theorem byteSize_eq_of_blanked {t u : Text} (h : Blanked t u) : byteSize u = byteSize t := by
  induction h with
  | nil => rfl
  | keep c _ ih => rw [byteSize_cons, byteSize_cons, ih]
  | blank _ _ ih => rw [byteSize_append, byteSize_cons, byteSize_replicate_space, ih]

theorem lineRangesFrom_of_not_break {c : Char} (hc : isLineBreak c = false) (start offset : Nat)
    (t : Text) :
    lineRangesFrom start offset (c :: t) = lineRangesFrom start (offset + c.utf8Size) t := by
  have hne : ¬ (c = '\n' ∨ c = '\r') := by
    rw [← isLineBreak_iff, hc]
    exact Bool.false_ne_true
  rw [lineRangesFrom, if_neg hne]
  rintro cs rfl -
  exact hne (Or.inr rfl)

theorem lineRangesFrom_replicate_space (n start offset : Nat) (t : Text) :
    lineRangesFrom start offset (List.replicate n ' ' ++ t) = lineRangesFrom start (offset + n) t := by
  induction n generalizing offset with
  | zero => rfl
  | succ n ih =>
    have hspace : ' '.utf8Size = 1 := rfl
    rw [List.replicate_succ, List.cons_append, lineRangesFrom_of_not_break rfl, ih, hspace,
      Nat.add_assoc, Nat.add_comm 1 n]

/-- A line break keeps its place, so what stands there is the same in both texts. -/
theorem Blanked.exists_cons {c : Char} {t u : Text} (h : Blanked (c :: t) u)
    (hc : isLineBreak c = true) : ∃ u', u = c :: u' ∧ Blanked t u' := by
  cases h with
  | keep _ h => exact ⟨_, rfl, h⟩
  | blank hnot _ => simp [hc] at hnot

/-- What stands in front of a blanked text is a space or stood there before. -/
theorem Blanked.head_cases {c : Char} {t u : Text} (h : Blanked t (c :: u)) :
    c = ' ' ∨ ∃ cs, t = c :: cs := by
  generalize hu : c :: u = v at h
  cases h with
  | nil => simp at hu
  | keep d _ =>
    obtain ⟨rfl, -⟩ := List.cons_eq_cons.mp hu
    exact Or.inr ⟨_, rfl⟩
  | @blank d _ _ _ _ =>
    obtain ⟨n, hn⟩ : ∃ n, d.utf8Size = n + 1 := ⟨d.utf8Size - 1, by have := d.utf8Size_pos; omega⟩
    rw [hn, List.replicate_succ, List.cons_append] at hu
    exact Or.inl (List.cons_eq_cons.mp hu).1

/-- A word without spaces that begins a blanked text stood there before. -/
theorem Blanked.prefix_before {w t u : Text} (h : Blanked t u) (hw : ' ' ∉ w) (hpre : w <+: u) : w <+: t := by
  induction h generalizing w with
  | nil => exact hpre
  | @keep c t u _ ih =>
    rcases List.prefix_cons_iff.mp hpre with rfl | ⟨rest, rfl, hrest⟩
    · exact List.nil_prefix
    · exact List.cons_prefix_cons.mpr ⟨rfl, ih (fun hmem => hw (List.mem_cons_of_mem c hmem)) hrest⟩
  | @blank c t u _ _ _ =>
    obtain ⟨n, hn⟩ : ∃ n, c.utf8Size = n + 1 := ⟨c.utf8Size - 1, by have := c.utf8Size_pos; omega⟩
    rw [hn, List.replicate_succ, List.cons_append] at hpre
    rcases List.prefix_cons_iff.mp hpre with rfl | ⟨rest, rfl, -⟩
    · exact List.nil_prefix
    · exact absurd List.mem_cons_self hw

theorem infix_of_replicate_space {w u : Text} (hw : ' ' ∉ w) {n : Nat}
    (h : w <:+: List.replicate n ' ' ++ u) : w <:+: u := by
  induction n with
  | zero => exact h
  | succ n ih =>
    rw [List.replicate_succ, List.cons_append] at h
    rcases List.infix_cons_iff.mp h with hpre | hpart
    · rcases List.prefix_cons_iff.mp hpre with rfl | ⟨rest, rfl, -⟩
      · exact List.nil_infix
      · exact absurd List.mem_cons_self hw
    · exact ih hpart

/-- A word without spaces that stands in a blanked text stood in the text before. -/
theorem Blanked.infix_before {w t u : Text} (h : Blanked t u) (hw : ' ' ∉ w) (hpart : w <:+: u) : w <:+: t := by
  induction h with
  | nil => exact hpart
  | @keep c t u h ih =>
    rcases List.infix_cons_iff.mp hpart with hpre | hbehind
    · exact ((h.keep c).prefix_before hw hpre).isInfix
    · exact List.infix_cons_iff.mpr (Or.inr (ih hbehind))
  | blank _ _ ih => exact List.infix_cons_iff.mpr (Or.inr (ih (infix_of_replicate_space hw hpart)))

/-- Blanking characters out leaves the lines where they are. -/
theorem lineRangesFrom_eq_of_blanked {t u : Text} (h : Blanked t u) (start offset : Nat) :
    lineRangesFrom start offset u = lineRangesFrom start offset t := by
  fun_induction lineRangesFrom start offset t generalizing u with
  | case1 start offset hlt => cases h; rw [lineRangesFrom, if_pos hlt]
  | case2 start offset hlt => cases h; rw [lineRangesFrom, if_neg hlt]
  | case3 start offset cs ih =>
    -- a carriage return and a line feed are one line end in both texts
    obtain ⟨v, rfl, hfeed⟩ := h.exists_cons rfl
    obtain ⟨w, rfl, hrest⟩ := hfeed.exists_cons rfl
    rw [lineRangesFrom, ih hrest]
  | case4 start offset c cs hnot hbreak ih =>
    obtain ⟨v, rfl, hrest⟩ := h.exists_cons (isLineBreak_iff.mpr hbreak)
    rw [lineRangesFrom, if_pos hbreak, ih hrest]
    rintro w rfl rfl
    rcases hrest.head_cases with hspace | ⟨cs', rfl⟩
    · exact absurd hspace (by decide)
    · exact hnot cs' rfl rfl
  | case5 start offset c cs hnot hbreak ih =>
    have hc : isLineBreak c = false := by
      rw [← Bool.not_eq_true, isLineBreak_iff]
      exact hbreak
    cases h with
    | keep _ h => rw [lineRangesFrom_of_not_break hc, ih h]
    | blank _ h => rw [lineRangesFrom_replicate_space, ih h]

theorem lineRanges_maskComments (t : Text) : lineRanges (maskComments t) = lineRanges t :=
  lineRangesFrom_eq_of_blanked (blanked_maskFrom .code t) 0 0

/-! ## Masking twice -/

/-- Blanking out makes no comment where there was none. -/
theorem not_opensComment_of_blanked {c : Char} {t u : Text} (h : Blanked t u)
    (hnot : ¬ OpensComment (c :: t)) : ¬ OpensComment (c :: u) := by
  rintro (⟨v, hv⟩ | ⟨v, hv⟩)
  all_goals
    obtain ⟨rfl, rfl⟩ := List.cons_eq_cons.mp hv
    rcases h.head_cases with hspace | ⟨cs, rfl⟩
    · exact absurd hspace (by decide)
  · exact hnot (Or.inl ⟨cs, rfl⟩)
  · exact hnot (Or.inr ⟨cs, rfl⟩)

theorem maskFrom_code_space (t : Text) : maskFrom .code (' ' :: t) = ' ' :: maskFrom .code t :=
  maskFrom_code_cons (by simp [OpensComment, List.cons_prefix_cons])

theorem maskFrom_code_blankOut (c : Char) (t : Text) :
    maskFrom .code (blankOut c ++ t) = blankOut c ++ maskFrom .code t := by
  unfold blankOut
  by_cases hc : isLineBreak c = true
  · have hquote : isQuote c = false := by rcases isLineBreak_iff.mp hc with rfl | rfl <;> rfl
    rw [if_pos hc, List.singleton_append, maskFrom_code_cons (not_opensComment_of_isLineBreak hc),
      hquote]
    rfl
  · rw [if_neg hc]
    induction c.utf8Size with
    | zero => rfl
    | succ n ih => rw [List.replicate_succ, List.cons_append, maskFrom_code_space, ih]; rfl

/-- The state in which masked text is read again: there are no comments any more. -/
def Lexical.unmarked : Lexical → Lexical
  | .quoted q => .quoted q
  | _ => .code

theorem maskFrom_maskFrom (state : Lexical) (t : Text) :
    maskFrom state.unmarked (maskFrom state t) = maskFrom state t := by
  fun_induction maskFrom state t with
  | case1 state => cases state <;> rfl
  | case2 cs ih | case3 cs ih | case7 cs ih =>
    simp only [Lexical.unmarked] at ih ⊢
    rw [maskFrom_code_space, maskFrom_code_space, ih]
  | case4 c cs hdash hstar ih =>
    -- the copied character still opens no comment
    have hnot : ¬ OpensComment (c :: cs) := by
      rintro (⟨v, hv⟩ | ⟨v, hv⟩)
      · obtain ⟨rfl, rfl⟩ := List.cons_eq_cons.mp hv
        exact hdash v rfl rfl
      · obtain ⟨rfl, rfl⟩ := List.cons_eq_cons.mp hv
        exact hstar v rfl rfl
    have hsame : (if isQuote c then Lexical.quoted c else .code).unmarked =
        if isQuote c then .quoted c else .code := by
      split <;> rfl
    rw [hsame] at ih
    show maskFrom .code _ = _
    rw [maskFrom_code_cons (not_opensComment_of_blanked (blanked_maskFrom _ cs) hnot), ih]
  | case5 q c cs ih =>
    have hsame : (if c = q then Lexical.code else .quoted q).unmarked =
        if c = q then .code else .quoted q := by
      split <;> rfl
    rw [hsame] at ih
    simp only [Lexical.unmarked]
    rw [maskFrom, ih]
  | case6 c cs ih =>
    have hcode : (if isLineBreak c then Lexical.code else .lineComment).unmarked = .code := by
      split <;> rfl
    rw [hcode] at ih
    simp only [Lexical.unmarked]
    rw [maskFrom_code_blankOut, ih]
  | case8 c cs _ ih =>
    simp only [Lexical.unmarked] at ih ⊢
    rw [maskFrom_code_blankOut, ih]

theorem maskComments_maskComments (t : Text) : maskComments (maskComments t) = maskComments t :=
  maskFrom_maskFrom .code t

theorem ofString_maskComments (sql : String) :
    Source.ofString (String.ofList (maskComments sql.toList)) = Source.ofString sql := by
  simp [Source.ofString, Source.ofText, maskComments_maskComments]

/-! ## Scripts without comments -/

/-- No comment begins in the text, not even between quotes. -/
structure CommentFree (t : Text) : Prop where
  no_dashes : ¬ ['-', '-'] <:+: t
  no_slash_star : ¬ ['/', '*'] <:+: t

namespace CommentFree

theorem of_not_mem {t : Text} (hdash : '-' ∉ t) (hslash : '/' ∉ t) : CommentFree t :=
  ⟨fun h => hdash (h.subset (by simp)), fun h => hslash (h.subset (by simp))⟩

theorem tail {c : Char} {t : Text} (h : CommentFree (c :: t)) : CommentFree t :=
  ⟨fun hin => h.no_dashes (List.infix_cons hin), fun hin => h.no_slash_star (List.infix_cons hin)⟩

theorem not_opensComment {t : Text} (h : CommentFree t) : ¬ OpensComment t := by
  rintro (hin | hin)
  · exact h.no_dashes hin.isInfix
  · exact h.no_slash_star hin.isInfix

/-- Two texts may be joined by a character that begins and ends no comment mark. -/
theorem append_cons {t u : Text} (ht : CommentFree t) {x : Char} (hx : x ∉ ['-', '/', '*'])
    (hu : CommentFree u) : CommentFree (t ++ x :: u) := by
  simp only [List.mem_cons, List.not_mem_nil, or_false, not_or] at hx
  constructor
  · intro h
    rcases infix_of_infix_append_cons (by simp [hx.1]) h with h | h
    · exact ht.no_dashes h
    · exact hu.no_dashes h
  · intro h
    rcases infix_of_infix_append_cons (by simp [hx.2]) h with h | h
    · exact ht.no_slash_star h
    · exact hu.no_slash_star h

theorem nil : CommentFree [] := .of_not_mem (by simp) (by simp)

theorem cons {x : Char} {t : Text} (hx : x ∉ ['-', '/', '*']) (h : CommentFree t) :
    CommentFree (x :: t) :=
  nil.append_cons hx h

theorem maskFrom_eq {t : Text} (h : CommentFree t) {state : Lexical}
    (hstate : state = .code ∨ ∃ q, state = .quoted q) : maskFrom state t = t := by
  induction t generalizing state with
  | nil => simp [maskFrom]
  | cons c t ih =>
    rcases hstate with rfl | ⟨q, rfl⟩
    · rw [maskFrom_code_cons h.not_opensComment, ih h.tail]
      split
      · exact Or.inr ⟨c, rfl⟩
      · exact Or.inl rfl
    · rw [maskFrom, ih h.tail]
      split
      · exact Or.inl rfl
      · exact Or.inr ⟨q, rfl⟩

/-- Masking leaves a script without comments as it is. -/
theorem maskComments_eq {t : Text} (h : CommentFree t) : maskComments t = t :=
  h.maskFrom_eq (Or.inl rfl)

end CommentFree

/-! ## Byte by byte -/

/-- A byte of the masked text: in a comment everything but line breaks becomes a space. -/
def maskByte (inComment : Bool) (b : UInt8) : UInt8 :=
  if inComment && b != 10 && b != 13 then 32 else b

/-- For each byte of a script, whether it belongs to a comment. -/
def commentBytes (ls : List Lexeme) : List Bool :=
  ls.flatMap fun l => List.replicate l.text.byteSize l.isComment

theorem bytes_replicate_space (n : Nat) :
    bytes (List.replicate n ' ') = List.replicate n 32 := by
  induction n with
  | zero => rfl
  | succ n ih => rw [List.replicate_succ, bytes_cons, ih]; rfl

/-- A byte that looks like a line break is one. -/
theorem isLineBreak_of_mem_utf8EncodeChar {c : Char} {b : UInt8}
    (hb : b ∈ String.utf8EncodeChar c) (hbreak : b = 10 ∨ b = 13) : isLineBreak c = true := by
  by_cases hc : 127 < c.val.toNat
  · have hle := le_of_mem_utf8EncodeChar hc hb
    rcases hbreak with rfl | rfl <;> exact absurd hle (by decide)
  · unfold String.utf8EncodeChar at hb
    dsimp only at hb
    rw [if_pos (by omega), List.mem_singleton] at hb
    have hval : c.val.toNat = b.toNat := by
      rw [hb, UInt8.toNat_ofNat']
      omega
    rw [isLineBreak_iff]
    rcases hbreak with rfl | rfl
    · exact Or.inl (Char.ext (UInt32.toNat_inj.mp hval))
    · exact Or.inr (Char.ext (UInt32.toNat_inj.mp hval))

theorem bytes_blankOut (c : Char) :
    bytes (blankOut c) = (String.utf8EncodeChar c).map (maskByte true) := by
  by_cases hc : isLineBreak c = true
  · rcases isLineBreak_iff.mp hc with rfl | rfl <;> decide
  · have hspace : ∀ b ∈ String.utf8EncodeChar c, maskByte true b = 32 := by
      intro b hb
      have hnot := mt (isLineBreak_of_mem_utf8EncodeChar hb) hc
      rw [not_or] at hnot
      simp [maskByte, hnot.1, hnot.2]
    rw [blankOut, if_neg hc, bytes_replicate_space, List.map_congr_left hspace, List.map_const',
      String.length_utf8EncodeChar]

theorem bytes_flatMap_blankOut (t : Text) :
    bytes (t.flatMap blankOut) = (bytes t).map (maskByte true) := by
  induction t with
  | nil => rfl
  | cons c t ih => rw [List.flatMap_cons, bytes_append, bytes_blankOut, ih, bytes_cons, List.map_append]

theorem maskByte_false : maskByte false = id := rfl

theorem bytes_masked (l : Lexeme) : bytes l.masked = (bytes l.text).map (maskByte l.isComment) := by
  cases l with
  | code c => simp [Lexeme.masked, Lexeme.text, Lexeme.isComment, maskByte_false]
  | quoted t => simp [Lexeme.masked, Lexeme.text, Lexeme.isComment, maskByte_false]
  | comment t => exact bytes_flatMap_blankOut t

theorem byteSize_masked (l : Lexeme) : byteSize l.masked = byteSize l.text := by
  rw [← length_bytes, ← length_bytes, bytes_masked, List.length_map]

theorem byteSize_flatMap_masked (ls : List Lexeme) :
    byteSize (ls.flatMap Lexeme.masked) = byteSize (ls.flatMap Lexeme.text) := by
  induction ls with
  | nil => rfl
  | cons l ls ih =>
    rw [List.flatMap_cons, List.flatMap_cons, byteSize_append, byteSize_append, byteSize_masked, ih]

theorem zipWith_maskByte_replicate (inComment : Bool) (bs : List UInt8) :
    List.zipWith maskByte (List.replicate bs.length inComment) bs = bs.map (maskByte inComment) := by
  induction bs with
  | nil => rfl
  | cons b bs ih => rw [List.length_cons, List.replicate_succ, List.zipWith_cons_cons, ih, List.map_cons]

/-- The masked text, byte by byte. -/
theorem bytes_flatMap_masked (ls : List Lexeme) : bytes (ls.flatMap Lexeme.masked) =
    List.zipWith maskByte (commentBytes ls) (bytes (ls.flatMap Lexeme.text)) := by
  induction ls with
  | nil => rfl
  | cons l ls ih =>
    have hcons : commentBytes (l :: ls) =
        List.replicate (bytes l.text).length l.isComment ++ commentBytes ls := by
      rw [length_bytes]
      rfl
    rw [hcons, List.flatMap_cons, List.flatMap_cons, bytes_append, bytes_append,
      List.zipWith_append (by simp), zipWith_maskByte_replicate, ← bytes_masked, ih]

theorem maskByte_eq_iff {inComment : Bool} {b x : UInt8} (hx : x = 10 ∨ x = 13) :
    maskByte inComment b = x ↔ b = x := by
  unfold maskByte
  split_ifs with h
  · simp only [Bool.and_eq_true, bne_iff_ne] at h
    rcases hx with rfl | rfl
    · exact ⟨fun h32 => absurd h32 (by decide), fun hb => absurd hb h.1.2⟩
    · exact ⟨fun h32 => absurd h32 (by decide), fun hb => absurd hb h.2⟩
  · rfl

theorem length_commentBytes {t : Text} {ls : List Lexeme} (h : Lexes t ls) :
    (commentBytes ls).length = (bytes t).length := by
  rw [← h.flatMap_text]
  clear h
  induction ls with
  | nil => rfl
  | cons l ls ih =>
    rw [List.flatMap_cons, bytes_append, List.length_append, ← ih, commentBytes, List.flatMap_cons,
      List.length_append, List.length_replicate, length_bytes]
    rfl

/-- Line breaks stand at the same bytes. -/
theorem getElem?_bytes_maskComments (t : Text) {x : UInt8} (hx : x = 10 ∨ x = 13) (i : Nat) :
    (bytes (maskComments t))[i]? = some x ↔ (bytes t)[i]? = some x := by
  obtain ⟨ls, h⟩ := exists_lexes t
  have hbytes := bytes_flatMap_masked ls
  rw [← h.maskComments, h.flatMap_text] at hbytes
  rw [hbytes, List.getElem?_zipWith]
  rcases hmark : (commentBytes ls)[i]? with _ | mark
  · have hlen := length_commentBytes h
    rw [List.getElem?_eq_none_iff, hlen, ← List.getElem?_eq_none_iff] at hmark
    simp [hmark]
  · rcases (bytes t)[i]? with _ | b
    · simp
    · simp [maskByte_eq_iff hx]

/-! ## All together -/

/-- The masked text holds the pieces of the script at their bytes: code and quoted texts as they were,
comments with a space for each byte that is no line break. -/
structure MasksPieces (t masked : Text) (ls : List Lexeme) : Prop where
  bytes_eq : bytes masked = List.zipWith maskByte (commentBytes ls) (bytes t)
  slice_eq : ∀ before l after, ls = before ++ l :: after →
    slice masked (byteSize (before.flatMap Lexeme.text))
      (byteSize (before.flatMap Lexeme.text) + byteSize l.text) = l.masked

theorem Lexes.masksPieces {t : Text} {ls : List Lexeme} (h : Lexes t ls) :
    MasksPieces t (SchemaReview.maskComments t) ls := by
  constructor
  · rw [h.maskComments, bytes_flatMap_masked, h.flatMap_text]
  · rintro before l after rfl
    have hslice := slice_append (before.flatMap Lexeme.masked) l.masked (after.flatMap Lexeme.masked)
    rw [byteSize_flatMap_masked, byteSize_masked] at hslice
    rw [h.maskComments, List.flatMap_append, List.flatMap_cons, ← List.append_assoc]
    exact hslice

/-- **Masking keeps the script.**  Size, line breaks and lines stay; what is no comment stands where
it was and comments become spaces; a second masking changes nothing, so every detector and the catalog
give the same for the masked script. -/
theorem maskComments_keeps_script (sql : String) :
    byteSize (maskComments sql.toList) = byteSize sql.toList ∧
      (∀ i : Nat, (bytes (maskComments sql.toList))[i]? = some 10 ↔ (bytes sql.toList)[i]? = some 10) ∧
      (∀ i : Nat, (bytes (maskComments sql.toList))[i]? = some 13 ↔ (bytes sql.toList)[i]? = some 13) ∧
      lineRanges (maskComments sql.toList) = lineRanges sql.toList ∧
      (∃ ls, Lexes sql.toList ls) ∧
      (∀ ls, Lexes sql.toList ls → MasksPieces sql.toList (maskComments sql.toList) ls) ∧
      maskComments (maskComments sql.toList) = maskComments sql.toList ∧
      (∀ d : Detector, d.run (String.ofList (maskComments sql.toList)) = d.run sql) ∧
      ∀ c : Catalog, c.read (String.ofList (maskComments sql.toList)) = c.read sql := by
  refine ⟨byteSize_eq_of_blanked (blanked_maskFrom .code _),
    getElem?_bytes_maskComments _ (Or.inl rfl), getElem?_bytes_maskComments _ (Or.inr rfl),
    lineRanges_maskComments _, exists_lexes _, fun ls h => h.masksPieces,
    maskComments_maskComments _, fun d => ?_, fun c => ?_⟩
  · rw [Detector.run, ofString_maskComments, Detector.run]
  · rw [Catalog.read, ofString_maskComments, Catalog.read]

end SchemaReview
