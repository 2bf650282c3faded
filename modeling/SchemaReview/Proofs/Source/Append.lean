import SchemaReview.Proofs.Source.Line

/-!
# Proofs.Source.Append — a script in front of another one

When the first script ends with a line feed, masking and the index of lines treat the two scripts one
after the other.

* `Lexical.after state t`: the lexical state in which masking leaves `t`.  `maskFrom_append`: the second
  script is masked from there on, when no mark is cut at the join (`Seam`).
* `Shift`: how far the second script is moved, in bytes and in lines.
* `Source.lineOf_append_left`, `Source.lineOf_append_right`: lines of the first script stay, and those of
  the second are counted on.  `Source.spanAt_append`: so spans move, and their columns stay.
-/

namespace SchemaReview

open Text

/-! ## Masking -/

/-- The lexical state behind a text. -/
def Lexical.after : Lexical → Text → Lexical
  | state, [] => state
  | .code, '-' :: '-' :: cs => after .lineComment cs
  | .code, '/' :: '*' :: cs => after .blockComment cs
  | .code, c :: cs => after (if isQuote c then .quoted c else .code) cs
  | .quoted q, c :: cs => after (if c = q then .code else .quoted q) cs
  | .lineComment, c :: cs => after (if isLineBreak c then .code else .lineComment) cs
  | .blockComment, '*' :: '/' :: cs => after .code cs
  | .blockComment, _ :: cs => after .blockComment cs

/-- The text is empty or ends with a line feed, so that no mark of two characters is cut behind it. -/
def EndsLine (t : Text) : Prop := ∀ c ∈ t.getLast?, c = '\n'

namespace EndsLine

theorem tail {c : Char} {t : Text} (h : EndsLine (c :: t)) : EndsLine t := by
  intro d hd
  refine h d ?_
  rw [Option.mem_def] at hd ⊢
  rw [List.getLast?_cons, hd]
  rfl

theorem cons {c : Char} {t : Text} (h : EndsLine t) (hc : t = [] → c = '\n') : EndsLine (c :: t) := by
  intro d hd
  cases t with
  | nil =>
    obtain rfl : c = d := by simpa using hd
    exact hc rfl
  | cons x t =>
    rw [List.getLast?_cons_cons] at hd
    exact h d hd

theorem of_append {s t : Text} (h : EndsLine (s ++ t)) : EndsLine t := by
  induction s with
  | nil => exact h
  | cons c s ih => exact ih h.tail

theorem eq_lineFeed {c : Char} (h : EndsLine [c]) : c = '\n' := h c rfl

end EndsLine

/-- A mark that opens or closes a comment. -/
def commentMarks : List Text := [['-', '-'], ['/', '*'], ['*', '/']]

/-- No mark of two characters begins in the first text and ends in the second one. -/
def Seam (a b : Text) : Prop := ∀ x ∈ a.getLast?, ∀ y ∈ b.head?, [x, y] ∉ commentMarks

namespace Seam

theorem tail {c : Char} {t u : Text} (h : Seam (c :: t) u) : Seam t u := by
  intro x hx
  refine h x ?_
  rw [Option.mem_def] at hx ⊢
  rw [List.getLast?_cons, hx]
  rfl

/-- A mark of two characters in the two texts stands in the first one. -/
theorem exists_of_cons_append {c x : Char} {t u cs : Text} (h : Seam (c :: t) u)
    (hmark : [c, x] ∈ commentMarks) (hcons : t ++ u = x :: cs) : ∃ v, t = x :: v ∧ cs = v ++ u := by
  rcases List.append_eq_cons_iff.mp hcons with ⟨rfl, rfl⟩ | hfirst
  · exact absurd hmark (h c rfl x rfl)
  · exact hfirst

/-- What ends with a character of no mark may stand in front of anything. -/
theorem of_getLast {a : Text} (h : ∀ x ∈ a.getLast?, x ∉ ['-', '/', '*']) (b : Text) : Seam a b := by
  intro x hx y _
  have hnot := h x hx
  simp only [List.mem_cons, List.not_mem_nil, or_false, not_or] at hnot
  simp [commentMarks, hnot]

/-- What begins with a character of no mark may stand behind anything. -/
theorem of_head {b : Text} (h : ∀ y ∈ b.head?, y ∉ ['-', '/', '*']) (a : Text) : Seam a b := by
  intro x _ y hy
  have hnot := h y hy
  simp only [List.mem_cons, List.not_mem_nil, or_false, not_or] at hnot
  simp [commentMarks, hnot]

end Seam

theorem EndsLine.seam {a : Text} (h : EndsLine a) (b : Text) : Seam a b :=
  .of_getLast (fun x hx => by rw [h x hx]; decide) b

theorem maskFrom_append (state : Lexical) {a b : Text} (h : Seam a b) :
    maskFrom state (a ++ b) = maskFrom state a ++ maskFrom (state.after a) b := by
  fun_induction maskFrom state a with
  | case1 state => rw [List.nil_append, List.nil_append, Lexical.after]
  | case2 cs ih | case3 cs ih | case7 cs ih =>
    rw [List.cons_append, List.cons_append, maskFrom, Lexical.after, ih h.tail.tail]
    rfl
  | case4 c cs hdash hstar ih =>
    have hnot : ¬ OpensComment (c :: (cs ++ b)) := by
      rintro (⟨v, hv⟩ | ⟨v, hv⟩)
      · obtain ⟨rfl, hrest⟩ := List.cons_eq_cons.mp hv
        obtain ⟨w, rfl, -⟩ := h.exists_of_cons_append (by decide) hrest.symm
        exact hdash w rfl rfl
      · obtain ⟨rfl, hrest⟩ := List.cons_eq_cons.mp hv
        obtain ⟨w, rfl, -⟩ := h.exists_of_cons_append (by decide) hrest.symm
        exact hstar w rfl rfl
    rw [List.cons_append, maskFrom_code_cons hnot, ih h.tail, Lexical.after, List.cons_append]
    · exact hdash
    · exact hstar
  | case5 q c cs ih => rw [List.cons_append, maskFrom, Lexical.after, ih h.tail, List.cons_append]
  | case6 c cs ih => rw [List.cons_append, maskFrom, Lexical.after, ih h.tail, List.append_assoc]
  | case8 c cs hslash ih =>
    have hnot : ¬ ['*', '/'] <+: c :: (cs ++ b) := by
      rintro ⟨v, hv⟩
      obtain ⟨rfl, hrest⟩ := List.cons_eq_cons.mp hv
      obtain ⟨w, rfl, -⟩ := h.exists_of_cons_append (by decide) hrest.symm
      exact hslash w rfl rfl
    rw [List.cons_append, maskFrom_blockComment_cons hnot, ih h.tail, Lexical.after, List.append_assoc]
    exact hslash

/-- What stands behind code is masked as if it stood alone. -/
theorem maskComments_append {a : Text} (h : EndsLine a) (hcode : Lexical.code.after a = .code)
    (b : Text) : maskComments (a ++ b) = maskComments a ++ maskComments b := by
  rw [maskComments, maskFrom_append .code (h.seam b), hcode]
  rfl

/-- A text ends with a line feed when its masked form does. -/
theorem endsLine_of_blanked {t u : Text} (h : Blanked t u) (hu : EndsLine u) : EndsLine t := by
  have hnil : ∀ {u : Text}, Blanked [] u → u = [] := by
    intro u h
    cases h
    rfl
  induction h with
  | nil => exact hu
  | @keep c t u h ih =>
    refine .cons (ih hu.tail) ?_
    rintro rfl
    rw [hnil h] at hu
    exact hu.eq_lineFeed
  | @blank c t u hc h ih =>
    refine .cons (ih hu.of_append) ?_
    rintro rfl
    -- the last character would be one of the spaces
    obtain ⟨n, hn⟩ : ∃ n, c.utf8Size = n + 1 := ⟨c.utf8Size - 1, by have := c.utf8Size_pos; omega⟩
    rw [hnil h, List.append_nil, hn, List.replicate_succ'] at hu
    exact absurd hu.of_append.eq_lineFeed (by decide)

/-! ## Lines -/

/-- The line where the text stands `n` bytes further on. -/
def LineRange.shift (n : Nat) (l : LineRange) : LineRange := ⟨n + l.start, n + l.stop⟩

theorem lineRangesFrom_shift (n start offset : Nat) (t : Text) :
    lineRangesFrom (n + start) (n + offset) t = (lineRangesFrom start offset t).map (.shift n) := by
  fun_induction lineRangesFrom start offset t with
  | case1 start offset hlt => rw [lineRangesFrom, if_pos (by omega)]; rfl
  | case2 start offset hlt => rw [lineRangesFrom, if_neg (by omega)]; rfl
  | case3 start offset cs ih =>
    rw [lineRangesFrom, Nat.add_assoc, ih]
    rfl
  | case4 start offset c cs hnot hbreak ih =>
    rw [lineRangesFrom, if_pos hbreak, Nat.add_assoc, ih]
    · rfl
    · exact hnot
  | case5 start offset c cs hnot hbreak ih =>
    rw [lineRangesFrom, if_neg hbreak, Nat.add_assoc, ih]
    exact hnot

theorem lineRangesFrom_append {a : Text} (h : EndsLine a) (b : Text) {start offset : Nat}
    (hnil : a = [] → start = offset) :
    lineRangesFrom start offset (a ++ b) = lineRangesFrom start offset a ++
      lineRangesFrom (offset + byteSize a) (offset + byteSize a) b := by
  fun_induction lineRangesFrom start offset a with
  | case1 start offset hlt => exact absurd (hnil rfl) (by omega)
  | case2 start offset hlt =>
    rw [hnil rfl]
    rfl
  | case3 start offset cs ih =>
    have hsize : offset + byteSize ('\r' :: '\n' :: cs) = offset + 2 + byteSize cs := by
      have hbytes : '\r'.utf8Size = 1 ∧ '\n'.utf8Size = 1 := ⟨rfl, rfl⟩
      rw [byteSize_cons, byteSize_cons]
      omega
    rw [hsize, List.cons_append, List.cons_append, lineRangesFrom, ih h.tail.tail fun _ => rfl]
    rfl
  | case4 start offset c cs hnot hbreak ih =>
    have hsize : offset + byteSize (c :: cs) = offset + 1 + byteSize cs := by
      have hbytes : c.utf8Size = 1 := by rcases hbreak with rfl | rfl <;> rfl
      rw [byteSize_cons]
      omega
    rw [hsize, List.cons_append, lineRangesFrom, if_pos hbreak, ih h.tail fun _ => rfl]
    · rfl
    · rintro v rfl hrest
      rcases List.append_eq_cons_iff.mp hrest with ⟨rfl, -⟩ | ⟨w, hw, -⟩
      · exact absurd h.eq_lineFeed (by decide)
      · exact hnot w rfl hw
  | case5 start offset c cs hnot hbreak ih =>
    have hcs : cs ≠ [] := by
      rintro rfl
      exact hbreak (Or.inl h.eq_lineFeed)
    rw [byteSize_cons, ← Nat.add_assoc, List.cons_append, lineRangesFrom, if_neg hbreak,
      ih h.tail fun hnil => absurd hnil hcs]
    rintro v rfl -
    exact hbreak (Or.inr rfl)

/-- The lines of the second text follow those of the first. -/
theorem lineRanges_append {a : Text} (h : EndsLine a) (b : Text) :
    lineRanges (a ++ b) = lineRanges a ++ (lineRanges b).map (.shift (byteSize a)) := by
  have hshift := lineRangesFrom_shift (byteSize a) 0 0 b
  rw [lineRanges, lineRangesFrom_append h b fun _ => rfl, Nat.zero_add, ← lineRanges]
  exact congrArg _ hshift

/-! ## Positions -/

/-- How far a text is moved. -/
structure Shift where
  bytes : Nat
  lines : Nat
deriving DecidableEq, Repr

/-- The span where the text stands further on. -/
def Span.shift (d : Shift) (s : Span) : Span :=
  { s with offset := d.bytes + s.offset, line := d.lines + s.line }

theorem dropBytes_append_add (a b : Text) (n : Nat) :
    dropBytes (byteSize a + n) (a ++ b) = dropBytes n b := by
  induction a with
  | nil => rw [byteSize_nil, Nat.zero_add, List.nil_append]
  | cons c a ih =>
    have hpos := c.utf8Size_pos
    have hrest : c.utf8Size + byteSize a + n - c.utf8Size = byteSize a + n := by omega
    rw [byteSize_cons, List.cons_append, dropBytes, if_neg (by omega), hrest, ih]

namespace Source

/-- How far a text is moved behind `a`. -/
def shiftOf (a : Text) : Shift := ⟨byteSize a, (ofMasked a).lineCount⟩

variable {a b : Text} (h : EndsLine a)

include h

theorem lines_append : (ofMasked (a ++ b)).lines =
    (ofMasked a).lines ++ (ofMasked b).lines.map (LineRange.shift (byteSize a)) :=
  lineRanges_append h b

/-- The bytes of the first text stay on their lines. -/
theorem lineOf_append_left {o : Nat} (ho : o < byteSize a) :
    (ofMasked (a ++ b)).lineOf o = (ofMasked a).lineOf o := by
  have hnone : ∀ l ∈ (ofMasked b).lines.map (LineRange.shift (byteSize a)),
      ¬ decide (l.start ≤ o) = true := by
    intro l hl
    obtain ⟨l, -, rfl⟩ := List.mem_map.mp hl
    have hbehind : byteSize a ≤ (l.shift (byteSize a)).start := Nat.le_add_right _ _
    rw [decide_eq_true_eq]
    omega
  rw [lineOf, lines_append h, lineNumber, List.countP_append, List.countP_eq_zero.mpr hnone]
  rfl

/-- The lines of the second text are counted on. -/
theorem lineOf_append_right (hb : b ≠ []) (o : Nat) :
    (ofMasked (a ++ b)).lineOf (byteSize a + o) = (shiftOf a).lines + (ofMasked b).lineOf o := by
  have hall : (ofMasked a).lines.countP (fun l => decide (l.start ≤ byteSize a + o)) =
      (ofMasked a).lineCount := by
    refine List.countP_eq_length.mpr fun l hl => ?_
    have := bounds_of_mem_lineRangesFrom le_rfl hl
    rw [decide_eq_true_eq]
    omega
  have hshift : ((ofMasked b).lines.map (LineRange.shift (byteSize a))).countP
      (fun l => decide (l.start ≤ byteSize a + o)) =
        (ofMasked b).lines.countP fun l => decide (l.start ≤ o) := by
    simp [List.countP_map, LineRange.shift, Function.comp_def]
  have hne : (ofMasked (a ++ b)).text ≠ [] := List.append_ne_nil_of_right_ne_nil _ hb
  rw [lineOf_eq hne, lineOf_eq (s := ofMasked b) hb, lines_append h, List.countP_append, hall, hshift]
  rfl

theorem lineStart_append {n : Nat} (hpos : 1 ≤ n) (hle : n ≤ (ofMasked b).lineCount) :
    lineStart (ofMasked (a ++ b)).lines ((shiftOf a).lines + n) =
      byteSize a + lineStart (ofMasked b).lines n := by
  obtain ⟨l, hl⟩ : ∃ l, (ofMasked b).lines[n - 1]? = some l :=
    ⟨_, List.getElem?_eq_getElem (show n - 1 < (ofMasked b).lines.length by
      rw [lineCount] at hle
      omega)⟩
  have hindex : (shiftOf a).lines + n - 1 = (ofMasked a).lines.length + (n - 1) := by
    show (ofMasked a).lines.length + n - 1 = _
    omega
  have hmoved : (ofMasked (a ++ b)).lines[(shiftOf a).lines + n - 1]? = some (l.shift (byteSize a)) := by
    rw [lines_append h, hindex, List.getElem?_append_right (Nat.le_add_right _ _),
      Nat.add_sub_cancel_left, List.getElem?_map, hl]
    rfl
  rw [lineStart, lineStart, hmoved, hl]
  rfl

/-- A span in the second text moves with it. -/
theorem spanAt_append (hb : b ≠ []) (o length : Nat) :
    (ofMasked (a ++ b)).spanAt (byteSize a + o) length =
      ((ofMasked b).spanAt o length).shift (shiftOf a) := by
  have hstart := lineStart_append (b := b) h ((ofMasked b).lineOf_pos o)
    (lineOf_le_lineCount (s := ofMasked b) hb o)
  have hcolumn : ∀ i j, (ofMasked (a ++ b)).slice (byteSize a + i) (byteSize a + j) =
      (ofMasked b).slice i j := by
    intro i j
    have hlength : byteSize a + j - (byteSize a + i) = j - i := by omega
    rw [slice, Text.slice, hlength]
    exact congrArg _ (dropBytes_append_add a b i)
  simp only [spanAt, Span.shift, lineOf_append_right h hb, hstart, hcolumn]
  rfl

end Source

end SchemaReview
