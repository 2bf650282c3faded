import Mathlib.Data.Set.Card
import SchemaReview.Proofs.Source.WrittenLine

/-!
# Proofs.Source.LineIndex — the line index of a text and the number of a byte's line

Every line that is reported comes from the table of line starts and from the number that is looked up in it.

* `BreakEndsAt t e`: a line break of the text ends at the byte, said of the characters around it and without the
  table.  `mem_starts_iff`: behind the first line, lines start exactly where a break ends in front of a byte.
* `searchLines`: the place of a byte in the table is found by halving it.  `searchFrom_answers`: the search hits the
  line that starts at the byte, or says where such a line would stand.  `LineSearch.Answers.number_eq`: either
  answer leads to the number of lines that start at the byte or before it.
* `Source.lineOf_eq_ncard`: the number counts the breaks.  `Source.exists_holdsByte_iff`: no other line holds the
  byte.
* `lineIndex_of_text`: all of it together.
-/

namespace SchemaReview

open Text

/-! ## Where line breaks end -/

/-- A line break of the text ends at the byte: a line feed, behind a carriage return or not, or a carriage return
that no line feed follows. -/
def BreakEndsAt (t : Text) (e : Nat) : Prop :=
  ∃ before c after, t = before ++ c :: after ∧ byteSize before + 1 = e ∧
    (c = '\n' ∨ c = '\r' ∧ after.head? ≠ some '\n')

theorem BreakEndsAt.pos {t : Text} {e : Nat} (h : BreakEndsAt t e) : 0 < e := by
  obtain ⟨before, c, after, -, rfl, -⟩ := h
  exact Nat.succ_pos _

/-- A break ends behind the first character, or it is one of the rest. -/
theorem breakEndsAt_cons {c : Char} {t : Text} {e : Nat} : BreakEndsAt (c :: t) e ↔
    (e = 1 ∧ (c = '\n' ∨ c = '\r' ∧ t.head? ≠ some '\n')) ∨ ∃ o, e = c.utf8Size + o ∧ BreakEndsAt t o := by
  constructor
  · rintro ⟨before, x, after, ht, rfl, hx⟩
    cases before with
    | nil =>
      obtain ⟨rfl, rfl⟩ := List.cons.inj ht
      exact Or.inl ⟨rfl, hx⟩
    | cons y before =>
      obtain ⟨rfl, rfl⟩ := List.cons.inj ht
      exact Or.inr ⟨byteSize before + 1, by rw [byteSize_cons, Nat.add_assoc], before, x, after, rfl, rfl, hx⟩
  · rintro (⟨rfl, hc⟩ | ⟨o, rfl, before, x, after, rfl, rfl, hx⟩)
    · exact ⟨[], c, t, rfl, rfl, hc⟩
    · exact ⟨c :: before, x, after, rfl, by rw [byteSize_cons, Nat.add_assoc], hx⟩

theorem ne_nil_iff_byteSize_pos {t : Text} : t ≠ [] ↔ 0 < byteSize t := by
  cases t with
  | nil => simp
  | cons c t => exact iff_of_true (List.cons_ne_nil c t) (Nat.add_pos_left c.utf8Size_pos _)

/-- The breaks that end in front of a byte of the text, from the first character on. -/
theorem exists_breakEndsAt_cons {c : Char} {t : Text} {offset e : Nat} :
    (∃ o < byteSize (c :: t), e = offset + o ∧ BreakEndsAt (c :: t) o) ↔
      (e = offset + 1 ∧ t ≠ [] ∧ (c = '\n' ∨ c = '\r' ∧ t.head? ≠ some '\n')) ∨
        ∃ o < byteSize t, e = offset + c.utf8Size + o ∧ BreakEndsAt t o := by
  rw [ne_nil_iff_byteSize_pos, byteSize_cons]
  constructor
  · rintro ⟨o, ho, rfl, hbreak⟩
    rcases breakEndsAt_cons.mp hbreak with ⟨rfl, hc⟩ | ⟨o, rfl, hrest⟩
    · have hbytes : c.utf8Size = 1 := by rcases hc with rfl | ⟨rfl, -⟩ <;> rfl
      exact Or.inl ⟨rfl, by omega, hc⟩
    · exact Or.inr ⟨o, by omega, (Nat.add_assoc ..).symm, hrest⟩
  · rintro (⟨rfl, hpos, hc⟩ | ⟨o, ho, rfl, hbreak⟩)
    · have hbytes : c.utf8Size = 1 := by rcases hc with rfl | ⟨rfl, -⟩ <;> rfl
      exact ⟨1, by omega, rfl, breakEndsAt_cons.mpr (Or.inl ⟨rfl, hc⟩)⟩
    · exact ⟨c.utf8Size + o, by omega, Nat.add_assoc .., breakEndsAt_cons.mpr (Or.inr ⟨o, rfl, hbreak⟩)⟩

/-- Lines start where the first one began, and where a break ends in front of a byte of the text. -/
theorem mem_starts_iff {start offset : Nat} (hle : start ≤ offset) (t : Text) (e : Nat) :
    e ∈ (lineRangesFrom start offset t).map LineRange.start ↔
      (e = start ∧ (start < offset ∨ t ≠ [])) ∨ ∃ o < byteSize t, e = offset + o ∧ BreakEndsAt t o := by
  fun_induction lineRangesFrom start offset t with
  | case1 start offset hlt => simp [hlt]
  | case2 start offset hlt => simp [hlt]
  | case3 start offset cs ih =>
    -- a break ends behind the line feed, and none between the two characters
    have hreturn : '\r'.utf8Size = 1 := rfl
    have hfeed : '\n'.utf8Size = 1 := rfl
    rw [List.map_cons, List.mem_cons, ih le_rfl, exists_breakEndsAt_cons, exists_breakEndsAt_cons, hreturn, hfeed]
    simp
  | case4 start offset c cs hnot hbreak ih =>
    have hbytes : c.utf8Size = 1 := by rcases hbreak with rfl | rfl <;> rfl
    have hends : c = '\n' ∨ c = '\r' ∧ cs.head? ≠ some '\n' := by
      refine hbreak.imp_right fun hc => ⟨hc, fun hhead => ?_⟩
      obtain ⟨rest, rfl⟩ := List.head?_eq_some_iff.mp hhead
      exact hnot rest hc rfl
    rw [List.map_cons, List.mem_cons, ih le_rfl, exists_breakEndsAt_cons, hbytes]
    simp [hends]
  | case5 start offset c cs hnot hbreak ih =>
    have hnone : ¬ (c = '\n' ∨ c = '\r' ∧ cs.head? ≠ some '\n') := fun h => hbreak (h.imp_right And.left)
    have hstart : start < offset + c.utf8Size := lt_add_of_le_of_pos hle c.utf8Size_pos
    rw [ih hstart.le, exists_breakEndsAt_cons]
    simp [hnone, hstart]

/-! ## Searching the starts of the lines -/

/-- What a search for a byte among the starts of the lines says. -/
inductive LineSearch where
  /-- The line with this index starts at the byte. -/
  | hit (index : Nat)
  /-- No line does; one that did would have this index. -/
  | miss (index : Nat)

namespace LineSearch

/-- The number of the line that holds the byte.  In front of the first line it is that of the first line. -/
def number : LineSearch → Nat
  | hit i => i + 1
  | miss 0 => 1
  | miss i => i

/-- The lines start where the search says. -/
def Answers (lines : List LineRange) (o : Nat) : LineSearch → Prop
  | hit i => ∃ l, lines[i]? = some l ∧ l.start = o
  | miss i => i ≤ lines.length ∧
      ∀ k l, lines[k]? = some l → (k < i → l.start < o) ∧ (i ≤ k → o < l.start)

end LineSearch

/-- The index in the middle. -/
def middle (lo hi : Nat) : Nat := lo + (hi - lo) / 2

theorem middle_bounds {lo hi : Nat} (h : lo < hi) : lo ≤ middle lo hi ∧ middle lo hi < hi := by
  unfold middle
  omega

/-- Searches the lines from index `lo` up to index `hi`, which is not among them, by halving. -/
def searchFrom (lines : List LineRange) (o lo hi : Nat) (hhi : hi ≤ lines.length) : LineSearch :=
  if h : lo < hi then
    have hmid := middle_bounds h
    have hlength := hmid.2.trans_le hhi
    if lines[middle lo hi].start < o then searchFrom lines o (middle lo hi + 1) hi hhi
    else if o < lines[middle lo hi].start then searchFrom lines o lo (middle lo hi) hlength.le
    else .hit (middle lo hi)
  else .miss lo
termination_by hi - lo

/-- Searches all lines. -/
def searchLines (lines : List LineRange) (o : Nat) : LineSearch := searchFrom lines o 0 lines.length le_rfl

variable {lines : List LineRange} {o : Nat}

theorem start_lt_of_lt (hsorted : lines.Pairwise fun l l' => l.start < l'.start) {i k : Nat} {l l' : LineRange}
    (hik : i < k) (hl : lines[i]? = some l) (hl' : lines[k]? = some l') : l.start < l'.start := by
  obtain ⟨hi, rfl⟩ := List.getElem?_eq_some_iff.mp hl
  obtain ⟨hk, rfl⟩ := List.getElem?_eq_some_iff.mp hl'
  exact List.pairwise_iff_getElem.mp hsorted i k hi hk hik

/-- The search answers right, when the lines in front of `lo` start in front of the byte and those from `hi` on
behind it. -/
theorem searchFrom_answers (hsorted : lines.Pairwise fun l l' => l.start < l'.start) {lo hi : Nat}
    (hhi : hi ≤ lines.length) (hle : lo ≤ hi) (hbefore : ∀ k l, lines[k]? = some l → k < lo → l.start < o)
    (hbehind : ∀ k l, lines[k]? = some l → hi ≤ k → o < l.start) :
    (searchFrom lines o lo hi hhi).Answers lines o := by
  fun_induction searchFrom lines o lo hi hhi with
  | case1 lo hi hhi hlt hmid hlength hless ih =>
    -- the lines up to the middle start in front of the byte
    refine ih hmid.2 (fun k l hl hk => ?_) hbehind
    rcases Nat.lt_succ_iff_lt_or_eq.mp hk with hk | rfl
    · exact (start_lt_of_lt hsorted hk hl (List.getElem?_eq_getElem hlength)).trans hless
    · rwa [← (List.getElem?_eq_some_iff.mp hl).2]
  | case2 lo hi hhi hlt hmid hlength hless hgreater ih =>
    -- the lines from the middle on start behind it
    refine ih hmid.1 hbefore fun k l hl hk => ?_
    rcases Nat.lt_or_eq_of_le hk with hk | rfl
    · exact hgreater.trans (start_lt_of_lt hsorted hk (List.getElem?_eq_getElem hlength) hl)
    · rwa [← (List.getElem?_eq_some_iff.mp hl).2]
  | case3 lo hi hhi hlt hmid hlength hless hgreater =>
    exact ⟨_, List.getElem?_eq_getElem hlength, Nat.le_antisymm (Nat.not_lt.mp hgreater) (Nat.not_lt.mp hless)⟩
  | case4 lo hi hhi hlt =>
    obtain rfl : lo = hi := Nat.le_antisymm hle (Nat.not_lt.mp hlt)
    exact ⟨hhi, fun k l hl => ⟨hbefore k l hl, hbehind k l hl⟩⟩

theorem searchLines_answers (hsorted : lines.Pairwise fun l l' => l.start < l'.start) (o : Nat) :
    (searchLines lines o).Answers lines o := by
  refine searchFrom_answers hsorted le_rfl (Nat.zero_le _) (fun k l _ hk => absurd hk (Nat.not_lt_zero k)) ?_
  intro k l hl hk
  have hlt := (List.getElem?_eq_some_iff.mp hl).1
  omega

/-- The number of lines that start at the byte or before it, when the last of them and the next one are known. -/
theorem countP_start_le_eq (hsorted : lines.Pairwise fun l l' => l.start < l'.start) {n : Nat}
    (hlast : n ≠ 0 → ∃ l, lines[n - 1]? = some l ∧ l.start ≤ o) (hnext : ∀ l, lines[n]? = some l → o < l.start) :
    lines.countP (fun l => decide (l.start ≤ o)) = n := by
  refine Nat.le_antisymm (Nat.le_of_not_lt fun hlt => ?_) ?_
  · have hlength : n < lines.length := hlt.trans_le List.countP_le_length
    have hl : lines[n]? = some lines[n] := List.getElem?_eq_getElem hlength
    exact absurd ((start_le_iff_lt_countP hsorted hl).mpr hlt) (Nat.not_le_of_lt (hnext _ hl))
  · rcases Nat.eq_zero_or_pos n with rfl | hpos
    · exact Nat.zero_le _
    · obtain ⟨l, hl, hle⟩ := hlast hpos.ne'
      have hlt := (start_le_iff_lt_countP hsorted hl).mp hle
      omega

/-- A right answer leads to the number of the line. -/
theorem LineSearch.Answers.number_eq {a : LineSearch} (h : a.Answers lines o)
    (hsorted : lines.Pairwise fun l l' => l.start < l'.start) : a.number = lineNumber lines o := by
  cases a with
  | hit i =>
    obtain ⟨l, hl, rfl⟩ := h
    have hcount := countP_start_le_eq (n := i + 1) hsorted (fun _ => ⟨l, hl, le_rfl⟩)
      fun l' hl' => start_lt_of_lt hsorted (Nat.lt_succ_self i) hl hl'
    rw [lineNumber, hcount, LineSearch.number, max_eq_right (Nat.le_add_left 1 i)]
  | miss i =>
    obtain ⟨hle, hstarts⟩ := h
    have hcount : lines.countP (fun l => decide (l.start ≤ o)) = i := by
      refine countP_start_le_eq hsorted (fun hne => ?_) fun l hl => (hstarts i l hl).2 le_rfl
      have hl : lines[i - 1]? = some lines[i - 1] := List.getElem?_eq_getElem (by omega)
      exact ⟨_, hl, ((hstarts _ _ hl).1 (by omega)).le⟩
    rw [lineNumber, hcount]
    cases i with
    | zero => rfl
    | succ i => exact (max_eq_right (Nat.le_add_left 1 i)).symm

/-! ## The number of a byte's line -/

namespace Source

variable {s : Source}

theorem text_ne_nil_of_lt_size (ho : o < s.size) : s.text ≠ [] :=
  ne_nil_iff_byteSize_pos.mpr (Nat.zero_lt_of_lt ho)

/-- The lines behind the first one start where breaks end. -/
theorem mem_starts_tail_iff {first : LineRange} {ls : List LineRange} (hlines : s.lines = first :: ls)
    (hfirst : first.start = 0) (e : Nat) : e ∈ ls.map LineRange.start ↔ BreakEndsAt s.text e ∧ e < s.size := by
  have hsorted := s.pairwise_lines
  rw [hlines, List.pairwise_cons] at hsorted
  have hmem := mem_starts_iff (le_refl 0) s.text e
  rw [← lineRanges, ← s.lines_eq, hlines, List.map_cons, List.mem_cons, hfirst] at hmem
  constructor
  · intro he
    obtain ⟨l, hl, rfl⟩ := List.mem_map.mp he
    have hpos := hsorted.1 l hl
    rcases hmem.mp (Or.inr he) with ⟨hzero, -⟩ | ⟨o, ho, heq, hbreak⟩
    · omega
    · rw [Nat.zero_add] at heq
      exact ⟨heq ▸ hbreak, heq ▸ ho⟩
  · rintro ⟨hbreak, he⟩
    exact (hmem.mpr (Or.inr ⟨e, he, (Nat.zero_add e).symm, hbreak⟩)).resolve_left hbreak.pos.ne'

/-- The number of a line is one more than the number of breaks in front of the byte. -/
theorem lineOf_eq_ncard (ho : o < s.size) : s.lineOf o = 1 + {e | BreakEndsAt s.text e ∧ e ≤ o}.ncard := by
  obtain ⟨first, ls, hlines, hfirst⟩ := exists_cons_lines (text_ne_nil_of_lt_size ho)
  have hsorted := s.pairwise_lines
  rw [hlines, List.pairwise_cons] at hsorted
  have hnodup : (ls.map LineRange.start).Nodup :=
    List.pairwise_map.mpr (hsorted.2.imp fun hlt => hlt.ne)
  have hset : {e | BreakEndsAt s.text e ∧ e ≤ o} =
      ↑((ls.map LineRange.start).filter fun e => decide (e ≤ o)).toFinset := by
    ext e
    simp only [List.coe_toFinset, List.mem_filter, mem_starts_tail_iff hlines hfirst, Set.mem_ofPred_eq,
      decide_eq_true_eq]
    exact and_congr_left fun he => (and_iff_left (he.trans_lt ho)).symm
  rw [hset, Set.ncard_coe_finset, List.toFinset_card_of_nodup (hnodup.filter _), ← List.countP_eq_length_filter,
    List.countP_map, lineOf_eq (text_ne_nil_of_lt_size ho), hlines, List.countP_cons_of_pos (by simp [hfirst]),
    Nat.add_comm]
  rfl

/-- One line holds the byte, and its number is the one that is reported. -/
theorem exists_holdsByte_iff (h : s.text ≠ []) {n : Nat} : (∃ l, HoldsByte s.text o n l) ↔ n = s.lineOf o := by
  have hlines : lineRanges s.text = s.lines := s.lines_eq.symm
  constructor
  · rintro ⟨l, hl, hle, hnext⟩
    rw [hlines] at hl hnext
    rw [lineOf_eq h]
    exact (countP_start_le_eq s.pairwise_lines (fun _ => ⟨l, hl, hle⟩) hnext).symm
  · rintro rfl
    obtain ⟨l, hl, hle⟩ := getElem?_lineOf h o
    exact ⟨l, hlines ▸ hl, hle, fun l' hl' => lt_start_of_getElem?_lineOf h (hlines ▸ hl')⟩

/-- Behind the text the number is that of the last line. -/
theorem lineOf_of_size_le (ho : s.size ≤ o) : s.lineOf o = if s.text = [] then 1 else s.lineCount := by
  split
  · rename_i hnil
    have hlines : s.lines = [] := by
      rw [s.lines_eq, hnil]
      rfl
    rw [lineOf, hlines]
    rfl
  · rename_i hne
    rw [lineOf_eq hne]
    refine List.countP_eq_length.mpr fun l hl => ?_
    rw [s.lines_eq] at hl
    have hbounds := bounds_of_mem_lineRangesFrom le_rfl hl
    rw [decide_eq_true_eq]
    rw [size] at ho
    omega

/-! ## The index of a text -/

/-- The index lists the written lines of the text, each with its range where it stands. -/
structure ListsLines (s : Source) (ls : List WrittenLine) : Prop where
  reads : ReadsLines s.text ls
  text_eq : s.text = ls.flatMap WrittenLine.written
  /-- Only the last line may lack a line break. -/
  ended : ∀ w ∈ ls.dropLast, w.ending ≠ .scriptEnd
  lines_eq : s.lines = rangesFrom 0 ls
  texts_eq : s.lines.map (fun l => s.slice l.start l.stop) = ls.map WrittenLine.text
  /-- The ranges are disjoint and stand one behind the other. -/
  disjoint : s.lines.Pairwise fun l l' => l.stop < l'.start
  starts_increase : s.lines.Pairwise fun l l' => l.start < l'.start
  start_le_stop : ∀ l ∈ s.lines, l.start ≤ l.stop

/-- Every byte has the number of the line that holds it. -/
structure NumbersBytes (s : Source) : Prop where
  counts_breaks : ∀ o < s.size, s.lineOf o = 1 + {e | BreakEndsAt s.text e ∧ e ≤ o}.ncard
  holdsByte_iff : ∀ o < s.size, ∀ n, (∃ l, HoldsByte s.text o n l) ↔ n = s.lineOf o
  behind_text : ∀ o, s.size ≤ o → s.lineOf o = if s.text = [] then 1 else s.lineCount
  /-- The search through the table finds the place, and whatever a right search answers leads to the number. -/
  search_answers : ∀ o, (searchLines s.lines o).Answers s.lines o
  answers_eq : ∀ o a, LineSearch.Answers s.lines o a → a.number = s.lineOf o
  monotone : Monotone s.lineOf

theorem exists_listsLines (s : Source) : ∃ ls, s.ListsLines ls := by
  obtain ⟨ls, hls⟩ := exists_readsLines s.text
  refine ⟨ls, hls, hls.eq_flatMap_written, fun w hw => hls.ending_ne_scriptEnd hw, ?_, ?_, ?_, s.pairwise_lines, ?_⟩
  · rw [s.lines_eq, hls.lineRanges_eq]
  · rw [s.lines_eq]
    exact hls.map_slice_lineRanges
  · rw [s.lines_eq]
    exact pairwise_stop_lineRangesFrom 0 0 s.text
  · intro l hl
    rw [s.lines_eq] at hl
    exact (bounds_of_mem_lineRangesFrom le_rfl hl).2.2.1

theorem numbersBytes (s : Source) : s.NumbersBytes where
  counts_breaks _ ho := lineOf_eq_ncard ho
  holdsByte_iff _ ho _ := exists_holdsByte_iff (text_ne_nil_of_lt_size ho)
  behind_text _ ho := lineOf_of_size_le ho
  search_answers := searchLines_answers s.pairwise_lines
  answers_eq _ _ h := h.number_eq s.pairwise_lines
  monotone _ _ hle := s.lineOf_mono hle

end Source

/-- **The line index cuts the text into its lines, and every byte has the number of its line**, for every text and
every byte, also behind the end and between the two characters of a line end.  A script has the index of its text,
although its comments are masked before it is indexed. -/
theorem lineIndex_of_text (t : Text) :
    (∃ ls, (Source.ofMasked t).ListsLines ls) ∧ (Source.ofMasked t).NumbersBytes ∧
      (Source.ofText t).lines = (Source.ofMasked t).lines ∧
      (Source.ofText t).lineOf = (Source.ofMasked t).lineOf := by
  have hlines : (Source.ofText t).lines = (Source.ofMasked t).lines := lineRanges_maskComments t
  exact ⟨Source.exists_listsLines _, Source.numbersBytes _, hlines, congrArg lineNumber hlines⟩

-- an empty line, all three line ends, and bytes between two characters and behind the end
example : (lineRanges "\r\né\rc\n".toList).map (fun l => (l.start, l.stop)) = [(0, 0), (2, 4), (5, 6)] ∧
    [0, 1, 2, 3, 4, 5, 6, 7, 8].map (Source.ofText "\r\né\rc\n".toList).lineOf = [1, 1, 2, 2, 2, 3, 3, 3, 3] := by
  decide

end SchemaReview
