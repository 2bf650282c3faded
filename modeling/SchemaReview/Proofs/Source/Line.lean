import SchemaReview.Proofs.Source.Comment

/-!
# Proofs.Source.Line — where lines start

* `bounds_of_mem_lineRangesFrom`: lines start and end inside the text.
  `exists_prefix_of_mem_lineRangesFrom`: they start between two characters.
* `pairwise_stop_lineRangesFrom`: a line ends in front of the lines behind it.
* `start_le_iff_lt_countP`: when lines start one behind the other, those that start at a byte or before it are the
  first ones.
* `Source.lineOf_pos`, `Source.lineOf_le_lineCount`: in a text that is not empty every byte is on one of
  the lines.
* `HoldsByte t o number l`: the line starts at the byte or before it, and the next one behind it.
  `Source.getElem?_lineOf`, `Source.lt_start_of_getElem?_lineOf`: so does the line of the byte.
-/

namespace SchemaReview

open Text

/-! ## The ranges of the lines -/

variable {start offset : Nat} {t : Text}

/-- A line starts inside the text, and ends at its start or behind it. -/
theorem bounds_of_mem_lineRangesFrom {l : LineRange} (hle : start ≤ offset)
    (h : l ∈ lineRangesFrom start offset t) :
    start ≤ l.start ∧ l.start < offset + byteSize t ∧ l.start ≤ l.stop ∧ l.stop ≤ offset + byteSize t := by
  fun_induction lineRangesFrom start offset t with
  | case1 start offset hlt =>
    obtain rfl := List.mem_singleton.mp h
    exact ⟨le_rfl, Nat.lt_add_right _ hlt, hle, Nat.le_add_right ..⟩
  | case2 => cases h
  | case3 start offset cs ih =>
    have hbytes : '\r'.utf8Size = 1 ∧ '\n'.utf8Size = 1 := ⟨rfl, rfl⟩
    rw [byteSize_cons, byteSize_cons]
    rcases List.mem_cons.mp h with rfl | h
    · dsimp only
      omega
    · have := ih le_rfl h
      omega
  | case4 start offset c cs hnot hbreak ih =>
    have hbytes : c.utf8Size = 1 := by rcases hbreak with rfl | rfl <;> rfl
    rw [byteSize_cons]
    rcases List.mem_cons.mp h with rfl | h
    · dsimp only
      omega
    · have := ih le_rfl h
      omega
  | case5 start offset c cs hnot hbreak ih =>
    rw [byteSize_cons, ← Nat.add_assoc]
    exact ih (Nat.le_add_right_of_le hle) h

/-- A line ends in front of the lines behind it. -/
theorem pairwise_stop_lineRangesFrom (start offset : Nat) (t : Text) :
    (lineRangesFrom start offset t).Pairwise fun l l' => l.stop < l'.start := by
  fun_induction lineRangesFrom start offset t with
  | case1 => exact List.pairwise_singleton _ _
  | case2 => exact .nil
  | case3 start offset cs ih =>
    refine List.pairwise_cons.mpr ⟨fun l hl => ?_, ih⟩
    have := bounds_of_mem_lineRangesFrom le_rfl hl
    dsimp only
    omega
  | case4 start offset c cs hnot hbreak ih =>
    refine List.pairwise_cons.mpr ⟨fun l hl => ?_, ih⟩
    have := bounds_of_mem_lineRangesFrom le_rfl hl
    dsimp only
    omega
  | case5 start offset c cs hnot hbreak ih => exact ih

/-- Lines start one behind the other. -/
theorem pairwise_lineRangesFrom (hle : start ≤ offset) :
    (lineRangesFrom start offset t).Pairwise fun l l' => l.start < l'.start :=
  (pairwise_stop_lineRangesFrom start offset t).imp_of_mem fun hl _ hlt =>
    (bounds_of_mem_lineRangesFrom hle hl).2.2.1.trans_lt hlt

/-- There is a first line, and it starts where it began. -/
theorem exists_cons_lineRangesFrom (hle : start ≤ offset) (h : start < offset ∨ t ≠ []) :
    ∃ l ls, lineRangesFrom start offset t = l :: ls ∧ l.start = start := by
  fun_induction lineRangesFrom start offset t with
  | case1 start offset hlt => exact ⟨_, _, rfl, rfl⟩
  | case2 start offset hlt => exact absurd h (by simpa using hlt)
  | case3 start offset cs ih => exact ⟨_, _, rfl, rfl⟩
  | case4 start offset c cs hnot hbreak ih => exact ⟨_, _, rfl, rfl⟩
  | case5 start offset c cs hnot hbreak ih =>
    have := c.utf8Size_pos
    exact ih (by omega) (Or.inl (by omega))

/-- A line starts between two characters of the text. -/
theorem exists_prefix_of_mem_lineRangesFrom {before mid : Text} {l : LineRange}
    (hstart : byteSize before = start) (hoffset : byteSize (before ++ mid) = offset)
    (h : l ∈ lineRangesFrom start offset t) :
    ∃ u v, before ++ mid ++ t = u ++ v ∧ byteSize u = l.start := by
  fun_induction lineRangesFrom start offset t generalizing before mid with
  | case1 start offset hlt =>
    obtain rfl := List.mem_singleton.mp h
    exact ⟨before, mid ++ [], List.append_assoc .., hstart⟩
  | case2 => cases h
  | case3 start offset cs ih =>
    rcases List.mem_cons.mp h with rfl | h
    · exact ⟨before, mid ++ '\r' :: '\n' :: cs, List.append_assoc .., hstart⟩
    · have hnext : byteSize (before ++ mid ++ ['\r', '\n']) = offset + 2 := by
        rw [byteSize_append, hoffset]
        rfl
      obtain ⟨u, v, huv, hu⟩ := @ih _ [] hnext (by rw [List.append_nil, hnext]) h
      exact ⟨u, v, by simpa using huv, hu⟩
  | case4 start offset c cs hnot hbreak ih =>
    rcases List.mem_cons.mp h with rfl | h
    · exact ⟨before, mid ++ c :: cs, List.append_assoc .., hstart⟩
    · have hbytes : c.utf8Size = 1 := by rcases hbreak with rfl | rfl <;> rfl
      have hnext : byteSize (before ++ mid ++ [c]) = offset + 1 := by
        rw [byteSize_append, hoffset, byteSize_cons, hbytes, byteSize_nil]
      obtain ⟨u, v, huv, hu⟩ := @ih _ [] hnext (by rw [List.append_nil, hnext]) h
      exact ⟨u, v, by simpa using huv, hu⟩
  | case5 start offset c cs hnot hbreak ih =>
    have hnext : byteSize (before ++ (mid ++ [c])) = offset + c.utf8Size := by
      rw [← List.append_assoc, byteSize_append, hoffset, byteSize_cons, byteSize_nil, Nat.add_zero]
    obtain ⟨u, v, huv, hu⟩ := ih hstart hnext h
    exact ⟨u, v, by simpa using huv, hu⟩

/-! ## The line of a byte -/

/-- When lines start one behind the other, those that start at the byte or before it are the first ones. -/
theorem start_le_iff_lt_countP {lines : List LineRange} (hsorted : lines.Pairwise fun l l' => l.start < l'.start)
    {o k : Nat} {l : LineRange} (hl : lines[k]? = some l) :
    l.start ≤ o ↔ k < lines.countP fun l => decide (l.start ≤ o) := by
  induction lines generalizing k with
  | nil => cases hl
  | cons first lines ih =>
    rw [List.pairwise_cons] at hsorted
    by_cases hfirst : first.start ≤ o
    · rw [List.countP_cons_of_pos (by simpa using hfirst)]
      cases k with
      | zero =>
        obtain rfl := Option.some.inj hl
        exact iff_of_true hfirst (Nat.succ_pos _)
      | succ k => exact (ih hsorted.2 hl).trans Nat.succ_lt_succ_iff.symm
    · -- none of the lines starts so early
      have hbehind : ∀ l' ∈ first :: lines, o < l'.start := by
        intro l' hl'
        rcases List.mem_cons.mp hl' with rfl | hl'
        · exact Nat.lt_of_not_le hfirst
        · exact (Nat.lt_of_not_le hfirst).trans (hsorted.1 l' hl')
      have hnone : (first :: lines).countP (fun l => decide (l.start ≤ o)) = 0 :=
        List.countP_eq_zero.mpr fun l' hl' => by simpa using hbehind l' hl'
      rw [hnone]
      exact iff_of_false (Nat.not_le_of_lt (hbehind l (List.mem_of_getElem? hl))) (Nat.not_lt_zero k)

/-- The line of the text that holds the byte: it starts at the byte or before it, and the next one behind it. -/
structure HoldsByte (t : Text) (o number : Nat) (l : LineRange) : Prop where
  getElem?_eq : (lineRanges t)[number - 1]? = some l
  start_le : l.start ≤ o
  lt_next : ∀ l', (lineRanges t)[number]? = some l' → o < l'.start

namespace Source

variable {s : Source}

theorem exists_cons_lines (h : s.text ≠ []) : ∃ l ls, s.lines = l :: ls ∧ l.start = 0 := by
  rw [s.lines_eq]
  exact exists_cons_lineRangesFrom le_rfl (Or.inr h)

theorem pairwise_lines (s : Source) : s.lines.Pairwise fun l l' => l.start < l'.start := by
  rw [s.lines_eq]
  exact pairwise_lineRangesFrom le_rfl

/-- The number of lines that start at the byte or before it. -/
theorem lineOf_eq (h : s.text ≠ []) (o : Nat) :
    s.lineOf o = s.lines.countP fun l => decide (l.start ≤ o) := by
  obtain ⟨l, ls, hlines, hl⟩ := exists_cons_lines h
  have hfirst : 0 < s.lines.countP fun l => decide (l.start ≤ o) :=
    List.countP_pos_iff.mpr ⟨l, by simp [hlines], by simp [hl]⟩
  exact max_eq_right hfirst

theorem lineOf_pos (s : Source) (o : Nat) : 1 ≤ s.lineOf o := le_max_left ..

theorem lineOf_le_lineCount (h : s.text ≠ []) (o : Nat) : s.lineOf o ≤ s.lineCount := by
  rw [lineOf_eq h]
  exact List.countP_le_length

/-- Later bytes do not stand on earlier lines. -/
theorem lineOf_mono (s : Source) {i j : Nat} (h : i ≤ j) : s.lineOf i ≤ s.lineOf j := by
  unfold lineOf lineNumber
  have hcount : s.lines.countP (fun l => decide (l.start ≤ i)) ≤
      s.lines.countP (fun l => decide (l.start ≤ j)) := by
    refine List.countP_mono_left fun l _ hl => ?_
    simp only [decide_eq_true_eq] at hl ⊢
    exact hl.trans h
  omega

/-- The lines that start at a byte or before it are the first ones, up to its line. -/
theorem start_le_iff (h : s.text ≠ []) {o k : Nat} {l : LineRange} (hl : s.lines[k]? = some l) :
    l.start ≤ o ↔ k < s.lineOf o := by
  rw [lineOf_eq h]
  exact start_le_iff_lt_countP s.pairwise_lines hl

/-- The line of a byte starts at or before it. -/
theorem getElem?_lineOf (h : s.text ≠ []) (o : Nat) :
    ∃ l, s.lines[s.lineOf o - 1]? = some l ∧ l.start ≤ o := by
  have hpos := s.lineOf_pos o
  have hcount : s.lineOf o ≤ s.lines.length := lineOf_le_lineCount h o
  have hl : s.lines[s.lineOf o - 1]? = some s.lines[s.lineOf o - 1] := List.getElem?_eq_getElem (by omega)
  exact ⟨_, hl, (start_le_iff h hl).mpr (by omega)⟩

/-- The next line starts behind it. -/
theorem lt_start_of_getElem?_lineOf (h : s.text ≠ []) {o : Nat} {l : LineRange}
    (hl : s.lines[s.lineOf o]? = some l) : o < l.start :=
  Nat.lt_of_not_le fun hle => Nat.lt_irrefl _ ((start_le_iff h hl).mp hle)

end Source

end SchemaReview
