import SchemaReview.Proofs.Source.WrittenLine
import SchemaReview.Report.Findings

/-!
# Proofs.Report.ShownLine — the line that a report shows for a finding

A finding has the number of its line in the line index.  The human report cuts the script into lines once more,
at line feeds only, and shows the line with that number.

* `shownLines_of_ne_loneReturn`: the first line is shown as it is, when no lone carriage return ends it.
* `exists_cons_shownLines_loneReturn`: otherwise what is shown first has the carriage return in it.
* `shownLine?_of_not_mem`: without carriage returns every line is shown as it is.
* `shown_line_eq_iff`: the report shows the lines of the index up to the first lone carriage return, and the
  line that it ends not.
-/

namespace SchemaReview.Report

open Text

/-! ## The first line -/

theorem shownLinesFrom_unbroken {u : Text} (hu : ∀ c ∈ u, isLineBreak c = false) (line t : Text) :
    shownLinesFrom line (u ++ t) = shownLinesFrom (u.reverse ++ line) t := by
  induction u generalizing line with
  | nil => rfl
  | cons c u ih =>
    rw [List.forall_mem_cons] at hu
    have hc : c ≠ '\n' := fun h => absurd (h ▸ hu.1) (by decide)
    rw [List.cons_append, shownLinesFrom, if_neg hc, ih hu.2, List.reverse_cons, List.append_assoc,
      List.singleton_append]

/-- The last character of an unbroken line is no carriage return. -/
theorem head?_reverse_ne {u : Text} (hu : ∀ c ∈ u, isLineBreak c = false) : u.reverse.head? ≠ some '\r' := by
  intro h
  have hmem : '\r' ∈ u := List.mem_reverse.mp (List.mem_of_head? h)
  exact absurd (hu _ hmem) (by decide)

/-- The first line is shown as it is, when no lone carriage return ends it. -/
theorem shownLines_of_ne_loneReturn {w : WrittenLine} {t : Text} (hends : w.ending.Before t)
    (hlone : w.ending ≠ .loneReturn) :
    shownLines (w.text ++ (w.ending.text ++ t)) = w.text :: shownLines t := by
  obtain ⟨u, ending, hu, hne⟩ := w
  rw [shownLines, shownLinesFrom_unbroken hu, List.append_nil]
  have hlast := head?_reverse_ne hu
  cases ending with
  | feed =>
    show shownLinesFrom u.reverse ('\n' :: t) = _
    rw [shownLinesFrom, if_pos rfl, if_neg hlast, List.reverse_reverse]
    rfl
  | returnFeed =>
    show shownLinesFrom u.reverse ('\r' :: '\n' :: t) = _
    rw [shownLinesFrom, if_neg (by decide), shownLinesFrom, if_pos rfl, List.head?_cons, if_pos rfl, List.tail_cons,
      List.reverse_reverse]
    rfl
  | loneReturn => exact absurd rfl hlone
  | scriptEnd =>
    obtain rfl : t = [] := hends
    have hempty : u.reverse.isEmpty = false := by simp [hne rfl]
    show shownLinesFrom u.reverse [] = _
    rw [shownLinesFrom, hempty, List.reverse_reverse]
    rfl

/-- A carriage return in the current line is shown, unless the line feed of a line end follows it. -/
theorem exists_cons_shownLinesFrom {line t : Text}
    (h : '\r' ∈ line.tail ∨ ('\r' ∈ line ∧ t.head? ≠ some '\n')) :
    ∃ x xs, shownLinesFrom line t = x :: xs ∧ '\r' ∈ x := by
  have hmem : '\r' ∈ line := h.elim List.mem_of_mem_tail And.left
  induction t generalizing line with
  | nil =>
    have hempty : line.isEmpty = false := List.isEmpty_eq_false_iff.mpr (List.ne_nil_of_mem hmem)
    exact ⟨line.reverse, [], by rw [shownLinesFrom, hempty]; rfl, List.mem_reverse.mpr hmem⟩
  | cons c t ih =>
    rw [shownLinesFrom]
    split
    · rename_i hfeed
      have htail : '\r' ∈ line.tail := h.resolve_right fun h => h.2 (hfeed ▸ rfl)
      refine ⟨_, _, rfl, List.mem_reverse.mpr ?_⟩
      split
      · exact htail
      · exact hmem
    · exact ih (Or.inl hmem) (List.mem_cons_of_mem c hmem)

/-- When a lone carriage return ends the first line, what is shown first has it in it. -/
theorem exists_cons_shownLines_loneReturn {u t : Text} (hu : ∀ c ∈ u, isLineBreak c = false)
    (ht : t.head? ≠ some '\n') : ∃ x xs, shownLines (u ++ '\r' :: t) = x :: xs ∧ '\r' ∈ x := by
  rw [shownLines, shownLinesFrom_unbroken hu, shownLinesFrom, if_neg (by decide)]
  exact exists_cons_shownLinesFrom (Or.inr ⟨List.mem_cons_self, ht⟩)

/-! ## All lines -/

/-- The lines are shown as they are up to the first lone carriage return, and the line that it ends is not. -/
theorem shownLines_eq_iff {t : Text} {ls : List WrittenLine} (h : ReadsLines t ls) (n : Nat) :
    (∀ k < n, ∀ w, ls[k]? = some w → (shownLines t)[k]? = some w.text) ↔
      ∀ k < n, ∀ w, ls[k]? = some w → w.ending ≠ .loneReturn := by
  induction h generalizing n with
  | nil => exact iff_of_true (fun k _ w hw => by cases hw) (fun k _ w hw => by cases hw)
  | @cons w t ls hends h ih =>
    cases n with
    | zero => exact iff_of_true (fun k hk => absurd hk (Nat.not_lt_zero k)) fun k hk => absurd hk (Nat.not_lt_zero k)
    | succ n =>
      rw [Nat.forall_lt_succ_left', Nat.forall_lt_succ_left']
      by_cases hlone : w.ending = .loneReturn
      · -- neither side holds for the first line
        refine iff_of_false (fun hshown => ?_) fun hends' => hends'.1 w rfl hlone
        rw [hlone] at hends hshown
        obtain ⟨x, xs, hx, hreturn⟩ := exists_cons_shownLines_loneReturn w.unbroken hends
        have hfirst : (shownLines (w.text ++ '\r' :: t))[0]? = some w.text := hshown.1 w rfl
        rw [hx] at hfirst
        obtain rfl : x = w.text := Option.some.inj hfirst
        exact absurd (w.unbroken _ hreturn) (by decide)
      · rw [shownLines_of_ne_loneReturn hends hlone]
        refine and_congr (iff_of_true ?_ ?_) (ih n)
        · rintro w' hw'
          obtain rfl := Option.some.inj hw'
          rfl
        · rintro w' hw'
          obtain rfl := Option.some.inj hw'
          exact hlone

theorem shownLine?_succ (t : Text) (k : Nat) : shownLine? t (k + 1) = (shownLines t)[k]? := by
  rw [shownLine?, if_neg k.succ_ne_zero, Nat.add_sub_cancel]

/-- Without carriage returns every line is shown as it is. -/
theorem shownLine?_of_not_mem {t : Text} {ls : List WrittenLine} (h : ReadsLines t ls) (hreturn : '\r' ∉ t)
    {k : Nat} {w : WrittenLine} (hw : ls[k]? = some w) : shownLine? t (k + 1) = some w.text := by
  have hlone : ∀ j < k + 1, ∀ v, ls[j]? = some v → v.ending ≠ .loneReturn := by
    intro j _ v hv hending
    have hmem : '\r' ∈ v.ending.text := by
      rw [hending]
      exact List.mem_singleton_self _
    exact hreturn (h.mem_of_mem_ending (List.mem_of_getElem? hv) hmem)
  rw [shownLine?_succ]
  exact (shownLines_eq_iff h (k + 1)).mpr hlone k (Nat.lt_succ_self k) w hw

/-- **The report shows the lines of the script up to the first lone carriage return.**  For every script and every
number of lines, each of the first lines of the index is shown under its number, as it stands in the script and
without its end, if and only if none of them ends with a carriage return that no line feed follows. -/
theorem shown_line_eq_iff (sql : String) (n : Nat) :
    (∀ k < n, ∀ l, (Source.ofString sql).lines[k]? = some l →
        shownLine? sql.toList (k + 1) = some (slice sql.toList l.start l.stop)) ↔
      ∀ k < n, ∀ l, (Source.ofString sql).lines[k]? = some l → ¬ LoneReturnAt sql.toList l.stop := by
  have hlines : (Source.ofString sql).lines = lineRanges sql.toList := lineRanges_maskComments sql.toList
  obtain ⟨ls, hls⟩ := exists_readsLines sql.toList
  rw [hlines]
  refine Iff.trans (hls.forall_lines_iff (fun k l w behind hstands => ?_) n) ((shownLines_eq_iff hls n).trans
    (hls.forall_lines_iff (fun k l w behind hstands => ?_) n).symm)
  · rw [shownLine?_succ, hstands.slice_eq]
  · rw [Ne, ← hstands.loneReturnAt_iff]

/-- A table whose lines end with lone carriage returns. -/
def returnScript : String := "CREATE TABLE t (\r  id INT PRIMARY KEY\r);"

/-- No line is shown for a finding on the second of three lines. -/
theorem lone_return_line_not_shown : (Source.ofString returnScript).lineCount = 3 ∧
    (Source.ofString returnScript).lines[1]? = some ⟨17, 37⟩ ∧ shownLine? returnScript.toList 2 = none := by
  decide +kernel

end SchemaReview.Report
