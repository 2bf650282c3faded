import SchemaReview.Proofs.Source.Line
import SchemaReview.Proofs.Text.Slice

/-!
# Proofs.Source.WrittenLine — the lines of a script and how they end

* `ReadsLines t ls`: the script `t` read from left to right into lines, each with its end.  The rules say what
  ends a line; neither the line index nor a report is mentioned.  Every script can be read so
  (`exists_readsLines`), and nothing of it is lost between the lines (`ReadsLines.eq_flatMap_written`).
* `ReadsLines.lineRanges_eq`: the line index has these lines, in this order.  Its ranges cut them out of the script
  (`ReadsLines.map_slice_lineRanges`).
* `WrittenLine.StandsAt`: where a line of the index stands in the script, and what stands behind it
  (`ReadsLines.standsAt`).
-/

namespace SchemaReview

open Text

/-! ## Reading a script line by line -/

/-- How a line ends. -/
inductive LineEnd where
  /-- With a line feed. -/
  | feed
  /-- With a carriage return and a line feed. -/
  | returnFeed
  /-- With a carriage return that no line feed follows. -/
  | loneReturn
  /-- With the script. -/
  | scriptEnd
deriving DecidableEq

namespace LineEnd

/-- The end as written. -/
def text : LineEnd → Text
  | feed => ['\n']
  | returnFeed => ['\r', '\n']
  | loneReturn => ['\r']
  | scriptEnd => []

/-- What may stand behind such an end. -/
def Before : LineEnd → Text → Prop
  | loneReturn, t => t.head? ≠ some '\n'
  | scriptEnd, t => t = []
  | _, _ => True

end LineEnd

/-- A line with its end. -/
structure WrittenLine where
  text : Text
  ending : LineEnd
  unbroken : ∀ c ∈ text, isLineBreak c = false
  /-- A line end at the end of the script begins no other line. -/
  ne_nil : ending = .scriptEnd → text ≠ []

/-- The script reads as these lines. -/
inductive ReadsLines : Text → List WrittenLine → Prop
  | nil : ReadsLines [] []
  | cons {w : WrittenLine} {t : Text} {ls : List WrittenLine} (hends : w.ending.Before t) (h : ReadsLines t ls) :
      ReadsLines (w.text ++ (w.ending.text ++ t)) (w :: ls)

/-- A text is cut in front of its first line break, or at its end. -/
theorem exists_unbroken (t : Text) : ∃ u after, t = u ++ after ∧ (∀ c ∈ u, isLineBreak c = false) ∧
    (after = [] ∨ ∃ c rest, after = c :: rest ∧ (c = '\n' ∨ c = '\r')) := by
  obtain ⟨u, after, ht, hu, hafter⟩ := exists_lineBreak t
  refine ⟨u, after, ht, hu, ?_⟩
  cases after with
  | nil => exact Or.inl rfl
  | cons c rest => exact Or.inr ⟨c, rest, rfl, isLineBreak_iff.mp (hafter c rfl)⟩

/-- Every script can be read line by line. -/
theorem exists_readsLines (t : Text) : ∃ ls, ReadsLines t ls := by
  induction hlen : t.length using Nat.strongRecOn generalizing t with
  | _ n ih =>
    subst hlen
    obtain ⟨u, after, rfl, hu, rfl | ⟨c, rest, rfl, hc⟩⟩ := exists_unbroken t
    · by_cases hnil : u = []
      · subst hnil
        exact ⟨[], .nil⟩
      · let w : WrittenLine := ⟨u, .scriptEnd, hu, fun _ => hnil⟩
        exact ⟨[w], .cons (w := w) rfl .nil⟩
    · obtain ⟨ls, hls⟩ := ih rest.length (by simp; omega) rest rfl
      rcases hc with rfl | rfl
      · let w : WrittenLine := ⟨u, .feed, hu, nofun⟩
        exact ⟨w :: ls, .cons (w := w) trivial hls⟩
      · by_cases hfeed : rest.head? = some '\n'
        · -- the carriage return and the line feed are one end
          obtain ⟨t, rfl⟩ := List.head?_eq_some_iff.mp hfeed
          obtain ⟨ls, hls⟩ := ih t.length (by simp; omega) t rfl
          let w : WrittenLine := ⟨u, .returnFeed, hu, nofun⟩
          exact ⟨w :: ls, .cons (w := w) trivial hls⟩
        · let w : WrittenLine := ⟨u, .loneReturn, hu, nofun⟩
          exact ⟨w :: ls, .cons (w := w) hfeed hls⟩

/-- The line with its end. -/
def WrittenLine.written (w : WrittenLine) : Text := w.text ++ w.ending.text

/-- Nothing of the script is lost between the lines. -/
theorem ReadsLines.eq_flatMap_written {t : Text} {ls : List WrittenLine} (h : ReadsLines t ls) :
    t = ls.flatMap WrittenLine.written := by
  induction h with
  | nil => rfl
  | cons hends h ih =>
    rw [List.flatMap_cons, WrittenLine.written, List.append_assoc, ← ih]

/-- Only the last line may end with the script. -/
theorem ReadsLines.ending_ne_scriptEnd {t : Text} {ls : List WrittenLine} (h : ReadsLines t ls) {w : WrittenLine}
    (hw : w ∈ ls.dropLast) : w.ending ≠ .scriptEnd := by
  induction h with
  | nil => cases hw
  | @cons first t ls hends h ih =>
    cases h with
    | nil => cases hw
    | @cons second t' ls' hends' h' =>
      rw [List.dropLast_cons_cons] at hw
      rcases List.mem_cons.mp hw with rfl | hw
      · -- the next line is not empty, so the script goes on
        intro hend
        rw [hend] at hends
        obtain ⟨htext, hrest⟩ := List.append_eq_nil_iff.mp (show second.text ++ _ = [] from hends)
        cases hending : second.ending with
        | scriptEnd => exact second.ne_nil hending htext
        | feed => simp [hending, LineEnd.text] at hrest
        | returnFeed => simp [hending, LineEnd.text] at hrest
        | loneReturn => simp [hending, LineEnd.text] at hrest
      · exact ih hw

theorem ReadsLines.mem_of_mem_ending {t : Text} {ls : List WrittenLine} (h : ReadsLines t ls) {w : WrittenLine}
    (hw : w ∈ ls) {c : Char} (hc : c ∈ w.ending.text) : c ∈ t := by
  induction h with
  | nil => cases hw
  | cons _ _ ih =>
    refine List.mem_append_right _ ?_
    rcases List.mem_cons.mp hw with rfl | hw
    · exact List.mem_append_left _ hc
    · exact List.mem_append_right _ (ih hw)

/-- Without carriage returns, what ends a line has at most one byte. -/
theorem ReadsLines.byteSize_ending_le {t : Text} {ls : List WrittenLine} (h : ReadsLines t ls) (hreturn : '\r' ∉ t)
    {w : WrittenLine} (hw : w ∈ ls) : byteSize w.ending.text ≤ 1 := by
  have hending : '\r' ∉ w.ending.text := fun hc => hreturn (h.mem_of_mem_ending hw hc)
  cases hcase : w.ending with
  | feed => exact le_rfl
  | returnFeed => exact absurd List.mem_cons_self (hcase ▸ hending)
  | loneReturn => exact absurd List.mem_cons_self (hcase ▸ hending)
  | scriptEnd => exact Nat.zero_le 1

/-! ## The line index -/

/-- Where the lines stand that begin at the offset. -/
def rangesFrom (offset : Nat) : List WrittenLine → List LineRange
  | [] => []
  | w :: ls =>
    ⟨offset, offset + byteSize w.text⟩ ::
      rangesFrom (offset + byteSize w.text + byteSize w.ending.text) ls

theorem lineRangesFrom_unbroken {u : Text} (hu : ∀ c ∈ u, isLineBreak c = false) (start offset : Nat) (t : Text) :
    lineRangesFrom start offset (u ++ t) = lineRangesFrom start (offset + byteSize u) t := by
  induction u generalizing offset with
  | nil => rfl
  | cons c u ih =>
    rw [List.forall_mem_cons] at hu
    rw [List.cons_append, lineRangesFrom_of_not_break hu.1, ih hu.2, byteSize_cons, Nat.add_assoc]

/-- A carriage return without a line feed behind it ends a line. -/
theorem lineRangesFrom_loneReturn {t : Text} (ht : t.head? ≠ some '\n') (start offset : Nat) :
    lineRangesFrom start offset ('\r' :: t) = ⟨start, offset⟩ :: lineRangesFrom (offset + 1) (offset + 1) t := by
  rw [lineRangesFrom, if_pos (Or.inr rfl)]
  rintro cs - rfl
  exact ht rfl

theorem ReadsLines.lineRangesFrom_eq {t : Text} {ls : List WrittenLine} (h : ReadsLines t ls) (offset : Nat) :
    lineRangesFrom offset offset t = rangesFrom offset ls := by
  induction h generalizing offset with
  | nil => simp [lineRangesFrom, rangesFrom]
  | @cons w t ls hends h ih =>
    obtain ⟨u, ending, hu, hne⟩ := w
    rw [lineRangesFrom_unbroken hu, rangesFrom]
    cases ending with
    | feed =>
      show lineRangesFrom offset (offset + byteSize u) ('\n' :: t) = _
      rw [lineRangesFrom, if_pos (Or.inl rfl), ih]
      · rfl
      · rintro cs hc -
        exact absurd hc (by decide)
    | returnFeed =>
      show lineRangesFrom offset (offset + byteSize u) ('\r' :: '\n' :: t) = _
      rw [lineRangesFrom, ih]
      rfl
    | loneReturn =>
      show lineRangesFrom offset (offset + byteSize u) ('\r' :: t) = _
      rw [lineRangesFrom_loneReturn hends, ih]
      rfl
    | scriptEnd =>
      obtain rfl : t = [] := hends
      have hpos : 0 < byteSize u := by
        obtain ⟨c, u, rfl⟩ := List.exists_cons_of_ne_nil (hne rfl)
        exact Nat.add_pos_left c.utf8Size_pos _
      show lineRangesFrom offset (offset + byteSize u) [] = _
      rw [lineRangesFrom, if_pos (Nat.lt_add_of_pos_right hpos), ← ih]
      simp [lineRangesFrom]

theorem ReadsLines.lineRanges_eq {t : Text} {ls : List WrittenLine} (h : ReadsLines t ls) :
    lineRanges t = rangesFrom 0 ls := h.lineRangesFrom_eq 0

/-! ## Where a line stands -/

/-- A carriage return stands at the byte, and no line feed behind it. -/
def LoneReturnAt (t : Text) (offset : Nat) : Prop :=
  ∃ before after, t = before ++ '\r' :: after ∧ byteSize before = offset ∧ after.head? ≠ some '\n'

/-- The line stands in the range of the script, with `behind` after its end. -/
structure WrittenLine.StandsAt (t : Text) (w : WrittenLine) (l : LineRange) (behind : Text) : Prop where
  cut : ∃ front, t = front ++ (w.text ++ (w.ending.text ++ behind)) ∧ byteSize front = l.start
  stop_eq : l.stop = l.start + byteSize w.text
  ends : w.ending.Before behind

namespace WrittenLine.StandsAt

variable {t behind : Text} {w : WrittenLine} {l : LineRange}

theorem slice_eq (h : w.StandsAt t l behind) : slice t l.start l.stop = w.text := by
  obtain ⟨front, rfl, hfront⟩ := h.cut
  rw [h.stop_eq, ← hfront, ← List.append_assoc, slice_append]

theorem loneReturnAt_iff (h : w.StandsAt t l behind) :
    LoneReturnAt t l.stop ↔ w.ending = .loneReturn := by
  obtain ⟨front, rfl, hfront⟩ := h.cut
  have hstop : byteSize (front ++ w.text) = l.stop := by
    rw [byteSize_append, hfront, h.stop_eq]
  constructor
  · rintro ⟨before, after, hcut, hbefore, hafter⟩
    rw [← List.append_assoc] at hcut
    obtain ⟨-, hrest⟩ := append_inj_of_byteSize hcut (hstop.trans hbefore.symm)
    have hends := h.ends
    cases hending : w.ending with
    | feed =>
      rw [hending] at hrest
      cases hrest
    | returnFeed =>
      rw [hending] at hrest
      cases hrest
      exact absurd rfl hafter
    | loneReturn => rfl
    | scriptEnd =>
      rw [hending] at hrest hends
      obtain rfl : behind = [] := hends
      cases hrest
  · intro hlone
    have hends := h.ends
    rw [hlone] at hends
    refine ⟨front ++ w.text, behind, ?_, hstop, hends⟩
    rw [hlone, List.append_assoc]
    rfl

end WrittenLine.StandsAt

/-- Each line that begins behind `before` stands where its range says, and the next one begins behind its end. -/
theorem ReadsLines.standsAt_rangesFrom {t : Text} {ls : List WrittenLine} (h : ReadsLines t ls) (before : Text)
    {k : Nat} {l : LineRange} (hl : (rangesFrom (byteSize before) ls)[k]? = some l) :
    ∃ w behind, ls[k]? = some w ∧ w.StandsAt (before ++ t) l behind ∧
      (behind ≠ [] → ∃ l', (rangesFrom (byteSize before) ls)[k + 1]? = some l' ∧
        l'.start = l.stop + byteSize w.ending.text) := by
  induction h generalizing before k with
  | nil => simp [rangesFrom] at hl
  | @cons w t ls hends h ih =>
    have hnext : byteSize before + byteSize w.text + byteSize w.ending.text =
        byteSize (before ++ w.text ++ w.ending.text) := by
      rw [byteSize_append, byteSize_append]
    have hcut : before ++ (w.text ++ (w.ending.text ++ t)) = before ++ w.text ++ w.ending.text ++ t := by
      simp only [List.append_assoc]
    rw [rangesFrom, hnext] at hl ⊢
    cases k with
    | zero =>
      obtain rfl := Option.some.inj hl
      refine ⟨w, t, rfl, ⟨⟨before, rfl, rfl⟩, rfl, hends⟩, fun hbehind => ?_⟩
      cases h with
      | nil => exact absurd rfl hbehind
      | cons => exact ⟨_, rfl, hnext.symm⟩
    | succ k =>
      obtain ⟨w', behind, hw', hstands, hbehind⟩ := ih (before ++ w.text ++ w.ending.text) hl
      exact ⟨w', behind, hw', hcut ▸ hstands, hbehind⟩

/-- Each line of the index stands where its range says, and the next one begins behind its end. -/
theorem ReadsLines.standsAt {t : Text} {ls : List WrittenLine} (h : ReadsLines t ls) {k : Nat} {l : LineRange}
    (hl : (lineRanges t)[k]? = some l) :
    ∃ w behind, ls[k]? = some w ∧ w.StandsAt t l behind ∧
      (behind ≠ [] → ∃ l', (lineRanges t)[k + 1]? = some l' ∧ l'.start = l.stop + byteSize w.ending.text) := by
  rw [h.lineRanges_eq] at hl ⊢
  exact h.standsAt_rangesFrom [] hl

theorem length_rangesFrom (offset : Nat) (ls : List WrittenLine) : (rangesFrom offset ls).length = ls.length := by
  induction ls generalizing offset with
  | nil => rfl
  | cons w ls ih => rw [rangesFrom, List.length_cons, List.length_cons, ih]

/-- The ranges of the index cut out the lines. -/
theorem ReadsLines.map_slice_lineRanges {t : Text} {ls : List WrittenLine} (h : ReadsLines t ls) :
    (lineRanges t).map (fun l => slice t l.start l.stop) = ls.map WrittenLine.text := by
  refine List.ext_getElem? fun k => ?_
  rw [List.getElem?_map, List.getElem?_map]
  cases hl : (lineRanges t)[k]? with
  | none =>
    have hlength : ls.length ≤ k := by
      rw [← length_rangesFrom 0 ls, ← h.lineRanges_eq]
      exact List.getElem?_eq_none_iff.mp hl
    rw [List.getElem?_eq_none_iff.mpr hlength]
    rfl
  | some l =>
    obtain ⟨w, behind, hw, hstands, -⟩ := h.standsAt hl
    rw [hw, Option.map_some, Option.map_some, hstands.slice_eq]

/-- What is said of the first lines of the index and of the first lines as they are read is the same, when it is the
same for each line where it stands. -/
theorem ReadsLines.forall_lines_iff {t : Text} {ls : List WrittenLine} (h : ReadsLines t ls)
    {p : Nat → LineRange → Prop} {q : Nat → WrittenLine → Prop}
    (hpq : ∀ k l w behind, w.StandsAt t l behind → (p k l ↔ q k w)) (n : Nat) :
    (∀ k < n, ∀ l, (lineRanges t)[k]? = some l → p k l) ↔ ∀ k < n, ∀ w, ls[k]? = some w → q k w := by
  constructor
  · intro hp k hk w hw
    have hlt : k < (lineRanges t).length := by
      rw [h.lineRanges_eq, length_rangesFrom]
      exact (List.getElem?_eq_some_iff.mp hw).1
    have hl : (lineRanges t)[k]? = some (lineRanges t)[k] := List.getElem?_eq_getElem hlt
    obtain ⟨w', behind, hw', hstands, -⟩ := h.standsAt hl
    obtain rfl : w' = w := Option.some.inj (hw'.symm.trans hw)
    exact (hpq k _ w' behind hstands).mp (hp k hk _ hl)
  · intro hq k hk l hl
    obtain ⟨w, behind, hw, hstands, -⟩ := h.standsAt hl
    exact (hpq k l w behind hstands).mpr (hq k hk w hw)

end SchemaReview
