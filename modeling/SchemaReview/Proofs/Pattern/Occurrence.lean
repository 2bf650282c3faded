import SchemaReview.Proofs.Pattern.Match

/-!
# Proofs.Pattern.Occurrence — where matches stand, and how far runs go

* `Cursor.In t c`: the cursor is a position of the text.  Its offset determines it
  (`Cursor.In.eq_of_offset`), and every match found in a text starts at such a position
  (`matchAt_of_search`, `matchAt_of_mem_findAll`).
* Matches follow each other (`pairwise_findAll`).  A match that no other one runs into is found
  (`mem_findAll_of_apart`), so when no match starts inside another one, none is left out:
  `mem_findAll_of_matchAt`.
* A run of characters of a class is taken as far as it goes when what follows accepts it there, or
  refuses to begin with a character of the class: `run_many_eq`.
-/

namespace SchemaReview

open Text

/-! ## Positions of a text -/

theorem Cursor.Passes.eq_of_nil {c d : Cursor} (h : c.Passes [] d) : d = c := by
  obtain ⟨before, offset, rest⟩ := c
  obtain ⟨before', offset', rest'⟩ := d
  obtain rfl : before' = before := by simpa using h.before
  obtain rfl : offset' = offset := h.offset
  obtain rfl : rest = rest' := h.rest
  rfl

/-- The cursor is a position of the text. -/
def Cursor.In (t : Text) (c : Cursor) : Prop := ∃ w, (Cursor.atStart t).Passes w c

namespace Cursor.In

variable {t : Text} {c d : Cursor}

theorem passes (h : Cursor.In t c) {w : Text} (hw : c.Passes w d) : Cursor.In t d := by
  obtain ⟨v, hv⟩ := h
  exact ⟨v ++ w, hv.trans hw⟩

theorem offset_add_byteSize (h : Cursor.In t c) : c.offset + byteSize c.rest = byteSize t := by
  obtain ⟨w, hw⟩ := h
  have hrest : t = w ++ c.rest := hw.rest
  have hoffset : c.offset = 0 + byteSize w := hw.offset
  rw [hrest, byteSize_append, hoffset]
  omega

theorem eq_of_offset (hc : Cursor.In t c) (hd : Cursor.In t d) (h : c.offset = d.offset) :
    c = d := by
  obtain ⟨v, hv⟩ := hc
  obtain ⟨w, hw⟩ := hd
  have hsize : byteSize v = byteSize w := by
    have hv' : c.offset = 0 + byteSize v := hv.offset
    have hw' : d.offset = 0 + byteSize w := hw.offset
    omega
  obtain ⟨rfl, hrest⟩ := append_inj_of_byteSize (hv.rest.symm.trans hw.rest) hsize
  obtain ⟨before, offset, rest⟩ := c
  obtain ⟨before', offset', rest'⟩ := d
  obtain rfl : before = before' := hv.before.trans hw.before.symm
  obtain rfl : offset = offset' := h
  obtain rfl : rest = rest' := hrest
  rfl

/-- Positions of two pieces of a text that are the same position of it have the same text before
them. -/
theorem append_eq {t piece piece' before before' after after' : Text}
    (ht : t = before ++ piece ++ after) (ht' : t = before' ++ piece' ++ after')
    (hc : Cursor.In piece c) (hd : Cursor.In piece' d)
    (h : byteSize before + c.offset = byteSize before' + d.offset) :
    c.rest ++ after = d.rest ++ after' := by
  obtain ⟨v, hv⟩ := hc
  obtain ⟨w, hw⟩ := hd
  have hpiece : piece = v ++ c.rest := hv.rest
  have hpiece' : piece' = w ++ d.rest := hw.rest
  have hsize : byteSize (before ++ v) = byteSize (before' ++ w) := by
    have hv' : c.offset = 0 + byteSize v := hv.offset
    have hw' : d.offset = 0 + byteSize w := hw.offset
    rw [byteSize_append, byteSize_append]
    omega
  have happend : before ++ v ++ (c.rest ++ after) = before' ++ w ++ (d.rest ++ after') := calc
    _ = t := by rw [ht, hpiece]; simp
    _ = _ := by rw [ht', hpiece']; simp
  exact (append_inj_of_byteSize happend hsize).2

end Cursor.In

namespace Pattern

variable {α : Type} {p : Pattern} {m : Match}

/-! ## Where matches stand -/

theorem exists_passes_of_searchFrom {before : Option Char} {offset : Nat} {t : Text}
    (h : p.searchFrom before offset t = some m) :
    ∃ w, Cursor.Passes ⟨before, offset, t⟩ w m.start ∧ p.matchAt m.start = some m := by
  have hhere : ∀ {c : Cursor}, p.matchAt c = some m →
      ∃ w, c.Passes w m.start ∧ p.matchAt m.start = some m := by
    intro c hm
    rw [(matchAt_eq_some hm).1]
    exact ⟨[], .refl c, hm⟩
  induction t generalizing before offset with
  | nil => exact hhere h
  | cons x xs ih =>
    rcases orElse_eq_some h with h | h
    · exact hhere h
    · obtain ⟨w, hw, hm⟩ := ih h
      have hone : Cursor.Passes ⟨before, offset, x :: xs⟩ [x] ⟨some x, offset + x.utf8Size, xs⟩ :=
        .past rfl
      exact ⟨_, hone.trans hw, hm⟩

theorem matchAt_of_search {t : Text} (h : p.search t = some m) :
    Cursor.In t m.start ∧ p.matchAt m.start = some m := by
  obtain ⟨w, hw, hm⟩ := exists_passes_of_searchFrom h
  exact ⟨⟨w, hw⟩, hm⟩

/-- The search from the first byte on is the search in the whole text. -/
theorem searchAt_zero (p : Pattern) (t : Text) : p.searchAt t 0 = p.search t := by
  cases t <;> rfl

theorem exists_passes_of_mem_findAllFrom {resume : Nat} {before : Option Char} {offset : Nat}
    {t : Text} (h : m ∈ p.findAllFrom resume before offset t) :
    resume ≤ m.start.offset ∧
      ∃ w, Cursor.Passes ⟨before, offset, t⟩ w m.start ∧ p.matchAt m.start = some m := by
  have hhere : ∀ {c : Cursor}, p.matchAt c = some m →
      m.start = c ∧ ∃ w, c.Passes w m.start ∧ p.matchAt m.start = some m := by
    intro c hm
    have hstart := (matchAt_eq_some hm).1
    rw [hstart]
    exact ⟨rfl, [], .refl c, hm⟩
  induction t generalizing resume before offset with
  | nil =>
    rw [findAllFrom] at h
    split at h
    · cases h
    · rename_i hle
      obtain ⟨hstart, hfound⟩ := hhere (Option.mem_toList.mp h)
      rw [hstart] at hfound ⊢
      exact ⟨Nat.not_lt.mp hle, hfound⟩
  | cons x xs ih =>
    have hone : Cursor.Passes ⟨before, offset, x :: xs⟩ [x] ⟨some x, offset + x.utf8Size, xs⟩ :=
      .past rfl
    have hlater : ∀ {resume' : Nat},
        m ∈ p.findAllFrom resume' (some x) (offset + x.utf8Size) xs → resume ≤ resume' →
        resume ≤ m.start.offset ∧
          ∃ w, Cursor.Passes ⟨before, offset, x :: xs⟩ w m.start ∧ p.matchAt m.start = some m := by
      intro resume' hmem hle
      obtain ⟨hresume, w, hw, hm⟩ := ih hmem
      exact ⟨hle.trans hresume, _, hone.trans hw, hm⟩
    rw [findAllFrom] at h
    split at h
    · exact hlater h le_rfl
    · rename_i hle
      split at h
      · rename_i m' hm'
        obtain ⟨hstart', w', hw', -⟩ := matchAt_eq_some hm'
        rcases List.mem_cons.mp h with rfl | h
        · obtain ⟨hstart, hfound⟩ := hhere hm'
          rw [hstart] at hfound ⊢
          exact ⟨Nat.not_lt.mp hle, hfound⟩
        · refine hlater h ?_
          have hstop : m'.stop.offset = offset + byteSize w' := hw'.offset
          omega
      · exact hlater h le_rfl

theorem matchAt_of_mem_findAll {t : Text} (h : m ∈ p.findAll t) :
    Cursor.In t m.start ∧ p.matchAt m.start = some m := by
  obtain ⟨-, w, hw, hm⟩ := exists_passes_of_mem_findAllFrom h
  exact ⟨⟨w, hw⟩, hm⟩

/-- Every match begins at or behind the end of the matches before it. -/
theorem pairwise_findAll (p : Pattern) (t : Text) :
    (p.findAll t).Pairwise fun a b => a.stop.offset ≤ b.start.offset := by
  have hfrom : ∀ (t : Text) (resume : Nat) (before : Option Char) (offset : Nat),
      (p.findAllFrom resume before offset t).Pairwise fun a b => a.stop.offset ≤ b.start.offset := by
    intro t
    induction t with
    | nil =>
      intro resume before offset
      rw [findAllFrom]
      split
      · exact .nil
      · cases p.matchAt ⟨before, offset, []⟩ <;> simp
    | cons x xs ih =>
      intro resume before offset
      rw [findAllFrom]
      split
      · exact ih _ _ _
      · split
        · exact List.pairwise_cons.mpr
            ⟨fun b hb => (exists_passes_of_mem_findAllFrom hb).1, ih _ _ _⟩
        · exact ih _ _ _
  exact hfrom t 0 none 0

/-- A match is found when the matches that begin before it end before it. -/
theorem mem_findAll_of_apart {t : Text} (hin : Cursor.In t m.start) (hm : p.matchAt m.start = some m)
    (hapart : ∀ {c : Cursor} {w : Text} {m' : Match}, Cursor.In t c → c.Passes w m.start → w ≠ [] →
      p.matchAt c = some m' → m'.stop.offset ≤ m.start.offset) : m ∈ p.findAll t := by
  -- up to the byte to resume at there are no matches
  have hfrom : ∀ (w rest : Text) (resume : Nat) (before : Option Char) (offset : Nat),
      Cursor.In t ⟨before, offset, w ++ rest⟩ →
      Cursor.Passes ⟨before, offset, w ++ rest⟩ w m.start → resume ≤ m.start.offset →
      m ∈ p.findAllFrom resume before offset (w ++ rest) := by
    intro w
    induction w with
    | nil =>
      intro rest resume before offset _ hw hresume
      have hstart : m.start = ⟨before, offset, rest⟩ := hw.eq_of_nil
      rw [hstart] at hm hresume
      have hnot : ¬ offset < resume := Nat.not_lt.mpr hresume
      rw [List.nil_append]
      cases rest with
      | nil =>
        rw [findAllFrom, if_neg hnot, hm]
        exact List.mem_singleton_self m
      | cons x xs =>
        rw [findAllFrom, if_neg hnot, hm]
        exact List.mem_cons_self
    | cons x w ih =>
      intro rest resume before offset hc hw hresume
      have hin' : Cursor.In t ⟨some x, offset + x.utf8Size, w ++ rest⟩ := hc.passes (.past rfl)
      have hnext : Cursor.Passes ⟨some x, offset + x.utf8Size, w ++ rest⟩ w m.start := by
        refine ⟨?_, ?_, ?_⟩
        · have hrest : x :: w ++ rest = x :: w ++ m.start.rest := hw.rest
          simpa using hrest
        · have hoffset : m.start.offset = offset + byteSize (x :: w) := hw.offset
          rw [hoffset, byteSize_cons, Nat.add_assoc]
        · rw [hw.before, getLast?_cons_or]
      rw [List.cons_append, findAllFrom]
      split
      · exact ih rest resume _ _ hin' hnext hresume
      · split
        · rename_i m' hm'
          exact List.mem_cons_of_mem _
            (ih rest _ _ _ hin' hnext (hapart hc hw (List.cons_ne_nil x w) hm'))
        · exact ih rest resume _ _ hin' hnext hresume
  obtain ⟨w, hw⟩ := hin
  have hrest : t = w ++ m.start.rest := hw.rest
  rw [findAll, hrest]
  refine hfrom w m.start.rest 0 none 0 ?_ ?_ (Nat.zero_le _)
  · rw [← hrest]
    exact ⟨[], .refl _⟩
  · rw [← hrest]
    exact hw

/-- A match is found when no match begins inside another one. -/
theorem mem_findAll_of_matchAt
    (hapart : ∀ {c d : Cursor} {w : Text} {m : Match}, p.matchAt c = some m → c.Passes w d →
      w ≠ [] → d.offset < m.stop.offset → p.matchAt d = none)
    {t : Text} (hin : Cursor.In t m.start) (hm : p.matchAt m.start = some m) : m ∈ p.findAll t := by
  refine mem_findAll_of_apart hin hm fun _ hw hne hm' => ?_
  by_contra hlt
  have hnone := hapart hm' hw hne (Nat.not_le.mp hlt)
  rw [hm] at hnone
  cases hnone

end Pattern

/-! ## How far runs go -/

/-- The position behind all characters with the property that follow. -/
def Cursor.farthest (holds : Char → Bool) (c : Cursor) : Cursor :=
  ⟨(c.rest.takeWhile holds).getLast?.or c.before, c.offset + byteSize (c.rest.takeWhile holds),
    c.rest.dropWhile holds⟩

theorem Cursor.passes_farthest (holds : Char → Bool) (c : Cursor) :
    c.Passes (c.rest.takeWhile holds) (c.farthest holds) :=
  ⟨(List.takeWhile_append_dropWhile).symm, rfl, rfl⟩

theorem Cursor.farthest_past {holds : Char → Bool} {x : Char} (hx : holds x = true)
    (before : Option Char) (offset : Nat) (xs : Text) :
    Cursor.farthest holds ⟨some x, offset + x.utf8Size, xs⟩ =
      Cursor.farthest holds ⟨before, offset, x :: xs⟩ := by
  simp only [farthest, List.takeWhile_cons_of_pos hx, List.dropWhile_cons_of_pos hx,
    getLast?_cons_or, byteSize_cons, Nat.add_assoc]

/-- The farthest position is reached first, and a character with the property follows the others. -/
theorem Cursor.exists_reach_eq (holds : Char → Bool) (c : Cursor) :
    ∃ nearer, c.reach holds = c.farthest holds :: nearer ∧
      ∀ d ∈ nearer, ∃ x ∈ d.rest.head?, holds x = true := by
  obtain ⟨before, offset, t⟩ := c
  induction t generalizing before offset with
  | nil => exact ⟨[], by simp [reach_nil, farthest], by simp⟩
  | cons x xs ih =>
    cases hx : holds x with
    | false =>
      exact ⟨[], by simp [reach_cons_of_not_holds hx, farthest, hx], by simp⟩
    | true =>
      obtain ⟨nearer, hreach, hnearer⟩ := ih (some x) (offset + x.utf8Size)
      refine ⟨nearer ++ [⟨before, offset, x :: xs⟩], ?_, fun d hd => ?_⟩
      · rw [reach_cons_of_holds hx, hreach, farthest_past hx before]
        rfl
      · rcases List.mem_append.mp hd with hd | hd
        · exact hnearer d hd
        · rw [List.mem_singleton.mp hd]
          exact ⟨x, rfl, hx⟩

namespace Pattern

variable {α : Type} {cls : CharClass} {c : Cursor} {g : Captures} {k : Continue α}

/-- A run goes as far as it can when it is accepted there, or when nothing accepts a shorter one. -/
theorem run_many_eq (h : (k (c.farthest cls.holds) g).isSome = true ∨
      ∀ d, (∃ x ∈ d.rest.head?, cls.holds x = true) → k d g = none) :
    run (.many cls) c g k = k (c.farthest cls.holds) g := by
  obtain ⟨nearer, hreach, hnearer⟩ := c.exists_reach_eq cls.holds
  rw [run, hreach, List.findSome?_cons]
  cases hk : k (c.farthest cls.holds) g with
  | some a => rfl
  | none =>
    rw [hk] at h
    rcases h with h | h
    · cases h
    · exact List.findSome?_eq_none_iff.mpr fun d hd => h d (hnearer d hd)

/-- What may be left out lets everything pass that is accepted behind it. -/
theorem isSome_run_opt (p : Pattern) (hk : (k c g).isSome = true) :
    ((opt p).run c g k).isSome = true := by
  rw [opt, run_alt]
  cases p.run c g k with
  | some a => rfl
  | none => exact hk

/-- The same for a run of at least one character. -/
theorem run_atLeastOne_eq (h : (k (c.farthest cls.holds) g).isSome = true ∨
      ∀ d, (∃ x ∈ d.rest.head?, cls.holds x = true) → k d g = none) :
    run (atLeastOne cls) c g k =
      if c.rest.takeWhile cls.holds = [] then none else k (c.farthest cls.holds) g := by
  obtain ⟨before, offset, t⟩ := c
  rw [atLeastOne, run_seq]
  cases t with
  | nil => simp [run_one_nil]
  | cons x xs =>
    cases hx : cls.holds x with
    | false => simp [run_one_of_not_holds hx, hx]
    | true =>
      rw [run_one_of_holds hx, ← Cursor.farthest_past hx before]
      rw [← Cursor.farthest_past hx before] at h
      rw [run_many_eq h, List.takeWhile_cons_of_pos hx, if_neg (List.cons_ne_nil _ _)]

end Pattern

end SchemaReview
