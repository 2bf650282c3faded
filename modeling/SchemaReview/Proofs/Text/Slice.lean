import SchemaReview.Proofs.Text.Basic

/-!
# Proofs.Text.Slice — slices that are refused when they do not fit

A byte offset may lie inside a character or behind the end of a text.

* `Text.slice?` gives a slice only between two characters of the text and from left to right:
  `slice?_eq_some_iff` says which text it gives and when.
* `Text.Shows t offset length`: at the offset stands a piece of the text, not empty and at least that long.
-/

namespace SchemaReview.Text

/-- A byte is the start of a character, or the end of the text, when the text can be cut there. -/
theorem isBoundary_iff {t : Text} {n : Nat} (hn : n ≤ byteSize t) :
    isBoundary t n = true ↔ ∃ before after, t = before ++ after ∧ byteSize before = n := by
  induction t generalizing n with
  | nil =>
    obtain rfl : n = 0 := Nat.le_zero.mp hn
    exact iff_of_true rfl ⟨[], [], rfl, rfl⟩
  | cons c cs ih =>
    have hpos := c.utf8Size_pos
    rw [byteSize_cons] at hn
    constructor
    · intro h
      rw [isBoundary, Bool.or_eq_true, Bool.and_eq_true, beq_iff_eq, decide_eq_true_eq] at h
      rcases h with rfl | ⟨hle, h⟩
      · exact ⟨[], c :: cs, rfl, rfl⟩
      · obtain ⟨before, after, rfl, hbefore⟩ := (ih (by omega)).mp h
        refine ⟨c :: before, after, rfl, ?_⟩
        rw [byteSize_cons]
        omega
    · rintro ⟨before, after, hcut, rfl⟩
      cases before with
      | nil => rfl
      | cons x before =>
        obtain ⟨rfl, rfl⟩ := List.cons.inj hcut
        have hrest : isBoundary (before ++ after) (byteSize before) = true :=
          (ih (by simp)).mpr ⟨before, after, rfl, rfl⟩
        rw [isBoundary, byteSize_cons, Nat.add_sub_cancel_left]
        simp [hrest]

/-- Of two cuts of a text the earlier one cuts the first part of the later one. -/
theorem exists_append_of_byteSize_le {u v before after : Text} (h : u ++ v = before ++ after)
    (hle : byteSize u ≤ byteSize before) : ∃ mid, before = u ++ mid ∧ v = mid ++ after := by
  rcases List.append_eq_append_iff.mp h with ⟨mid, hbefore, hv⟩ | ⟨mid, hu, hafter⟩
  · exact ⟨mid, hbefore, hv⟩
  · have hempty : mid = [] := by
      cases mid with
      | nil => rfl
      | cons c cs =>
        have hpos := c.utf8Size_pos
        rw [hu, byteSize_append, byteSize_cons] at hle
        omega
    subst hempty
    exact ⟨[], by simpa using hu.symm, by simpa using hafter.symm⟩

/-- A character whose first byte lies in a piece of the text belongs to the piece. -/
theorem mem_of_cut {a b d before after : Text} {c : Char} (h : a ++ (b ++ d) = before ++ c :: after)
    (hle : byteSize a ≤ byteSize before) (hlt : byteSize before < byteSize a + byteSize b) : c ∈ b := by
  obtain ⟨mid, rfl, hcut⟩ := exists_append_of_byteSize_le h hle
  rw [byteSize_append] at hlt
  obtain ⟨rest, rfl, hrest⟩ := exists_append_of_byteSize_le hcut.symm (by omega)
  rcases rest with _ | ⟨x, rest⟩
  · rw [List.append_nil] at hlt
    omega
  · obtain ⟨rfl, -⟩ := List.cons.inj hrest
    exact List.mem_append_right _ List.mem_cons_self

/-! ## Checked slices -/

/-- The characters from byte `start` up to byte `stop`.  There are none to give when the bytes are out of
order, behind the end of the text, or inside a character. -/
def slice? (t : Text) (start stop : Nat) : Option Text :=
  if start ≤ stop ∧ stop ≤ byteSize t ∧ isBoundary t start = true ∧ isBoundary t stop = true then
    some (slice t start stop)
  else none

theorem slice?_eq_some_iff {t mid : Text} {start stop : Nat} :
    slice? t start stop = some mid ↔ ∃ before after, t = before ++ mid ++ after ∧
      byteSize before = start ∧ byteSize before + byteSize mid = stop := by
  constructor
  · intro h
    unfold slice? at h
    split at h
    · rename_i hfits
      obtain ⟨hle, hstop, hbstart, hbstop⟩ := hfits
      obtain ⟨u, v, hu, husize⟩ := (isBoundary_iff (hle.trans hstop)).mp hbstart
      obtain ⟨before, after, hcut, hsize⟩ := (isBoundary_iff hstop).mp hbstop
      obtain ⟨part, rfl, rfl⟩ := exists_append_of_byteSize_le (hu.symm.trans hcut) (by omega)
      rw [byteSize_append] at hsize
      rw [Option.some.injEq, hcut, ← husize, ← hsize, slice_append] at h
      subst h
      exact ⟨u, after, hcut, husize, hsize⟩
    · cases h
  · rintro ⟨before, after, rfl, rfl, rfl⟩
    have hstart : isBoundary (before ++ mid ++ after) (byteSize before) = true :=
      (isBoundary_iff (by simp)).mpr ⟨before, mid ++ after, List.append_assoc .., rfl⟩
    have hstop : isBoundary (before ++ mid ++ after) (byteSize before + byteSize mid) = true :=
      (isBoundary_iff (by simp)).mpr ⟨before ++ mid, after, rfl, byteSize_append ..⟩
    rw [slice?, if_pos ⟨Nat.le_add_right _ _, by simp, hstart, hstop⟩, slice_append]

-- the first letter takes two bytes
example : slice? ['é', 'a'] 1 2 = none := by decide

/-- The characters from byte `start` on. -/
def tail? (t : Text) (start : Nat) : Option Text := slice? t start (byteSize t)

theorem tail?_append (before after : Text) : tail? (before ++ after) (byteSize before) = some after :=
  slice?_eq_some_iff.mpr ⟨before, [], by simp, rfl, (byteSize_append ..).symm⟩

/-! ## Pieces at an offset -/

/-- At the offset stands a piece of the text that is not empty and has at least the given length. -/
def Shows (t : Text) (offset length : Nat) : Prop :=
  ∃ before mid after, t = before ++ mid ++ after ∧ byteSize before = offset ∧ mid ≠ [] ∧
    length ≤ byteSize mid

namespace Shows

variable {t : Text} {offset length : Nat}

theorem ne_nil (h : Shows t offset length) : t ≠ [] := by
  obtain ⟨before, mid, after, rfl, -, hmid, -⟩ := h
  simp [hmid]

theorem le_byteSize (h : Shows t offset length) : offset + length ≤ byteSize t := by
  obtain ⟨before, mid, after, rfl, rfl, -, hle⟩ := h
  rw [byteSize_append, byteSize_append]
  omega

/-- Something of the text stands at the offset. -/
theorem lt_byteSize (h : Shows t offset length) : offset < byteSize t := by
  obtain ⟨before, mid, after, rfl, rfl, hmid, -⟩ := h
  obtain ⟨c, mid, rfl⟩ := List.exists_cons_of_ne_nil hmid
  have hpos := c.utf8Size_pos
  rw [byteSize_append, byteSize_append, byteSize_cons]
  omega

theorem exists_append (h : Shows t offset length) :
    ∃ before after, t = before ++ after ∧ byteSize before = offset := by
  obtain ⟨before, mid, after, rfl, hoffset, -⟩ := h
  exact ⟨before, mid ++ after, List.append_assoc .., hoffset⟩

/-- A piece of a piece of a text. -/
theorem inside {piece before after : Text} (h : Shows piece offset length)
    (ht : t = before ++ piece ++ after) : Shows t (byteSize before + offset) length := by
  obtain ⟨u, mid, v, rfl, rfl, hmid, hle⟩ := h
  exact ⟨before ++ u, mid, v ++ after, by simp [ht], byteSize_append .., hmid, hle⟩

end Shows

end SchemaReview.Text
