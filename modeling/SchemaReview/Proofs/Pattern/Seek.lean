import SchemaReview.Proofs.Pattern.Occurrence

/-!
# Proofs.Pattern.Seek — positions of a text by byte indices

* `Cursor.seek` finds the first position at a byte or behind it.  A position is found by its own offset
  (`Cursor.atByte_offset`), and a later one by going on from an earlier one (`Cursor.atByte_eq_seek`).
* `Cursor.ByteAt n b c`: what the byte `b` at index `n` is, where `c` is the position found for `n`.  It is
  a character of ASCII, or the first or a later byte of another one: `exists_byteAt`.
* A search that starts further on, but not behind the match, finds the same match: `searchFrom_seek`.
-/

namespace SchemaReview

open Text

/-! ## Positions by byte -/

namespace Cursor

variable {n : Nat} {t : Text}

theorem seek_of_le {c : Cursor} (h : n ≤ c.offset) : seek n c.before c.offset c.rest = c := by
  obtain ⟨before, offset, rest⟩ := c
  cases rest with
  | nil => rfl
  | cons x xs => exact if_pos h

theorem seek_cons_of_le {before : Option Char} {offset : Nat} {x : Char} {xs : Text} (h : n ≤ offset) :
    seek n before offset (x :: xs) = ⟨before, offset, x :: xs⟩ := if_pos h

theorem seek_cons_of_lt {before : Option Char} {offset : Nat} (h : offset < n) (x : Char) (xs : Text) :
    seek n before offset (x :: xs) = seek n (some x) (offset + x.utf8Size) xs :=
  if_neg (Nat.not_le.mpr h)

theorem seek_seek {m : Nat} (h : m ≤ n) (before : Option Char) (offset : Nat) (t : Text) :
    seek n (seek m before offset t).before (seek m before offset t).offset (seek m before offset t).rest =
      seek n before offset t := by
  induction t generalizing before offset with
  | nil => rfl
  | cons x xs ih =>
    by_cases hm : m ≤ offset
    · rw [seek_cons_of_le hm]
    · have hlt : offset < m := Nat.not_le.mp hm
      rw [seek_cons_of_lt hlt, seek_cons_of_lt (hlt.trans_le h)]
      exact ih _ _

theorem exists_passes_seek (n : Nat) (before : Option Char) (offset : Nat) (t : Text) :
    ∃ w, Cursor.Passes ⟨before, offset, t⟩ w (seek n before offset t) := by
  induction t generalizing before offset with
  | nil => exact ⟨[], .refl _⟩
  | cons x xs ih =>
    by_cases hn : n ≤ offset
    · rw [seek_cons_of_le hn]
      exact ⟨[], .refl _⟩
    · rw [seek_cons_of_lt (Nat.not_le.mp hn)]
      obtain ⟨w, hw⟩ := ih (some x) (offset + x.utf8Size)
      have hone : Cursor.Passes ⟨before, offset, x :: xs⟩ [x] ⟨some x, offset + x.utf8Size, xs⟩ :=
        .past rfl
      exact ⟨_, hone.trans hw⟩

theorem in_atByte (t : Text) (n : Nat) : Cursor.In t (atByte t n) := exists_passes_seek n none 0 t

theorem le_offset_seek {before : Option Char} {offset : Nat} (h : n ≤ offset + byteSize t) :
    n ≤ (seek n before offset t).offset := by
  induction t generalizing before offset with
  | nil => exact h
  | cons x xs ih =>
    by_cases hn : n ≤ offset
    · rwa [seek_cons_of_le hn]
    · rw [seek_cons_of_lt (Nat.not_le.mp hn)]
      refine ih ?_
      rw [byteSize_cons] at h
      omega

theorem le_offset_atByte (h : n ≤ byteSize t) : n ≤ (atByte t n).offset :=
  le_offset_seek (by rwa [Nat.zero_add])

/-- Behind the position at a byte, the position at a later byte is found by going on. -/
theorem atByte_eq_seek {m : Nat} (h : m ≤ n) :
    atByte t n = seek n (atByte t m).before (atByte t m).offset (atByte t m).rest :=
  (seek_seek h none 0 t).symm

theorem seek_of_passes {w : Text} {before : Option Char} {offset : Nat} {d : Cursor}
    (h : Cursor.Passes ⟨before, offset, w ++ d.rest⟩ w d) : seek d.offset before offset (w ++ d.rest) = d := by
  induction w generalizing before offset with
  | nil =>
    rw [h.eq_of_nil]
    exact seek_of_le (c := ⟨before, offset, d.rest⟩) le_rfl
  | cons y w ih =>
    have hoffset : d.offset = offset + byteSize (y :: w) := h.offset
    rw [byteSize_cons] at hoffset
    have hpos := y.utf8Size_pos
    have hnext : Cursor.Passes ⟨some y, offset + y.utf8Size, w ++ d.rest⟩ w d :=
      ⟨rfl, by rw [hoffset, Nat.add_assoc], by rw [h.before, getLast?_cons_or]⟩
    rw [List.cons_append, seek_cons_of_lt (by omega)]
    exact ih hnext

/-- A position of the text is the one at its byte. -/
theorem atByte_offset {c : Cursor} (h : Cursor.In t c) : atByte t c.offset = c := by
  obtain ⟨w, hw⟩ := h
  obtain rfl : t = w ++ c.rest := hw.rest
  exact seek_of_passes hw

/-- Behind a character the next position is found. -/
theorem atByte_succ {before : Option Char} {x : Char} {xs : Text} (h : atByte t n = ⟨before, n, x :: xs⟩) :
    atByte t (n + 1) = ⟨some x, n + x.utf8Size, xs⟩ := by
  have hpos := x.utf8Size_pos
  rw [atByte_eq_seek (Nat.le_succ n), h, seek_cons_of_lt (Nat.lt_succ_self n)]
  exact seek_of_le (c := ⟨some x, n + x.utf8Size, xs⟩) (Nat.add_le_add_left hpos n)

/-- Inside a character the position behind it stays the next one. -/
theorem atByte_succ_of_lt (h : n < (atByte t n).offset) : atByte t (n + 1) = atByte t n := by
  rw [atByte_eq_seek (Nat.le_succ n)]
  exact seek_of_le h

/-- At the end of the text nothing is left. -/
theorem atByte_byteSize (t : Text) : (atByte t (byteSize t)).offset = byteSize t ∧
    (atByte t (byteSize t)).rest = [] := by
  have hle := le_offset_atByte (le_refl (byteSize t))
  have hsize := (in_atByte t (byteSize t)).offset_add_byteSize
  refine ⟨by omega, ?_⟩
  cases hrest : (atByte t (byteSize t)).rest with
  | nil => rfl
  | cons x xs =>
    have hpos := x.utf8Size_pos
    rw [hrest, byteSize_cons] at hsize
    omega

end Cursor

/-! ## Bytes -/

/-- A character of one byte is that byte. -/
theorem utf8EncodeChar_of_utf8Size {x : Char} (h : x.utf8Size = 1) :
    ∃ b, String.utf8EncodeChar x = [b] ∧ Char.ofUInt8 b = x := by
  have hle : x.val.toNat ≤ 127 := Char.utf8Size_eq_one_iff.mp h
  refine ⟨x.val.toNat.toUInt8, ?_, ?_⟩
  · unfold String.utf8EncodeChar
    exact if_pos hle
  · apply Char.ext
    apply UInt32.toNat.inj
    show (UInt8.ofNat x.val.toNat).toNat = x.val.toNat
    rw [UInt8.toNat_ofNat']
    omega

/-- A byte of another character is none of ASCII. -/
theorem utf8Size_ofUInt8 {x : Char} (hx : x.utf8Size ≠ 1) {b : UInt8}
    (hb : b ∈ String.utf8EncodeChar x) : (Char.ofUInt8 b).utf8Size ≠ 1 := by
  have hlt : 127 < x.val.toNat := Nat.not_le.mp (mt Char.utf8Size_eq_one_iff.mpr hx)
  have hbyte := le_of_mem_utf8EncodeChar hlt hb
  intro hone
  have hle : (Char.ofUInt8 b).val.toNat ≤ 127 := Char.utf8Size_eq_one_iff.mp hone
  have htoNat : (Char.ofUInt8 b).val.toNat = b.toNat := rfl
  omega

/-- What the byte `b` at index `n` is, seen from the first position at the index or behind. -/
inductive Cursor.ByteAt (n : Nat) (b : UInt8) : Cursor → Prop
  | ascii {before : Option Char} {x : Char} {xs : Text} (hx : x.utf8Size = 1)
      (hb : Char.ofUInt8 b = x) : ByteAt n b ⟨before, n, x :: xs⟩
  | lead {before : Option Char} {x : Char} {xs : Text} (hx : x.utf8Size ≠ 1)
      (hb : (Char.ofUInt8 b).utf8Size ≠ 1) : ByteAt n b ⟨before, n, x :: xs⟩
  | inside {c : Cursor} (hn : n < c.offset) (hb : (Char.ofUInt8 b).utf8Size ≠ 1) : ByteAt n b c

theorem exists_byteAt_seek {n : Nat} {before : Option Char} {offset : Nat} {t : Text} (hle : offset ≤ n)
    (hlt : n < offset + byteSize t) :
    ∃ b, t.bytes[n - offset]? = some b ∧ Cursor.ByteAt n b (Cursor.seek n before offset t) := by
  induction t generalizing before offset with
  | nil =>
    rw [byteSize_nil] at hlt
    omega
  | cons x xs ih =>
    have hlength : (String.utf8EncodeChar x).length = x.utf8Size := String.length_utf8EncodeChar x
    rw [bytes_cons]
    by_cases hbehind : offset + x.utf8Size ≤ n
    · have hpos := x.utf8Size_pos
      rw [byteSize_cons, ← Nat.add_assoc] at hlt
      rw [Cursor.seek_cons_of_lt (by omega), List.getElem?_append_right (by omega), hlength,
        show n - offset - x.utf8Size = n - (offset + x.utf8Size) by omega]
      exact ih hbehind hlt
    -- the index lies in this character
    have hin : n - offset < (String.utf8EncodeChar x).length := by omega
    refine ⟨(String.utf8EncodeChar x)[n - offset], ?_, ?_⟩
    · rw [List.getElem?_append_left hin, List.getElem?_eq_getElem hin]
    have hmem := List.getElem_mem hin
    rcases hle.eq_or_lt with rfl | hinside
    · rw [Cursor.seek_cons_of_le le_rfl]
      by_cases hx : x.utf8Size = 1
      · obtain ⟨b, hb, hchar⟩ := utf8EncodeChar_of_utf8Size hx
        exact .ascii hx (by simp only [hb, Nat.sub_self, List.getElem_cons_zero, hchar])
      · exact .lead hx (utf8Size_ofUInt8 hx hmem)
    · have hx : x.utf8Size ≠ 1 := by omega
      rw [Cursor.seek_cons_of_lt hinside,
        Cursor.seek_of_le (c := ⟨some x, offset + x.utf8Size, xs⟩) (Nat.le_of_not_le hbehind)]
      exact .inside (Nat.not_le.mp hbehind) (utf8Size_ofUInt8 hx hmem)

theorem exists_byteAt {t : Text} {n : Nat} (h : n < byteSize t) :
    ∃ b, t.bytes[n]? = some b ∧ Cursor.ByteAt n b (Cursor.atByte t n) :=
  exists_byteAt_seek (Nat.zero_le n) (by rwa [Nat.zero_add])

/-! ## Searching from a byte on -/

theorem Pattern.searchFrom_seek {p : Pattern} {n : Nat} (c : Cursor)
    (h : ∀ m ∈ p.searchFrom c.before c.offset c.rest, n ≤ m.start.offset) :
    p.searchFrom (Cursor.seek n c.before c.offset c.rest).before
        (Cursor.seek n c.before c.offset c.rest).offset (Cursor.seek n c.before c.offset c.rest).rest =
      p.searchFrom c.before c.offset c.rest := by
  obtain ⟨before, offset, t⟩ := c
  dsimp only at h ⊢
  induction t generalizing before offset with
  | nil => rfl
  | cons x xs ih =>
    by_cases hle : n ≤ offset
    · rw [Cursor.seek_cons_of_le hle]
    -- the match does not start here
    cases hhere : p.matchAt ⟨before, offset, x :: xs⟩ with
    | some m =>
      have hstart := h m (by rw [searchFrom, hhere]; rfl)
      rw [(matchAt_eq_some hhere).1] at hstart
      exact absurd hstart hle
    | none =>
      have hlater : p.searchFrom before offset (x :: xs) =
          p.searchFrom (some x) (offset + x.utf8Size) xs := by
        rw [searchFrom, hhere]
        rfl
      rw [hlater] at h ⊢
      rw [Cursor.seek_cons_of_lt (Nat.not_le.mp hle)]
      exact ih _ _ h

end SchemaReview
