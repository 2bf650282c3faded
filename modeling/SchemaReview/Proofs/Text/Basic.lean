import Mathlib.Data.List.TakeWhile
import Mathlib.Tactic.SplitIfs
import SchemaReview.Text.Basic

/-!
# Proofs.Text.Basic — bytes, slices by byte offsets, and trimming

* `Text.bytes t` is the UTF-8 form of `t`.
* A slice that begins and ends between characters is the piece between them (`slice_append`).
* Trimming takes white space off both ends and nothing else (`trim_eq`, `trimmed_trim`), and leaves
  a text that has none there (`trim_append`).
* No character of a word is white space (`isBlank_of_isWord`), and a digit is one (`isWord_of_isDigit`).
-/

namespace SchemaReview.Text

/-! ### UTF-8 -/

/-- The bytes of the UTF-8 form. -/
def bytes (t : Text) : List UInt8 := t.flatMap String.utf8EncodeChar

@[simp] theorem bytes_nil : bytes [] = [] := rfl

@[simp] theorem bytes_cons (c : Char) (cs : Text) :
    bytes (c :: cs) = String.utf8EncodeChar c ++ bytes cs := rfl

@[simp] theorem bytes_append (s t : Text) : bytes (s ++ t) = bytes s ++ bytes t := by
  simp [bytes]

@[simp] theorem length_bytes (t : Text) : (bytes t).length = byteSize t := by
  induction t with
  | nil => rfl
  | cons c cs ih => simp [ih]

/-- A character beyond ASCII has no byte below 128. -/
theorem le_of_mem_utf8EncodeChar {c : Char} {b : UInt8} (hc : 127 < c.val.toNat)
    (hb : b ∈ String.utf8EncodeChar c) : 128 ≤ b.toNat := by
  have hbyte : ∀ n m k : Nat, 128 ≤ k → m + k ≤ 256 → 0 < m →
      128 ≤ (UInt8.ofNat (n % m + k)).toNat := by
    intro n m k hk hmk hpos
    have hlt := Nat.mod_lt n hpos
    rw [UInt8.toNat_ofNat']
    omega
  unfold String.utf8EncodeChar at hb
  dsimp only at hb
  rw [if_neg (by omega)] at hb
  -- two, three or four bytes
  split_ifs at hb
  all_goals
    simp only [List.mem_cons, List.not_mem_nil, or_false] at hb
  · rcases hb with rfl | rfl <;> exact hbyte _ _ _ (by omega) (by omega) (by omega)
  · rcases hb with rfl | rfl | rfl <;> exact hbyte _ _ _ (by omega) (by omega) (by omega)
  · rcases hb with rfl | rfl | rfl | rfl <;> exact hbyte _ _ _ (by omega) (by omega) (by omega)

/-- A character has at least one byte. -/
theorem length_le_byteSize (t : Text) : t.length ≤ byteSize t := by
  induction t with
  | nil => exact le_rfl
  | cons c t ih =>
    have hpos := c.utf8Size_pos
    rw [List.length_cons, byteSize_cons]
    omega

/-! ### Slices -/

@[simp] theorem takeBytes_zero (t : Text) : takeBytes 0 t = [] := by
  cases t with
  | nil => rfl
  | cons c cs =>
    have hpos := c.utf8Size_pos
    rw [takeBytes, if_neg (by omega)]

@[simp] theorem dropBytes_zero (t : Text) : dropBytes 0 t = t := by
  cases t <;> rfl

theorem takeBytes_append (s t : Text) : takeBytes (byteSize s) (s ++ t) = s := by
  induction s with
  | nil => simp
  | cons c cs ih =>
    rw [List.cons_append, takeBytes, if_pos (by simp), byteSize_cons, Nat.add_sub_cancel_left, ih]

/-- Bytes that lie in the first text are taken from it. -/
theorem takeBytes_append_of_le {n : Nat} {s : Text} (h : n ≤ byteSize s) (t : Text) :
    takeBytes n (s ++ t) = takeBytes n s := by
  induction s generalizing n with
  | nil =>
    obtain rfl : n = 0 := Nat.le_zero.mp h
    rw [takeBytes_zero, takeBytes_zero]
  | cons c cs ih =>
    rw [byteSize_cons] at h
    rw [List.cons_append, takeBytes, takeBytes, ih (by omega)]

theorem byteSize_takeBytes_le (n : Nat) (t : Text) : byteSize (takeBytes n t) ≤ byteSize t := by
  induction t generalizing n with
  | nil => exact le_rfl
  | cons c cs ih =>
    rw [takeBytes]
    split
    · have := ih (n - c.utf8Size)
      rw [byteSize_cons, byteSize_cons]
      omega
    · exact Nat.zero_le _

theorem dropBytes_append (s t : Text) : dropBytes (byteSize s) (s ++ t) = t := by
  induction s with
  | nil => simp
  | cons c cs ih =>
    have hpos := c.utf8Size_pos
    rw [List.cons_append, dropBytes, byteSize_cons, if_neg (by omega), Nat.add_sub_cancel_left, ih]

theorem byteSize_toList (s : String) : byteSize s.toList = s.utf8ByteSize := by
  have hsize : ∀ t : Text, byteSize t = (String.ofList t).utf8ByteSize := by
    intro t
    induction t with
    | nil => rfl
    | cons c cs ih =>
      rw [byteSize_cons, ih, String.ofList_cons, String.utf8ByteSize_append,
        String.utf8ByteSize_singleton]
  rw [hsize, String.ofList_toList]

/-- Two ways to cut a text at the same byte are the same. -/
theorem append_inj_of_byteSize {s s' t t' : Text} (h : s ++ t = s' ++ t')
    (hsize : byteSize s = byteSize s') : s = s' ∧ t = t' := by
  induction s generalizing s' with
  | nil =>
    cases s' with
    | nil => exact ⟨rfl, h⟩
    | cons c cs =>
      have hpos := c.utf8Size_pos
      rw [byteSize_nil, byteSize_cons] at hsize
      omega
  | cons c cs ih =>
    cases s' with
    | nil =>
      have hpos := c.utf8Size_pos
      rw [byteSize_nil, byteSize_cons] at hsize
      omega
    | cons c' cs' =>
      rw [List.cons_append, List.cons_append, List.cons.injEq] at h
      obtain ⟨rfl, htail⟩ := h
      rw [byteSize_cons, byteSize_cons] at hsize
      obtain ⟨rfl, rfl⟩ := ih htail (by omega)
      exact ⟨rfl, rfl⟩

/-- The slice between two positions is the piece between them. -/
theorem slice_append (s t u : Text) :
    slice (s ++ t ++ u) (byteSize s) (byteSize s + byteSize t) = t := by
  rw [slice, List.append_assoc, dropBytes_append, Nat.add_sub_cancel_left, takeBytes_append]

/-- The character in front of what follows a text, where `before` stands in front of the text. -/
theorem getLast?_cons_or (c : Char) (cs : Text) (before : Option Char) :
    (c :: cs).getLast?.or before = cs.getLast?.or (some c) := by
  rw [List.getLast?_cons]
  cases cs.getLast? <;> rfl

theorem forall_mem_head?_cons {p : Char → Prop} {x : Char} (hx : p x) (xs : Text) :
    ∀ y ∈ (x :: xs).head?, p y := by
  intro y hy
  obtain rfl : x = y := Option.some.inj hy
  exact hx

theorem forall_mem_head?_append {p : Char → Prop} {w : Text} (hne : w ≠ []) (hw : ∀ x ∈ w, p x)
    (t : Text) : ∀ x ∈ (w ++ t).head?, p x := by
  obtain ⟨y, ys, rfl⟩ := List.exists_cons_of_ne_nil hne
  exact forall_mem_head?_cons (hw y List.mem_cons_self) _

theorem forall_mem_head?_append_of_head {p : Char → Prop} {w t : Text} (hw : ∀ x ∈ w, p x)
    (ht : ∀ x ∈ t.head?, p x) : ∀ x ∈ (w ++ t).head?, p x := by
  cases w with
  | nil => exact ht
  | cons y ys => exact forall_mem_head?_cons (hw y List.mem_cons_self) _

/-- A run of characters with a property ends in front of one without it. -/
theorem takeWhile_append_of_head {p : Char → Bool} {w t : Text} (hw : ∀ x ∈ w, p x = true)
    (ht : ∀ x ∈ t.head?, p x = false) : (w ++ t).takeWhile p = w := by
  rw [List.takeWhile_append_of_pos hw]
  cases t with
  | nil => simp
  | cons x xs => simp [ht x rfl]

theorem dropWhile_append_of_head {p : Char → Bool} {w t : Text} (hw : ∀ x ∈ w, p x = true)
    (ht : ∀ x ∈ t.head?, p x = false) : (w ++ t).dropWhile p = t := by
  rw [List.dropWhile_append_of_pos hw]
  cases t with
  | nil => rfl
  | cons x xs => simp [ht x rfl]

/-! ### Trimming -/

/-- No white space at either end. -/
structure Trimmed (t : Text) : Prop where
  head : ∀ c ∈ t.head?, isBlank c = false
  last : ∀ c ∈ t.getLast?, isBlank c = false

/-- The white space behind the last other character. -/
def trailingBlanks (t : Text) : Text := (t.reverse.takeWhile isBlank).reverse

theorem trimEnd_append_trailingBlanks (t : Text) : trimEnd t ++ trailingBlanks t = t := by
  rw [trimEnd, trailingBlanks, ← List.reverse_append, List.takeWhile_append_dropWhile,
    List.reverse_reverse]

/-- A text is white space, what trimming leaves, and white space again. -/
theorem trim_eq (t : Text) :
    t.takeWhile isBlank ++ trim t ++ trailingBlanks (trimStart t) = t := by
  rw [List.append_assoc, trim, trimEnd_append_trailingBlanks, trimStart,
    List.takeWhile_append_dropWhile]

theorem head?_dropWhile_isBlank {t : Text} {c : Char} (h : c ∈ (t.dropWhile isBlank).head?) :
    isBlank c = false := by
  have hnot := List.head?_dropWhile_not isBlank t
  rw [Option.mem_def] at h
  rw [h] at hnot
  exact hnot

theorem trimmed_trim (t : Text) : Trimmed (trim t) := by
  constructor
  · -- the first character left was the first one that is no white space
    intro c hc
    refine head?_dropWhile_isBlank (t := t) ?_
    have hsplit : trim t ++ trailingBlanks (trimStart t) = t.dropWhile isBlank :=
      trimEnd_append_trailingBlanks _
    rw [Option.mem_def] at hc ⊢
    rw [← hsplit, List.head?_append, hc, Option.some_or]
  · intro c hc
    rw [trim, trimEnd, List.getLast?_reverse] at hc
    exact head?_dropWhile_isBlank hc

/-- White space in front of a trimmed text is all that trimming takes off. -/
theorem trim_append {blanks t : Text} (hblanks : ∀ c ∈ blanks, isBlank c = true) (ht : Trimmed t) :
    trim (blanks ++ t) = t := by
  have hstart : trimStart (blanks ++ t) = t := dropWhile_append_of_head hblanks ht.head
  rw [trim, hstart, trimEnd]
  cases hr : t.reverse with
  | nil => simpa using hr
  | cons c cs =>
    have hlast : isBlank c = false := by
      refine ht.last c ?_
      rw [← List.head?_reverse, hr]
      rfl
    rw [List.dropWhile_cons_of_neg (by simp [hlast]), ← hr, List.reverse_reverse]

theorem takeWhile_isBlank_append {blanks t : Text} (hblanks : ∀ c ∈ blanks, isBlank c = true)
    (ht : Trimmed t) : (blanks ++ t).takeWhile isBlank = blanks :=
  takeWhile_append_of_head hblanks ht.head

/-! ### Characters of words -/

/-- The code points of white space. -/
def blankCodes : List Nat :=
  [32, 0x85, 0xa0, 0x1680, 0x2028, 0x2029, 0x202f, 0x205f, 0x3000] ++ List.range' 9 5 ++
    List.range' 0x2000 11

theorem toNat_mem_blankCodes {c : Char} (h : isBlank c = true) : c.toNat ∈ blankCodes := by
  have hlow : 9 ≤ c.toNat ∧ c.toNat ≤ 13 → c.toNat ∈ List.range' 9 5 := by
    rw [List.mem_range'_1]
    omega
  have hhigh : 0x2000 ≤ c.toNat ∧ c.toNat ≤ 0x200a → c.toNat ∈ List.range' 0x2000 11 := by
    rw [List.mem_range'_1]
    omega
  simp only [blankCodes, List.mem_append]
  unfold isBlank at h
  dsimp only at h
  split at h
  · simp only [Bool.or_eq_true, Bool.and_eq_true, beq_iff_eq, decide_eq_true_eq] at h
    rcases h with h | h
    · simp [h]
    · exact Or.inl (Or.inr (hlow h))
  · simp only [Bool.or_eq_true, Bool.and_eq_true, beq_iff_eq, decide_eq_true_eq] at h
    rcases h with (((((((h | h) | h) | h) | h) | h) | h) | h) | h
    all_goals first | exact Or.inr (hhigh h) | simp [h]

theorem isBlank_of_isWord {c : Char} (h : isWord c = true) : isBlank c = false := by
  by_contra hblank
  rw [Bool.not_eq_false] at hblank
  have hcodes : ∀ n ∈ blankCodes, isWord (Char.ofNat n) = false := by decide +kernel
  have hword := hcodes _ (toNat_mem_blankCodes hblank)
  rw [Char.ofNat_toNat, h] at hword
  cases hword

theorem isWord_of_isBlank {c : Char} (h : isBlank c = true) : isWord c = false := by
  by_contra hword
  rw [isBlank_of_isWord (by simpa using hword)] at h
  cases h

theorem isWord_of_isDigit {c : Char} (h : isDigit c = true) : isWord c = true := by
  unfold isDigit at h
  unfold isWord
  split
  · rename_i hsmall
    rw [if_pos hsmall] at h
    simp [h]
  · rename_i hsmall
    rw [if_neg hsmall] at h
    simp [isDigit, hsmall, h]

theorem isDigit_of_isBlank {c : Char} (h : isBlank c = true) : isDigit c = false := by
  by_contra hdigit
  have hword := isWord_of_isDigit (by simpa using hdigit)
  rw [isWord_of_isBlank h] at hword
  cases hword

theorem isDigit_of_isAsciiDigit {c : Char} (h : isAsciiDigit c = true) : isDigit c = true := by
  have hsmall : c.toNat < 128 := by
    rw [isAsciiDigit, Bool.and_eq_true, decide_eq_true_eq, decide_eq_true_eq] at h
    have hle : c.toNat ≤ 57 := h.2
    omega
  simp [isDigit, hsmall, h]

theorem not_mem_of_isWord {cs : List Char} (hcs : cs.any isWord = false) {c : Char}
    (h : isWord c = true) : c ∉ cs := by
  intro hmem
  exact List.any_eq_false.mp hcs c hmem h

end SchemaReview.Text
