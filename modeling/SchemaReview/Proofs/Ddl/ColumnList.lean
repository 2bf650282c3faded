import Mathlib.Data.Bool.AllAny
import SchemaReview.Proofs.Ddl.Name
import SchemaReview.Text.Number

/-!
# Proofs.Ddl.ColumnList — names and numbers as they are written, and the keys of column lists

A name is written bare or between one of three kinds of marks (`Quoting`), a number in decimal digits
(`decimal`).  A column list is cut at its commas, each entry at its first blank, and a name ends at the
first character that no listed name has (`isListed`).

* `natBelow?_decimal`: a number is read back from its digits.
* `columnKey?_opening`: the key of an entry is that of the name it begins with, behind an opening mark.
* `columnKeys_cons_comma`, `columnKeys_of_not_mem`, `columnKeys_blank`: the keys of a list, entry by
  entry.
* `columnKeys_word_iff`: a word is listed under its own key exactly when all its characters may be
  listed, because a word that is cut short has a shorter key (`eq_nil_of_nameKey_append`).
-/

namespace SchemaReview

open Text

/-! ## Names in quotes -/

/-- How a name is written. -/
inductive Quoting where
  | bare
  | double
  | backtick
  | bracket
deriving DecidableEq, Repr

namespace Quoting

/-- What stands in front of the name. -/
def opening : Quoting → Text
  | bare => []
  | double => ['"']
  | backtick => ['\x60']
  | bracket => ['[']

/-- What stands behind the name. -/
def closing : Quoting → Text
  | bare => []
  | double => ['"']
  | backtick => ['\x60']
  | bracket => [']']

/-- The name as written. -/
def around (q : Quoting) (w : Text) : Text := q.opening ++ (w ++ q.closing)

theorem opening_eq (q : Quoting) : q.opening = [] ∨ ∃ x ∈ openingMarks, q.opening = [x] := by
  cases q <;> simp [opening, openingMarks]

theorem closing_eq (q : Quoting) : q.closing = [] ∨ ∃ x ∈ closingMarks, q.closing = [x] := by
  cases q <;> simp [closing, closingMarks]

/-- What holds of the marks holds of those that are written. -/
theorem holds_of_mem {p : Char → Bool} (hp : ['"', '\x60', '[', ']'].all p = true) {q : Quoting} {x : Char}
    (h : x ∈ q.opening ∨ x ∈ q.closing) : p x = true := by
  have hmem : x ∈ ['"', '\x60', '[', ']'] := by
    cases q <;> simp_all [opening, closing]
  exact List.all_eq_true.mp hp x hmem

end Quoting

/-! ## Numbers -/

namespace Text

/-- The decimal digits of a number. -/
def decimal (n : Nat) : Text := Nat.toDigits 10 n

theorem decimal_ne_nil (n : Nat) : decimal n ≠ [] := Nat.toDigits_ne_nil

theorem isAsciiDigit_of_mem_decimal {n : Nat} {c : Char} (h : c ∈ decimal n) :
    isAsciiDigit c = true := by
  have hdigit : c.isDigit = true := Nat.isDigit_of_mem_toDigits (by decide) (by decide) h
  exact hdigit

/-- What holds of the ten digits holds of the characters of a number. -/
theorem forall_mem_decimal {p : Char → Prop} [DecidablePred p] (hp : "0123456789".toList.all (fun c => p c) = true)
    (n : Nat) : ∀ c ∈ decimal n, p c := by
  intro c hc
  have hcodes : ∀ m < 58, 48 ≤ m → Char.ofNat m ∈ "0123456789".toList := by decide
  have hdigit := isAsciiDigit_of_mem_decimal hc
  rw [isAsciiDigit, Bool.and_eq_true, decide_eq_true_eq, decide_eq_true_eq] at hdigit
  have hlow : 48 ≤ c.toNat := hdigit.1
  have hhigh : c.toNat ≤ 57 := hdigit.2
  have hmem := hcodes c.toNat (by omega) hlow
  rw [Char.ofNat_toNat] at hmem
  exact List.all_iff_forall_prop.mp hp c hmem

theorem digitsValue_decimal (n : Nat) : digitsValue (decimal n) = n :=
  Nat.ofDigitChars_ten_toDigits

/-- A number is read back from its digits. -/
theorem natBelow?_decimal {n bound : Nat} (h : n < bound) : natBelow? bound (decimal n) = some n := by
  have hempty : (decimal n).isEmpty = false := List.isEmpty_eq_false_iff.mpr (decimal_ne_nil n)
  have hall : (decimal n).all isAsciiDigit = true :=
    List.all_eq_true.mpr fun c hc => isAsciiDigit_of_mem_decimal hc
  simp only [natBelow?, hempty, hall, digitsValue_decimal]
  rw [if_pos h]
  rfl

/-! ## Words -/

theorem exists_wordsFrom_eq {word : Text} (hne : word ≠ []) (t : Text) :
    ∃ more, wordsFrom word t = (word.reverse ++ t.upToBlank) :: more := by
  induction t generalizing word with
  | nil => exact ⟨[], by simp [wordsFrom, upToBlank, hne]⟩
  | cons c cs ih =>
    cases hc : isBlank c with
    | true => exact ⟨wordsFrom [] cs, by simp [wordsFrom, upToBlank, hc, hne]⟩
    | false =>
      obtain ⟨more, hmore⟩ := ih (List.cons_ne_nil c word)
      exact ⟨more, by simp [wordsFrom, upToBlank, hc, hmore]⟩

/-- The first word of a text that does not begin with white space ends at the first blank. -/
theorem exists_words_eq {c : Char} (hc : isBlank c = false) (cs : Text) :
    ∃ more, words (c :: cs) = upToBlank (c :: cs) :: more := by
  obtain ⟨more, hmore⟩ := exists_wordsFrom_eq (List.cons_ne_nil c []) cs
  exact ⟨more, by simp [words, wordsFrom, upToBlank, hc, hmore]⟩

theorem words_cons_of_isBlank {c : Char} (hc : isBlank c = true) (cs : Text) :
    words (c :: cs) = words cs := by
  simp [words, wordsFrom, hc]

/-! ## Pieces between separators -/

theorem splitFrom_eq (sep : Char) (piece t : Text) :
    splitFrom sep piece t = (splitOn sep t).modifyHead (piece.reverse ++ ·) := by
  have hpieces : ∀ (t piece : Text), ∃ head more, splitFrom sep piece t = (piece.reverse ++ head) :: more ∧
      splitFrom sep [] t = head :: more := by
    intro t
    induction t with
    | nil => exact fun piece => ⟨[], [], by simp [splitFrom]⟩
    | cons c cs ih =>
      intro piece
      by_cases hc : c = sep
      · exact ⟨[], splitFrom sep [] cs, by simp [splitFrom, hc]⟩
      · obtain ⟨head, more, hpiece, hnil⟩ := ih (c :: piece)
        obtain ⟨head', more', hpiece', hnil'⟩ := ih [c]
        obtain ⟨rfl, rfl⟩ : head = head' ∧ more = more' := by simpa [hnil] using hnil'
        exact ⟨c :: head, more, by simp [splitFrom, hc, hpiece], by simp [splitFrom, hc, hpiece']⟩
  obtain ⟨head, more, hpiece, hnil⟩ := hpieces t piece
  rw [splitOn, hpiece, hnil]
  rfl

/-- Characters that do not separate are added to the current piece. -/
theorem splitFrom_append {sep : Char} {e : Text} (he : sep ∉ e) (piece t : Text) :
    splitFrom sep piece (e ++ t) = splitFrom sep (e.reverse ++ piece) t := by
  induction e generalizing piece with
  | nil => rfl
  | cons c cs ih =>
    rw [List.mem_cons, not_or] at he
    rw [List.cons_append, splitFrom, if_neg (Ne.symm he.1), ih he.2, List.reverse_cons,
      List.append_assoc]
    rfl

theorem splitOn_append_cons {sep : Char} {e : Text} (he : sep ∉ e) (t : Text) :
    splitOn sep (e ++ sep :: t) = e :: splitOn sep t := by
  rw [splitOn, splitFrom_append he]
  simp [splitFrom, splitOn]

theorem splitOn_of_not_mem {sep : Char} {e : Text} (he : sep ∉ e) : splitOn sep e = [e] := by
  have happend := splitFrom_append he [] []
  simpa [splitOn, splitFrom] using happend

end Text

/-! ## The keys of a list -/

/-- The names in column lists have such characters. -/
def isListed (c : Char) : Bool := isAlphanumeric c || c == '_'

theorem isBlank_of_isListed {c : Char} (h : isListed c = true) : isBlank c = false := by
  by_contra hblank
  rw [Bool.not_eq_false] at hblank
  have hcodes : ∀ n ∈ blankCodes, isListed (Char.ofNat n) = false := by decide +kernel
  have hlisted := hcodes _ (toNat_mem_blankCodes hblank)
  rw [Char.ofNat_toNat, h] at hlisted
  cases hlisted

/-- The marks that are dropped in front of a listed name. -/
def isListMark (c : Char) : Bool := c == '"' || c == '\x60' || c == '['

theorem listedName_eq (t : Text) : listedName t = (t.dropWhile isListMark).takeWhile isListed := rfl

theorem Quoting.isListMark_of_mem_opening {q : Quoting} {c : Char} (h : c ∈ q.opening) :
    isListMark c = true := by
  have hall : q.opening.all isListMark = true := by cases q <;> rfl
  exact List.all_eq_true.mp hall c h

theorem isBlank_of_isListMark {c : Char} (h : isListMark c = true) : isBlank c = false := by
  simp only [isListMark, Bool.or_eq_true, beq_iff_eq] at h
  rcases h with (rfl | rfl) | rfl <;> rfl

/-- No mark belongs to a class that none of the three belongs to. -/
theorem isListMark_of_holds {p : Char → Bool} (hp : ['"', '\x60', '['].any p = false) {c : Char}
    (h : p c = true) : isListMark c = false := by
  by_contra hmark
  rw [Bool.not_eq_false] at hmark
  have hmem : c ∈ ['"', '\x60', '['] := by simpa [isListMark, or_assoc] using hmark
  exact List.any_eq_false.mp hp c hmem h

theorem columnKey?_cons_of_isBlank {b : Char} (hb : isBlank b = true) (e : Text) :
    columnKey? (b :: e) = columnKey? e := by
  rw [columnKey?, words_cons_of_isBlank hb, columnKey?]

/-- The key of an entry that does not begin with white space. -/
theorem columnKey?_eq {e : Text} (he : ∀ x ∈ e.head?, isBlank x = false) :
    columnKey? e = if listedName e.upToBlank = [] then none
      else some (nameKey (String.ofList (listedName e.upToBlank))) := by
  cases e with
  | nil => rfl
  | cons c cs =>
    obtain ⟨more, hmore⟩ := exists_words_eq (he c rfl) cs
    simp only [columnKey?, hmore, List.isEmpty_iff]

/-- The key of an entry is that of the name it begins with. -/
theorem columnKey?_opening (q : Quoting) {w u : Text} (hne : w ≠ []) (hw : ∀ x ∈ w, isListed x = true)
    (hu : ∀ x ∈ u.head?, isListed x = false) :
    columnKey? (q.opening ++ (w ++ u)) = some (nameKey (String.ofList w)) := by
  have hblank : ∀ x ∈ q.opening ++ w, isBlank x = false := by
    intro x hx
    rcases List.mem_append.mp hx with hx | hx
    · exact isBlank_of_isListMark (Quoting.isListMark_of_mem_opening hx)
    · exact isBlank_of_isListed (hw x hx)
  have hcut : (q.opening ++ (w ++ u)).upToBlank = q.opening ++ (w ++ u.upToBlank) := by
    rw [← List.append_assoc, upToBlank,
      List.takeWhile_append_of_pos fun x hx => by simp [hblank x hx], List.append_assoc]
    rfl
  have htake : (w ++ u.upToBlank).takeWhile isListed = w := by
    rw [List.takeWhile_append_of_pos hw]
    cases u with
    | nil => simp [upToBlank]
    | cons x xs => cases hx : isBlank x <;> simp [upToBlank, hx, hu x rfl]
  have hname : listedName (q.opening ++ (w ++ u)).upToBlank = w := by
    have hmark : ∀ x ∈ (w ++ u.upToBlank).head?, isListMark x = false :=
      forall_mem_head?_append hne (fun x hx => isListMark_of_holds rfl (hw x hx)) _
    rw [hcut, listedName_eq,
      dropWhile_append_of_head (fun x => Quoting.isListMark_of_mem_opening) hmark, htake]
  have hhead : ∀ x ∈ (q.opening ++ (w ++ u)).head?, isBlank x = false := by
    rw [← List.append_assoc]
    exact forall_mem_head?_append (by simp [hne]) hblank u
  rw [columnKey?_eq hhead, hname, if_neg hne]

theorem columnKeys_cons_comma {e : Text} (he : ',' ∉ e) (t : Text) :
    columnKeys (e ++ ',' :: t) = (columnKey? e).toList ++ columnKeys t := by
  rw [columnKeys, splitOn_append_cons he, List.filterMap_cons]
  cases columnKey? e <;> rfl

theorem columnKeys_of_not_mem {e : Text} (he : ',' ∉ e) : columnKeys e = (columnKey? e).toList := by
  rw [columnKeys, splitOn_of_not_mem he, List.filterMap_cons]
  cases columnKey? e <;> rfl

theorem columnKeys_blank (t : Text) : columnKeys (' ' :: t) = columnKeys t := by
  have hsplit : splitOn ',' (' ' :: t) = (splitOn ',' t).modifyHead (' ' :: ·) := splitFrom_eq ',' [' '] t
  rw [columnKeys, columnKeys, hsplit]
  cases splitOn ',' t with
  | nil => rfl
  | cons e es =>
    have hkey : columnKey? (' ' :: e) = columnKey? e := columnKey?_cons_of_isBlank rfl e
    rw [List.modifyHead_cons, List.filterMap_cons, List.filterMap_cons, hkey]

/-! ## Words in a list -/

theorem upperChar_ne_nil (c : Char) : upperChar c ≠ [] := by
  have hsequences : ∀ entry ∈ upperSequences, entry.2 ≠ [] := by decide +kernel
  unfold upperChar
  split
  · exact List.cons_ne_nil _ _
  · split
    · rename_i codes hcodes
      obtain ⟨front, back, hsplit, -⟩ := List.lookup_eq_some_iff.mp hcodes
      simpa using hsequences (c.toNat, codes) (by simp [hsplit])
    · split <;> exact List.cons_ne_nil _ _

/-- A name that goes on has another key. -/
theorem eq_nil_of_nameKey_append {w v : Text}
    (h : nameKey (String.ofList w) = nameKey (String.ofList (w ++ v))) : v = [] := by
  have hupper : upper w = upper w ++ upper v := by
    have htext := congrArg String.toList h
    simpa [nameKey, upperString, upper] using htext
  cases v with
  | nil => rfl
  | cons c cs =>
    have hnil : upper (c :: cs) = [] := List.self_eq_append_right.mp hupper
    rw [upper, List.flatMap_cons, List.append_eq_nil_iff] at hnil
    exact absurd hnil.1 (upperChar_ne_nil c)

/-- A word is cut at its first character that no listed name has. -/
theorem columnKeys_word {w : Text} (hw : ∀ x ∈ w, isWord x = true) :
    columnKeys w = if w.takeWhile isListed = [] then []
      else [nameKey (String.ofList (w.takeWhile isListed))] := by
  have hcomma : ',' ∉ w := fun hmem => absurd (hw _ hmem) (by decide)
  have hblank : ∀ x ∈ w, isBlank x = false := fun x hx => isBlank_of_isWord (hw x hx)
  have hhead : ∀ x ∈ w.head?, x ∈ w := fun x hx => List.mem_of_mem_head? hx
  have hcut : w.upToBlank = w := List.takeWhile_eq_self_iff.mpr fun x hx => by simp [hblank x hx]
  have hname : listedName w.upToBlank = w.takeWhile isListed := by
    have hmark : ∀ x ∈ w.head?, isListMark x = false :=
      fun x hx => isListMark_of_holds rfl (hw x (hhead x hx))
    have hdrop : w.dropWhile isListMark = w := dropWhile_append_of_head (w := []) (by simp) hmark
    rw [hcut, listedName_eq, hdrop]
  rw [columnKeys_of_not_mem hcomma, columnKey?_eq fun x hx => hblank x (hhead x hx), hname]
  split <;> rfl

/-- A word is listed under its own key exactly when all its characters may be listed. -/
theorem columnKeys_word_iff {w : Text} (hne : w ≠ []) (hw : ∀ x ∈ w, isWord x = true) :
    columnKeys w = [nameKey (String.ofList w)] ↔ ∀ x ∈ w, isListed x = true := by
  rw [columnKeys_word hw, ← List.takeWhile_eq_self_iff]
  constructor
  · intro h
    split at h
    · cases h
    · have hkey := List.singleton_inj.mp h
      have hsplit : w.takeWhile isListed ++ w.dropWhile isListed = w := List.takeWhile_append_dropWhile
      have hrest : w.dropWhile isListed = [] := by
        refine eq_nil_of_nameKey_append (w := w.takeWhile isListed) ?_
        rw [hsplit, hkey]
      rwa [hrest, List.append_nil] at hsplit
  · intro h
    rw [h, if_neg hne]

end SchemaReview
