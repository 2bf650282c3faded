import Mathlib.Data.String.Basic
import SchemaReview.Proofs.Text.Basic
import SchemaReview.Text.Case
import SchemaReview.Text.Number

/-!
# Proofs.Text.FoldCase — texts up to the case of ASCII letters

`Text.foldCase` writes ASCII letters small.  Two texts are the same up to case when they fold to the
same text, so what only depends on a text up to case is what does not see folding.

* `apply_toLower`: a function of a character that treats the two cases of each letter alike does not
  see folding.  All character classes are such functions.
* Functions that cut a text commute with folding (`trim_foldCase`, `words_foldCase`, …), and
  functions that judge it do not see folding (`columnKeys_foldCase`, `isFloat_foldCase`, …).
-/

namespace SchemaReview

/-! ## Characters -/

theorem toLower_cases (x : Char) : x.toLower = x ∨ ∃ n < 26, x = Char.ofNat (65 + n) := by
  unfold Char.toLower
  split
  · rename_i h
    obtain ⟨hlo, hhi⟩ := h
    right
    have hlo' : 65 ≤ x.toNat := hlo
    have hhi' : x.toNat ≤ 90 := hhi
    refine ⟨x.toNat - 65, by omega, ?_⟩
    rw [Nat.add_sub_cancel' hlo', Char.ofNat_toNat]
  · exact Or.inl rfl

/-- What treats the two cases of every letter alike does not see folding. -/
theorem apply_toLower {α : Type} (f : Char → α)
    (h : ∀ n < 26, f (Char.ofNat (65 + n)).toLower = f (Char.ofNat (65 + n))) (x : Char) :
    f x.toLower = f x := by
  rcases toLower_cases x with hx | ⟨n, hn, rfl⟩
  · rw [hx]
  · exact h n hn

@[simp] theorem toLower_toLower (x : Char) : x.toLower.toLower = x.toLower :=
  apply_toLower Char.toLower (by decide) x

@[simp] theorem utf8Size_toLower (x : Char) : x.toLower.utf8Size = x.utf8Size :=
  apply_toLower Char.utf8Size (by decide) x

@[simp] theorem isAsciiLetter_toLower (x : Char) : isAsciiLetter x.toLower = isAsciiLetter x :=
  apply_toLower isAsciiLetter (by decide) x

@[simp] theorem isAsciiDigit_toLower (x : Char) : isAsciiDigit x.toLower = isAsciiDigit x :=
  apply_toLower isAsciiDigit (by decide) x

@[simp] theorem isBlank_toLower (x : Char) : isBlank x.toLower = isBlank x :=
  apply_toLower isBlank (by decide) x

@[simp] theorem isDigit_toLower (x : Char) : isDigit x.toLower = isDigit x :=
  apply_toLower isDigit (by decide) x

@[simp] theorem isWord_toLower (x : Char) : isWord x.toLower = isWord x :=
  apply_toLower isWord (by decide) x

@[simp] theorem upperChar_toLower (x : Char) : upperChar x.toLower = upperChar x :=
  apply_toLower upperChar (by decide) x

@[simp] theorem lowerChar_toLower (x : Char) : lowerChar x.toLower = lowerChar x :=
  apply_toLower lowerChar (by decide) x

/-- Folding neither makes nor moves a character that is no letter. -/
theorem toLower_eq_iff {y : Char} (hy : isAsciiLetter y = false) (x : Char) :
    x.toLower = y ↔ x = y := by
  rcases toLower_cases x with hx | ⟨n, hn, rfl⟩
  · rw [hx]
  · have hletter : isAsciiLetter (Char.ofNat (65 + n)) = true := by
      have : ∀ n < 26, isAsciiLetter (Char.ofNat (65 + n)) = true := by decide
      exact this n hn
    constructor
    · rintro rfl
      rw [isAsciiLetter_toLower, hletter] at hy
      cases hy
    · rintro rfl
      rw [hletter] at hy
      cases hy

theorem toLower_eq_self {x : Char} (h : isAsciiLetter x = false) : x.toLower = x :=
  (toLower_eq_iff h x).mpr rfl

namespace Text

/-! ## Cutting texts -/

/-- The text with ASCII letters written small. -/
def foldCase (t : Text) : Text := t.map Char.toLower

@[simp] theorem foldCase_nil : foldCase [] = [] := rfl

@[simp] theorem foldCase_cons (c : Char) (cs : Text) :
    foldCase (c :: cs) = c.toLower :: foldCase cs := rfl

@[simp] theorem foldCase_append (s t : Text) : foldCase (s ++ t) = foldCase s ++ foldCase t :=
  List.map_append

@[simp] theorem foldCase_reverse (t : Text) : foldCase t.reverse = (foldCase t).reverse :=
  List.map_reverse

@[simp] theorem foldCase_foldCase (t : Text) : foldCase (foldCase t) = foldCase t := by
  simp [foldCase]

@[simp] theorem length_foldCase (t : Text) : (foldCase t).length = t.length := List.length_map _

@[simp] theorem isEmpty_foldCase (t : Text) : (foldCase t).isEmpty = t.isEmpty := by
  cases t <;> rfl

@[simp] theorem byteSize_foldCase (t : Text) : byteSize (foldCase t) = byteSize t := by
  induction t with
  | nil => rfl
  | cons c cs ih => simp [ih]

theorem takeBytes_foldCase (n : Nat) (t : Text) : takeBytes n (foldCase t) = foldCase (takeBytes n t) := by
  induction t generalizing n with
  | nil => rfl
  | cons c cs ih =>
    rw [foldCase_cons, takeBytes, takeBytes, utf8Size_toLower]
    split
    · rw [ih, foldCase_cons]
    · rfl

theorem dropBytes_foldCase (n : Nat) (t : Text) : dropBytes n (foldCase t) = foldCase (dropBytes n t) := by
  induction t generalizing n with
  | nil => rfl
  | cons c cs ih =>
    rw [foldCase_cons, dropBytes, dropBytes, utf8Size_toLower]
    split
    · rfl
    · exact ih _

theorem slice_foldCase (t : Text) (start stop : Nat) :
    slice (foldCase t) start stop = foldCase (slice t start stop) := by
  rw [slice, slice, dropBytes_foldCase, takeBytes_foldCase]

section Classes

variable {p : Char → Bool} (hp : ∀ c, p c.toLower = p c)
include hp

theorem takeWhile_foldCase (t : Text) : (foldCase t).takeWhile p = foldCase (t.takeWhile p) := by
  have hcomp : p ∘ Char.toLower = p := funext hp
  rw [foldCase, List.takeWhile_map, hcomp]
  rfl

theorem dropWhile_foldCase (t : Text) : (foldCase t).dropWhile p = foldCase (t.dropWhile p) := by
  have hcomp : p ∘ Char.toLower = p := funext hp
  rw [foldCase, List.dropWhile_map, hcomp]
  rfl

theorem all_foldCase (t : Text) : (foldCase t).all p = t.all p := by
  have hcomp : p ∘ Char.toLower = p := funext hp
  rw [foldCase, List.all_map, hcomp]

end Classes

theorem trim_foldCase (t : Text) : trim (foldCase t) = foldCase (trim t) := by
  unfold trim trimStart trimEnd
  rw [dropWhile_foldCase isBlank_toLower, ← foldCase_reverse, dropWhile_foldCase isBlank_toLower,
    foldCase_reverse]

theorem wordsFrom_foldCase (word t : Text) :
    wordsFrom (foldCase word) (foldCase t) = (wordsFrom word t).map foldCase := by
  induction t generalizing word with
  | nil =>
    rw [foldCase_nil, wordsFrom, wordsFrom, isEmpty_foldCase]
    split
    · rfl
    · simp
  | cons c cs ih =>
    have hnil := ih []
    have hcons := ih (c :: word)
    rw [foldCase_nil] at hnil
    rw [foldCase_cons] at hcons
    rw [foldCase_cons, wordsFrom, wordsFrom, isBlank_toLower, isEmpty_foldCase]
    split
    · split
      · exact hnil
      · rw [hnil, List.map_cons, foldCase_reverse]
    · exact hcons

theorem words_foldCase (t : Text) : words (foldCase t) = (words t).map foldCase :=
  wordsFrom_foldCase [] t

theorem splitFrom_foldCase {sep : Char} (hsep : isAsciiLetter sep = false) (piece t : Text) :
    splitFrom sep (foldCase piece) (foldCase t) = (splitFrom sep piece t).map foldCase := by
  induction t generalizing piece with
  | nil => simp [splitFrom]
  | cons c cs ih =>
    have hnil := ih []
    have hcons := ih (c :: piece)
    rw [foldCase_nil] at hnil
    rw [foldCase_cons] at hcons
    rw [foldCase_cons, splitFrom, splitFrom]
    by_cases hc : c = sep
    · rw [if_pos hc, if_pos ((toLower_eq_iff hsep c).mpr hc), hnil, List.map_cons, foldCase_reverse]
    · rw [if_neg hc, if_neg (mt (toLower_eq_iff hsep c).mp hc), hcons]

theorem splitOn_foldCase {sep : Char} (hsep : isAsciiLetter sep = false) (t : Text) :
    splitOn sep (foldCase t) = (splitOn sep t).map foldCase :=
  splitFrom_foldCase hsep [] t

theorem mem_foldCase_iff {x : Char} (hx : isAsciiLetter x = false) (t : Text) :
    x ∈ foldCase t ↔ x ∈ t := by
  induction t with
  | nil => rfl
  | cons c cs ih =>
    rw [foldCase_cons, List.mem_cons, List.mem_cons, ih, eq_comm, toLower_eq_iff hx, eq_comm]

/-- A text of other characters begins a folded text exactly when it begins the text. -/
theorem prefix_foldCase_iff {w : Text} (hw : ∀ c ∈ w, isAsciiLetter c = false) (t : Text) :
    w <+: foldCase t ↔ w <+: t := by
  induction w generalizing t with
  | nil => simp
  | cons c cs ih =>
    rw [List.forall_mem_cons] at hw
    cases t with
    | nil => simp
    | cons d ds =>
      rw [foldCase_cons, List.cons_prefix_cons, List.cons_prefix_cons, ih hw.2, eq_comm,
        toLower_eq_iff hw.1, eq_comm]

/-! ## Judging texts -/

theorem equalsIgnoringCase_eq (s t : Text) :
    equalsIgnoringCase s t = (foldCase s == foldCase t) := rfl

theorem upper_foldCase (t : Text) : upper (foldCase t) = upper t := by
  simp [upper, foldCase, List.flatMap_map]

theorem beginsCased_foldCase (t : Text) : beginsCased (foldCase t) = beginsCased t := by
  have hignorable : ∀ c : Char, inRanges c.toLower.toNat caseIgnorableRanges =
      inRanges c.toNat caseIgnorableRanges :=
    apply_toLower (fun c => inRanges c.toNat caseIgnorableRanges) (by decide)
  have hcased : ∀ c : Char, inRanges c.toLower.toNat casedRanges = inRanges c.toNat casedRanges :=
    apply_toLower (fun c => inRanges c.toNat casedRanges) (by decide)
  unfold beginsCased
  rw [dropWhile_foldCase hignorable]
  cases t.dropWhile fun c => inRanges c.toNat caseIgnorableRanges with
  | nil => rfl
  | cons c cs => exact hcased c

theorem lowerAfter_foldCase (before t : Text) :
    lowerAfter (foldCase before) (foldCase t) = lowerAfter before t := by
  induction t generalizing before with
  | nil => rfl
  | cons c cs ih =>
    have hcons := ih (c :: before)
    rw [foldCase_cons] at hcons
    rw [foldCase_cons, lowerAfter, lowerAfter, hcons, beginsCased_foldCase, beginsCased_foldCase,
      lowerChar_toLower]
    simp only [toLower_eq_iff (show isAsciiLetter 'Σ' = false by decide)]

theorem lower_foldCase (t : Text) : lower (foldCase t) = lower t := lowerAfter_foldCase [] t

theorem toLower_of_isAsciiDigit {c : Char} (h : isAsciiDigit c = true) : c.toLower = c := by
  rcases toLower_cases c with hc | ⟨n, hn, rfl⟩
  · exact hc
  · have hletter : ∀ n < 26, isAsciiDigit (Char.ofNat (65 + n)) = false := by decide
    rw [hletter n hn] at h
    cases h

theorem natBelow?_foldCase (bound : Nat) (t : Text) :
    natBelow? bound (foldCase t) = natBelow? bound t := by
  unfold natBelow?
  rw [isEmpty_foldCase, all_foldCase isAsciiDigit_toLower]
  by_cases h : t.all isAsciiDigit = true
  · have hsame : foldCase t = t := by
      refine (List.map_congr_left fun c hc => ?_).trans (List.map_id t)
      exact toLower_of_isAsciiDigit (List.all_eq_true.mp h c hc)
    rw [hsame]
  · simp [h]

theorem dropSign_foldCase (t : Text) : dropSign (foldCase t) = foldCase (dropSign t) := by
  cases t with
  | nil => rfl
  | cons c cs =>
    have hplus := toLower_eq_iff (show isAsciiLetter '+' = false by decide) c
    have hminus := toLower_eq_iff (show isAsciiLetter '-' = false by decide) c
    by_cases h₁ : c = '+'
    · subst h₁
      rfl
    by_cases h₂ : c = '-'
    · subst h₂
      rfl
    have hself : ∀ (d : Char) (ds : Text), d ≠ '+' → d ≠ '-' → dropSign (d :: ds) = d :: ds := by
      intro d ds hd₁ hd₂
      unfold dropSign
      split <;> simp_all
    rw [foldCase_cons, hself _ _ (mt hplus.mp h₁) (mt hminus.mp h₂), hself c cs h₁ h₂, foldCase_cons]

theorem isExponent_foldCase (t : Text) : isExponent (foldCase t) = isExponent t := by
  cases t with
  | nil => rfl
  | cons c cs =>
    have hmark : (c.toLower == 'e' || c.toLower == 'E') = (c == 'e' || c == 'E') :=
      apply_toLower (fun c => c == 'e' || c == 'E') (by decide) c
    rw [foldCase_cons, isExponent, isExponent, dropSign_foldCase, isEmpty_foldCase,
      all_foldCase isAsciiDigit_toLower, hmark]

/-- The two forms of a decimal, told apart by the character behind its first digits. -/
theorem isDecimal_eq (t : Text) : isDecimal t =
    if (t.dropWhile isAsciiDigit).head? = some '.' then
      !(t.takeWhile isAsciiDigit ++ (t.dropWhile isAsciiDigit).tail.takeWhile isAsciiDigit).isEmpty &&
        isExponent ((t.dropWhile isAsciiDigit).tail.dropWhile isAsciiDigit)
    else !(t.takeWhile isAsciiDigit).isEmpty && isExponent (t.dropWhile isAsciiDigit) := by
  unfold isDecimal
  dsimp only
  split
  · rename_i cs hcs
    simp [hcs]
  · rename_i hpoint
    rw [if_neg]
    intro hhead
    obtain ⟨cs, hcs⟩ := List.head?_eq_some_iff.mp hhead
    exact hpoint cs hcs

theorem head?_foldCase_eq_some_iff {x : Char} (hx : isAsciiLetter x = false) (t : Text) :
    (foldCase t).head? = some x ↔ t.head? = some x := by
  cases t with
  | nil => rfl
  | cons c cs => simp [toLower_eq_iff hx]

theorem isDecimal_foldCase (t : Text) : isDecimal (foldCase t) = isDecimal t := by
  have htail : ∀ u : Text, (foldCase u).tail = foldCase u.tail := fun u => List.map_tail.symm
  rw [isDecimal_eq, isDecimal_eq]
  simp only [takeWhile_foldCase isAsciiDigit_toLower, dropWhile_foldCase isAsciiDigit_toLower, htail,
    head?_foldCase_eq_some_iff (show isAsciiLetter '.' = false by decide), isExponent_foldCase,
    isEmpty_foldCase, ← foldCase_append]

theorem isFloat_foldCase (t : Text) : isFloat (foldCase t) = isFloat t := by
  unfold isFloat isNonFinite
  simp only [dropSign_foldCase, isDecimal_foldCase, equalsIgnoringCase_eq, foldCase_foldCase]

theorem undoubleQuotes_foldCase (t : Text) :
    undoubleQuotes (foldCase t) = foldCase (undoubleQuotes t) := by
  fun_induction undoubleQuotes t with
  | case1 cs ih =>
    rw [foldCase_cons, foldCase_cons, toLower_eq_self (by decide), undoubleQuotes, ih,
      foldCase_cons, toLower_eq_self (by decide)]
  | case2 c cs h ih =>
    have hquote := toLower_eq_iff (show isAsciiLetter '\x27' = false by decide)
    have hsingle : ∀ ds, c.toLower = '\x27' → foldCase cs = '\x27' :: ds → False := by
      intro ds hc hcs
      cases cs with
      | nil => cases hcs
      | cons d cs =>
        rw [foldCase_cons, List.cons.injEq] at hcs
        exact h cs ((hquote c).mp hc) (by rw [(hquote d).mp hcs.1])
    rw [foldCase_cons, undoubleQuotes, ih, foldCase_cons]
    exact hsingle
  | case3 => rfl

end Text

/-! ## Strings -/

/-- The string with ASCII letters written small. -/
def foldString (s : String) : String := String.ofList (Text.foldCase s.toList)

theorem ofList_foldCase (t : Text) : String.ofList (Text.foldCase t) = foldString (String.ofList t) := by
  rw [foldString, String.toList_ofList]

@[simp] theorem toList_foldString (s : String) : (foldString s).toList = Text.foldCase s.toList :=
  String.toList_ofList

@[simp] theorem upperString_foldString (s : String) : upperString (foldString s) = upperString s := by
  rw [upperString, upperString, toList_foldString, Text.upper_foldCase]

@[simp] theorem lowerString_foldString (s : String) : lowerString (foldString s) = lowerString s := by
  rw [lowerString, lowerString, toList_foldString, Text.lower_foldCase]

@[simp] theorem utf8ByteSize_foldString (s : String) :
    (foldString s).utf8ByteSize = s.utf8ByteSize := by
  have hsize : ∀ t : Text, String.utf8Len (Text.foldCase t) = String.utf8Len t := by
    intro t
    induction t with
    | nil => rfl
    | cons c cs ih => simp [ih]
  calc (foldString s).utf8ByteSize
      = String.utf8Len s.toList := by rw [foldString, String.utf8ByteSize_ofList, hsize]
    _ = (String.ofList s.toList).utf8ByteSize := (String.utf8ByteSize_ofList _).symm
    _ = s.utf8ByteSize := by rw [String.ofList_toList]

end SchemaReview
