import SchemaReview.Ddl.Name
import SchemaReview.Proofs.Pattern.Occurrence

/-!
# Proofs.Ddl.Name — what is read as a name

A name is read in one way only: the marks around it cannot be part of it, and a run of word
characters that is cut short is followed by a word character.  So the pattern for names, with all
its ways to match, comes down to a function of the text.

* `Text.qualifiedName t`: the name at the beginning of `t`.  The pattern captures it whenever what
  comes behind accepts anything: `exists_of_run_qualifiedName`.
* The name does not depend on what follows the next blank: `qualifiedName_upToBlank`.
-/

namespace SchemaReview

/-- The marks that may stand in front of a name. -/
def openingMarks : List Char := ['\x60', '"', '[']

/-- The marks that may stand behind a name. -/
def closingMarks : List Char := ['\x60', '"', ']']

namespace Text

/-- The text behind one of the marks, when it begins with one. -/
def unmarked (marks : List Char) : Text → Text
  | [] => []
  | x :: xs => if x ∈ marks then xs else x :: xs

/-- The word at the beginning, behind an opening mark. -/
def plainName (t : Text) : Text := (unmarked openingMarks t).takeWhile isWord

/-- The text behind that word and a closing mark. -/
def behindName (t : Text) : Text :=
  unmarked closingMarks ((unmarked openingMarks t).dropWhile isWord)

/-- The text behind the schema and its point, when a name follows them. -/
def behindSchema (t : Text) : Text :=
  match behindName t with
  | '.' :: u => if plainName t = [] ∨ plainName u = [] then t else u
  | _ => t

/-- The name at the beginning, behind a schema and a point when there are any. -/
def qualifiedName (t : Text) : Text := plainName (behindSchema t)

end Text

open Text

/-! ## One way to match -/

/-- The position behind one of the marks, when one follows. -/
def Cursor.skip (marks : List Char) (c : Cursor) : Cursor :=
  match c.rest with
  | [] => c
  | x :: xs => if x ∈ marks then c.past x xs else c

theorem Cursor.rest_skip (marks : List Char) (c : Cursor) :
    (c.skip marks).rest = unmarked marks c.rest := by
  obtain ⟨before, offset, rest⟩ := c
  cases rest with
  | nil => rfl
  | cons x xs =>
    simp only [skip, unmarked]
    split <;> rfl

/-- The position behind the word at the beginning. -/
def Cursor.behindWord (c : Cursor) : Cursor := (c.skip openingMarks).farthest isWord

/-- The position behind the word at the beginning and a closing mark. -/
def Cursor.behindName (c : Cursor) : Cursor := c.behindWord.skip closingMarks

theorem Cursor.rest_behindName (c : Cursor) : c.behindName.rest = Text.behindName c.rest := by
  rw [behindName, rest_skip, behindWord, farthest, rest_skip]
  rfl

/-- What is captured of the word at the beginning. -/
def Cursor.wordCapture (c : Cursor) : Capture :=
  ⟨(c.skip openingMarks).offset, c.behindWord.offset, unmarked openingMarks c.rest⟩

theorem Cursor.text_wordCapture (c : Cursor) : c.wordCapture.text = plainName c.rest := by
  have hpasses := (c.skip openingMarks).passes_farthest isWord
  have hsize : c.wordCapture.stop - c.wordCapture.start = byteSize (plainName c.rest) := by
    have hoffset : c.behindWord.offset = (c.skip openingMarks).offset +
        byteSize ((c.skip openingMarks).rest.takeWhile isWord) := hpasses.offset
    rw [rest_skip] at hoffset
    simp only [wordCapture, plainName]
    omega
  have htail : c.wordCapture.tail = plainName c.rest ++ c.behindWord.rest := by
    have hrest : (c.skip openingMarks).rest = _ := hpasses.rest
    rwa [rest_skip] at hrest
  rw [Capture.text, hsize, htail, takeBytes_append]

namespace Pattern

variable {α : Type} {c : Cursor} {g : Captures} {k : Continue α}

/-- A mark that may be left out is taken when that is accepted, or when nothing else is. -/
theorem run_opt_oneOf_eq {marks : List Char} (h : (k (c.skip marks) g).isSome = true ∨
      ∀ x ∈ c.rest.head?, x ∈ marks → k c g = none) :
    (opt (oneOf marks)).run c g k = k (c.skip marks) g := by
  obtain ⟨before, offset, rest⟩ := c
  cases rest with
  | nil => rfl
  | cons x xs =>
    by_cases hx : x ∈ marks
    · have hholds : (CharClass.oneOf marks).holds x = true := by simpa [CharClass.holds] using hx
      have hskip : Cursor.skip marks ⟨before, offset, x :: xs⟩ = ⟨some x, offset + x.utf8Size, xs⟩ := by
        simp [Cursor.skip, hx, Cursor.past]
      rw [hskip] at h ⊢
      rw [opt, run_alt, oneOf, run_one_of_holds hholds]
      cases hk : k ⟨some x, offset + x.utf8Size, xs⟩ g with
      | some a => rfl
      | none =>
        rw [hk] at h
        rcases h with h | h
        · cases h
        · exact h x rfl hx
    · rw [run_opt_oneOf_of_not_mem hx]
      simp [Cursor.skip, hx]

theorem not_isWord_of_mem_openingMarks {x : Char} (h : x ∈ openingMarks) : isWord x = false := by
  have hall : openingMarks.all (fun y => !isWord y) = true := rfl
  simpa using List.all_eq_true.mp hall x h

/-- A name can only begin behind the mark that stands in front of it. -/
theorem run_opt_openingQuote_eq (h : (∃ x ∈ c.rest.head?, isWord x = false) → k c g = none) :
    (opt openingQuote).run c g k = k (c.skip openingMarks) g :=
  run_opt_oneOf_eq (Or.inr fun x hx hmark => h ⟨x, hx, not_isWord_of_mem_openingMarks hmark⟩)

theorem run_wordRun_of_not_isWord (h : ∃ x ∈ c.rest.head?, isWord x = false) :
    wordRun.run c g k = none := by
  obtain ⟨before, offset, rest⟩ := c
  obtain ⟨x, hx, hword⟩ := h
  cases rest with
  | nil => cases hx
  | cons y ys =>
    obtain rfl : y = x := Option.some.inj hx
    have hholds : CharClass.word.holds y = false := hword
    rw [wordRun, atLeastOne, run_seq, run_one_of_not_holds hholds]

/-- A word is taken whole when that is accepted, or when nothing else is. -/
theorem run_wordRun_eq (h : (k (c.farthest isWord) g).isSome = true ∨
      ∀ d, (∃ x ∈ d.rest.head?, isWord x = true) → k d g = none) :
    wordRun.run c g k =
      if c.rest.takeWhile isWord = [] then none else k (c.farthest isWord) g := by
  rw [wordRun]
  exact run_atLeastOne_eq h

/-- A schema and its point, where anything may follow. -/
theorem run_schema (c : Cursor) (g : Captures) (k : Continue α) :
    (plainName ++ char '.').run c g k =
      if Text.plainName c.rest = [] then none else (char '.').run c.behindName g k := by
  have hpoint : ∀ {x : Char}, x ≠ '.' → ∀ {d : Cursor}, x ∈ d.rest.head? →
      (char '.').run d g k = none := by
    intro x hx d hd
    obtain ⟨before, offset, rest⟩ := d
    cases rest with
    | nil => cases hd
    | cons y ys =>
      obtain rfl : y = x := Option.some.inj hd
      exact run_one_of_not_holds (by simpa [CharClass.holds] using hx) before offset ys g k
  -- no point stands at a closing mark, so the mark is taken
  have hclose : ∀ d : Cursor, (opt closingQuote).run d g (fun e h => (char '.').run e h k) =
      (char '.').run (d.skip closingMarks) g k := by
    intro d
    refine run_opt_oneOf_eq (Or.inr fun x hx hmark => hpoint ?_ hx)
    rintro rfl
    exact absurd hmark (by decide)
  -- nor is there one at a word character, so the word is taken whole
  have hword : ∀ d : Cursor, (∃ x ∈ d.rest.head?, isWord x = true) →
      (opt closingQuote).run d g (fun e h => (char '.').run e h k) = none := by
    rintro d ⟨x, hx, hxword⟩
    have hnot : x ∉ closingMarks := not_mem_of_isWord rfl hxword
    rw [hclose]
    refine hpoint (x := x) ?_ ?_
    · rintro rfl
      exact absurd hxword (by decide)
    · obtain ⟨before, offset, rest⟩ := d
      cases rest with
      | nil => cases hx
      | cons y ys =>
        obtain rfl : y = x := Option.some.inj hx
        simp [Cursor.skip, hnot]
  have hrun : (plainName ++ char '.').run c g k =
      (opt openingQuote).run c g fun d h => wordRun.run d h fun e i =>
        (opt closingQuote).run e i fun e i => (char '.').run e i k := rfl
  rw [hrun, run_opt_openingQuote_eq run_wordRun_of_not_isWord, run_wordRun_eq (Or.inr hword),
    Cursor.rest_skip]
  show (if Text.plainName c.rest = [] then none else
    (opt closingQuote).run c.behindWord g fun e i => (char '.').run e i k) = _
  rw [hclose]
  rfl

/-- A name, where anything that follows is accepted. -/
theorem run_name (hk : ∀ d h, (k d h).isSome = true) (n : Nat) (c : Cursor) (g : Captures) :
    (name n).run c g k =
      if Text.plainName c.rest = [] then none
      else k c.behindName ((n, c.wordCapture) :: g) := by
  have hclose : ∀ (d : Cursor) (h : Captures), (opt closingQuote).run d h k =
      k (d.skip closingMarks) h := fun d h => run_opt_oneOf_eq (Or.inl (hk _ _))
  have hrun : (name n).run c g k =
      (opt openingQuote).run c g fun d h => wordRun.run d h fun e i =>
        (opt closingQuote).run e ((n, ⟨d.offset, e.offset, d.rest⟩) :: i) k := rfl
  rw [hrun, run_opt_openingQuote_eq run_wordRun_of_not_isWord,
    run_wordRun_eq (Or.inl (by rw [hclose]; exact hk _ _)), Cursor.rest_skip, hclose]
  rfl

/-- A name with or without a schema is the name behind the schema. -/
theorem run_qualifiedName_eq (hk : ∀ d h, (k d h).isSome = true) (n : Nat) (c : Cursor)
    (g : Captures) :
    ∃ d : Cursor, d.rest = behindSchema c.rest ∧
      (qualifiedName n).run c g k = (name n).run d g k := by
  have hrun : (qualifiedName n).run c g k =
      ((plainName ++ char '.').run c g fun d h => (name n).run d h k).orElse
        fun _ => (name n).run c g k := rfl
  have hrest := c.rest_behindName
  rw [hrun, run_schema]
  -- a schema is a name with a point and another name behind it; else the pattern goes back
  by_cases hpoint : ∃ u, Text.behindName c.rest = '.' :: u
  · obtain ⟨u, hu⟩ := hpoint
    have hbehind : behindSchema c.rest =
        if Text.plainName c.rest = [] ∨ Text.plainName u = [] then c.rest else u := by
      rw [behindSchema, hu]
      rfl
    rw [hu] at hrest
    have hpast : (char '.').run c.behindName g (fun d h => (name n).run d h k) =
        (name n).run (c.behindName.past '.' u) g k := by
      rw [char, oneOf, run, hrest]
      rfl
    rw [hpast, run_name hk n (c.behindName.past '.' u)]
    by_cases hnames : Text.plainName c.rest = [] ∨ Text.plainName u = []
    · rw [if_pos hnames] at hbehind
      refine ⟨c, hbehind.symm, ?_⟩
      rcases hnames with hplain | hplain
      · rw [if_pos hplain]
        rfl
      · rw [if_pos (show Text.plainName (c.behindName.past '.' u).rest = [] from hplain), ite_self]
        rfl
    · rw [if_neg hnames] at hbehind
      rw [not_or] at hnames
      refine ⟨c.behindName.past '.' u, hbehind.symm, ?_⟩
      rw [if_neg hnames.1, run_name hk n (c.behindName.past '.' u),
        if_neg (show ¬ Text.plainName (c.behindName.past '.' u).rest = [] from hnames.2)]
      obtain ⟨a, ha⟩ := Option.isSome_iff_exists.mp (hk (c.behindName.past '.' u).behindName
        ((n, (c.behindName.past '.' u).wordCapture) :: g))
      rw [ha]
      rfl
  · have hnone : (char '.').run c.behindName g (fun d h => (name n).run d h k) = none := by
      rw [char, oneOf, run, hrest]
      split
      · rfl
      · rename_i x xs hx
        have hnot : x ≠ '.' := by
          rintro rfl
          exact hpoint ⟨xs, hx⟩
        simp [CharClass.holds, hnot]
    refine ⟨c, ?_, by rw [hnone, ite_self]; rfl⟩
    unfold behindSchema
    split
    · rename_i u hu
      exact absurd ⟨u, hu⟩ hpoint
    · rfl

/-- What is captured of a name with or without a schema, where anything that follows is accepted. -/
theorem exists_of_run_qualifiedName (hk : ∀ d h, (k d h).isSome = true) {n : Nat} {a : α}
    (h : (qualifiedName n).run c g k = some a) :
    ∃ d capture, k d ((n, capture) :: g) = some a ∧ capture.text = Text.qualifiedName c.rest ∧
      Text.qualifiedName c.rest ≠ [] := by
  obtain ⟨d, hrest, hname⟩ := run_qualifiedName_eq hk n c g
  rw [hname, run_name hk] at h
  split at h
  · cases h
  · rename_i hne
    rw [Text.qualifiedName, ← hrest]
    exact ⟨d.behindName, d.wordCapture, h, d.text_wordCapture, hne⟩

end Pattern

/-! ## Names end at blanks -/

namespace Text

/-- The text up to the first blank. -/
def upToBlank (t : Text) : Text := t.takeWhile fun c => !isBlank c

theorem unmarked_upToBlank {marks : List Char} (h : marks.any isBlank = false) (t : Text) :
    unmarked marks t.upToBlank = (unmarked marks t).upToBlank := by
  cases t with
  | nil => rfl
  | cons x xs =>
    by_cases hx : x ∈ marks
    · simp [upToBlank, unmarked, hx, List.any_eq_false.mp h x hx]
    · cases hblank : isBlank x <;> simp [upToBlank, unmarked, hx, hblank]

theorem takeWhile_isWord_upToBlank (t : Text) :
    t.upToBlank.takeWhile isWord = t.takeWhile isWord := by
  induction t with
  | nil => rfl
  | cons x xs ih =>
    unfold upToBlank at ih ⊢
    cases hx : isWord x with
    | true => simp [isBlank_of_isWord hx, hx, ih]
    | false => cases hblank : isBlank x <;> simp [hx, hblank]

theorem dropWhile_isWord_upToBlank (t : Text) :
    t.upToBlank.dropWhile isWord = upToBlank (t.dropWhile isWord) := by
  induction t with
  | nil => rfl
  | cons x xs ih =>
    unfold upToBlank at ih ⊢
    cases hx : isWord x with
    | true => simp [isBlank_of_isWord hx, hx, ih]
    | false => cases hblank : isBlank x <;> simp [hx, hblank]

theorem plainName_upToBlank (t : Text) : plainName t.upToBlank = plainName t := by
  rw [plainName, unmarked_upToBlank rfl, takeWhile_isWord_upToBlank, plainName]

theorem behindName_upToBlank (t : Text) : behindName t.upToBlank = (behindName t).upToBlank := by
  rw [behindName, unmarked_upToBlank rfl, dropWhile_isWord_upToBlank, unmarked_upToBlank rfl,
    behindName]

/-- A name does not depend on what follows the next blank. -/
theorem qualifiedName_upToBlank (t : Text) : qualifiedName t.upToBlank = qualifiedName t := by
  unfold qualifiedName behindSchema
  rw [behindName_upToBlank, plainName_upToBlank]
  cases behindName t with
  | nil => exact plainName_upToBlank t
  | cons x xs =>
    by_cases hx : x = '.'
    · subst hx
      have hpoint : upToBlank ('.' :: xs) = '.' :: upToBlank xs := by
        simp [upToBlank, show isBlank '.' = false from rfl]
      rw [hpoint]
      simp only [plainName_upToBlank]
      split <;> exact plainName_upToBlank _
    · have hplain := plainName_upToBlank t
      unfold upToBlank at hplain
      cases hblank : isBlank x <;> simp [upToBlank, hblank, hx, hplain]

/-- So two texts with a blank in them that go on to the same text begin with the same name. -/
theorem qualifiedName_eq_of_append_eq {s t u v : Text} (h : s ++ u = t ++ v)
    (hs : ∃ b ∈ s, isBlank b = true) (ht : ∃ b ∈ t, isBlank b = true) :
    qualifiedName s = qualifiedName t := by
  have happend : ∀ {s : Text} (u : Text), (∃ b ∈ s, isBlank b = true) →
      (s ++ u).upToBlank = s.upToBlank := by
    intro s u hs
    obtain ⟨b, hb, hblank⟩ := hs
    obtain ⟨s₁, s₂, rfl⟩ := List.append_of_mem hb
    unfold upToBlank
    rw [List.append_assoc, List.cons_append, List.takeWhile_append, List.takeWhile_append]
    simp [hblank]
  rw [← qualifiedName_upToBlank s, ← qualifiedName_upToBlank t, ← happend u hs, h, happend v ht]

end Text

end SchemaReview
