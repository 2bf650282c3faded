import SchemaReview.Ddl.Check
import SchemaReview.Proofs.Ddl.Comparison
import SchemaReview.Proofs.Ddl.ForeignKey
import SchemaReview.Proofs.Pattern.Walk

/-!
# Proofs.Ddl.BoundedRange — the ranges that are found in comparisons

Main statement (`findRuns_boundedRange`): in a disjunction of conjunctions of comparisons, the pattern
for ranges finds exactly the neighbours `… < n AND … > k` of the conjunctions, from left to right, and
nothing across an `OR`.

The pattern is searched for anywhere in the text.  It is a side of a range, the keyword and another side
(`run_boundedRange`); each of these can be read in one way only, so it is run on a comparison or a
connective with anything behind it.  Then the search walks over the text comparison by comparison
(`Finds`).
-/

namespace SchemaReview

open Text

/-! ## Signs -/

theorem Sign.char_injective : Function.Injective Sign.char := by
  intro s s'
  cases s <;> cases s' <;> decide

theorem Sign.isWord_char (s : Sign) : isWord s.char = false := by
  cases s <;> decide

theorem Sign.isBlank_char (s : Sign) : isBlank s.char = false := by
  cases s <;> decide

/-! ## The pattern on a comparison -/

namespace Pattern

variable {α : Type} {k : Continue α}

/-- One side of a range: a column under `i`, the sign, and a bound under `j`. -/
def limit (i j : Nat) (sign : Sign) : Pattern :=
  group i wordRun ++ blanks ++ char sign.char ++ blanks ++ group j digits

/-- What stands between the sides of a range. -/
def between : Pattern := gap ++ keyword "AND" ++ gap

theorem run_boundedRange (c : Cursor) (g : Captures) :
    boundedRange.run c g k = (limit 1 2 .less).run c g fun d h => between.run d h fun e i =>
      (limit 3 4 .greater).run e i k := rfl

theorem run_limit (i j : Nat) (sign : Sign) (c : Cursor) (g : Captures) :
    (limit i j sign).run c g k = run (atLeastOne .word) c g fun d h =>
      run (.many .blank) d ((i, ⟨c.offset, d.offset, c.rest⟩) :: h) fun d h =>
        (char sign.char).run d h fun d h => (blanks ++ group j digits).run d h k := rfl

theorem refuses_char (cls : CharClass) {sign : Sign} (h : cls.holds sign.char = false) :
    Refuses cls fun d g => (char sign.char).run d g k := by
  refine refuses_one cls _ fun x hx => ?_
  by_contra hchar
  obtain rfl : x = sign.char := holds_char_iff.mp (by simpa using hchar)
  rw [h] at hx
  cases hx

/-- A word and the white space behind it are taken as the column and what follows it. -/
theorem run_limit_word {w b t : Text} (hne : w ≠ []) (hw : ∀ x ∈ w, isWord x = true)
    (hb : ∀ x ∈ b, isBlank x = true) (hbt : ∀ x ∈ (b ++ t).head?, isWord x = false)
    (ht : ∀ x ∈ t.head?, isBlank x = false) (i j : Nat) (sign : Sign) (before : Option Char)
    (offset : Nat) (g : Captures) :
    (limit i j sign).run ⟨before, offset, w ++ (b ++ t)⟩ g k =
      (char sign.char).run
        ⟨b.getLast?.or (w.getLast?.or before), offset + byteSize w + byteSize b, t⟩
        ((i, ⟨offset, offset + byteSize w, w ++ (b ++ t)⟩) :: g)
        fun d h => (blanks ++ group j digits).run d h k := by
  have hword : Refuses .word fun d h =>
      run (.many .blank) d ((i, ⟨offset, d.offset, w ++ (b ++ t)⟩) :: h) fun d h =>
        (char sign.char).run d h fun d h => (blanks ++ group j digits).run d h k := by
    intro d h hd
    refine refuses_many .word .blank ?_ (refuses_char .word sign.isWord_char) d _ hd
    exact fun x hx => isBlank_of_isWord hx
  rw [run_limit, run_atLeastOne_text .word hne hw hbt (Or.inr hword),
    run_many_text .blank hb ht (Or.inr (refuses_char .blank sign.isBlank_char))]

/-- A word is not the column of a comparison when the sign does not follow it. -/
theorem run_limit_eq_none {w b t : Text} (hne : w ≠ []) (hw : ∀ x ∈ w, isWord x = true)
    (hb : ∀ x ∈ b, isBlank x = true) (hbt : ∀ x ∈ (b ++ t).head?, isWord x = false)
    (ht : ∀ x ∈ t.head?, isBlank x = false) {sign : Sign} (hsign : t.head? ≠ some sign.char)
    (i j : Nat) (before : Option Char) (offset : Nat) (g : Captures) :
    (limit i j sign).run ⟨before, offset, w ++ (b ++ t)⟩ g k = none := by
  rw [run_limit_word hne hw hb hbt ht]
  cases t with
  | nil => rfl
  | cons x xs =>
    refine run_one_of_not_holds ?_ _ _ _ _ _
    by_contra hx
    obtain rfl : x = sign.char := holds_char_iff.mp (by simpa using hx)
    exact hsign rfl

end Pattern

namespace Comparison

variable (c : Comparison)

theorem column_word : ∀ x ∈ c.column, isWord x = true := List.all_eq_true.mp c.column_all

theorem lead_blank : ∀ x ∈ c.lead, isBlank x = true := List.all_eq_true.mp c.lead_all

theorem trail_blank : ∀ x ∈ c.trail, isBlank x = true := List.all_eq_true.mp c.trail_all

/-- What a side of a range remembers of the comparison, with `t` behind it. -/
def captures (i j offset : Nat) (t : Text) : Captures :=
  let start := offset + byteSize c.column + byteSize c.lead + c.sign.char.utf8Size + byteSize c.trail
  [(j, ⟨start, start + byteSize c.bound, c.bound ++ t⟩),
    (i, ⟨offset, offset + byteSize c.column,
      c.column ++ (c.lead ++ c.sign.char :: (c.trail ++ (c.bound ++ t)))⟩)]

theorem text_append (t : Text) :
    c.text ++ t = c.column ++ (c.lead ++ c.sign.char :: (c.trail ++ (c.bound ++ t))) := by
  simp [text]

theorem byteSize_text : byteSize c.text = byteSize c.column + byteSize c.lead +
    c.sign.char.utf8Size + byteSize c.trail + byteSize c.bound := by
  simp only [text, byteSize_append, byteSize_cons]
  omega

theorem isWord_head (t : Text) : ∀ x ∈ (c.text ++ t).head?, isWord x = true := by
  rw [text_append]
  exact forall_mem_head?_append c.column_ne_nil c.column_word _

theorem not_isWord_behind_column (t : Text) :
    ∀ x ∈ (c.lead ++ c.sign.char :: t).head?, isWord x = false := by
  exact forall_mem_head?_append_of_head (fun x hx => isWord_of_isBlank (c.lead_blank x hx))
    (forall_mem_head?_cons c.sign.isWord_char t)

theorem not_isBlank_at_sign (t : Text) : ∀ x ∈ (c.sign.char :: t).head?, isBlank x = false :=
  forall_mem_head?_cons c.sign.isBlank_char t

theorem digit_bound : ∀ x ∈ c.bound, CharClass.digit.holds x = true :=
  fun x hx => isDigit_of_isAsciiDigit (List.all_eq_true.mp c.bound_all x hx)

theorem word_bound : ∀ x ∈ c.bound, isWord x = true :=
  fun x hx => isWord_of_isDigit (c.digit_bound x hx)

end Comparison

namespace Pattern

variable {α : Type} {k : Continue α} (c : Comparison) {t : Text}

theorem run_limit_of_ne {sign : Sign} (hsign : c.sign ≠ sign) (i j : Nat) (before : Option Char)
    (offset : Nat) (g : Captures) :
    (limit i j sign).run ⟨before, offset, c.text ++ t⟩ g k = none := by
  rw [c.text_append]
  refine run_limit_eq_none c.column_ne_nil c.column_word c.lead_blank
    (c.not_isWord_behind_column _) (c.not_isBlank_at_sign _) ?_ i j before offset g
  intro hchar
  exact hsign (Sign.char_injective (Option.some.inj hchar))

/-- Behind the sign the bound is taken as a whole. -/
theorem run_bound (ht : ∀ x ∈ t.head?, isDigit x = false)
    (hk : (∀ d g, (k d g).isSome = true) ∨ Refuses .digit k) (j : Nat) (before : Option Char)
    (offset : Nat) (g : Captures) :
    (blanks ++ group j digits).run ⟨before, offset, c.trail ++ (c.bound ++ t)⟩ g k =
      k ⟨c.bound.getLast?.or (c.trail.getLast?.or before),
          offset + byteSize c.trail + byteSize c.bound, t⟩
        ((j, ⟨offset + byteSize c.trail, offset + byteSize c.trail + byteSize c.bound,
          c.bound ++ t⟩) :: g) := by
  have hbound : ∀ x ∈ (c.bound ++ t).head?, isBlank x = false :=
    forall_mem_head?_append c.bound_ne_nil (fun x hx => isBlank_of_isWord (c.word_bound x hx)) t
  have hblank : Refuses .blank fun d h => (group j digits).run d h k := by
    intro d h hd
    exact refuses_atLeastOne .blank .digit (fun x hx => isDigit_of_isBlank hx) d h hd
  -- remembering the bound changes nothing in what is accepted behind it
  set last : Continue α := fun d h =>
    k d ((j, ⟨offset + byteSize c.trail, d.offset, c.bound ++ t⟩) :: h)
  have hlast : (∀ d h, (last d h).isSome = true) ∨ Refuses .digit last :=
    hk.imp (fun hsome d h => hsome d _) fun hnone d h hd => hnone d _ hd
  rw [run_append, blanks, run_many_text .blank c.trail_blank hbound (Or.inr hblank)]
  exact run_atLeastOne_text .digit c.bound_ne_nil c.digit_bound ht hlast _ _ g

/-- A side of a range takes a comparison with its sign as a whole. -/
theorem run_limit_text (ht : ∀ x ∈ t.head?, isDigit x = false)
    (hk : (∀ d g, (k d g).isSome = true) ∨ Refuses .digit k) (i j : Nat) (before : Option Char)
    (offset : Nat) (g : Captures) :
    ∃ before', (limit i j c.sign).run ⟨before, offset, c.text ++ t⟩ g k =
      k ⟨before', offset + byteSize c.text, t⟩ (c.captures i j offset t ++ g) := by
  refine ⟨c.bound.getLast?.or (c.trail.getLast?.or (some c.sign.char)), ?_⟩
  have hsize : offset + byteSize c.text = offset + byteSize c.column + byteSize c.lead +
      c.sign.char.utf8Size + byteSize c.trail + byteSize c.bound := by
    rw [c.byteSize_text]
    omega
  rw [hsize, Comparison.captures, c.text_append, run_limit_word c.column_ne_nil c.column_word
    c.lead_blank (c.not_isWord_behind_column _) (c.not_isBlank_at_sign _), char, oneOf,
    run_one_of_holds (holds_char_iff.mpr rfl), run_bound c ht hk]
  rfl

end Pattern

/-! ## The pattern on a connective -/

theorem forall₂_letter_of_equalsIgnoringCase {cs : List Char} {w : Text}
    (h : equalsIgnoringCase w cs = true) :
    List.Forall₂ (fun l x => (CharClass.letter l).holds x = true) cs w := by
  have htoUpper : ∀ x : Char, x.toLower.toUpper = x.toUpper :=
    apply_toLower Char.toUpper (by decide)
  rw [equalsIgnoringCase_eq, beq_iff_eq] at h
  induction cs generalizing w with
  | nil =>
    obtain rfl : w = [] := by simpa [foldCase] using h
    exact .nil
  | cons l cs ih =>
    cases w with
    | nil => cases h
    | cons x xs =>
      rw [foldCase_cons, foldCase_cons, List.cons.injEq] at h
      refine .cons ?_ (ih h.2)
      have hupper : x.toUpper = l.toUpper := by rw [← htoUpper x, h.1, htoUpper]
      simp [CharClass.holds, hupper]

namespace Joiner

variable {k : Connective} (j : Joiner k)

theorem before_blank : ∀ x ∈ j.before, isBlank x = true := List.all_eq_true.mp j.before_all

theorem after_blank : ∀ x ∈ j.after, isBlank x = true := List.all_eq_true.mp j.after_all

theorem spells : List.Forall₂ (fun l x => (CharClass.letter l).holds x = true) k.letters j.word :=
  forall₂_letter_of_equalsIgnoringCase j.word_spells

theorem word_ne_nil : j.word ≠ [] := by
  intro hnil
  have hspells := j.spells
  rw [hnil, List.forall₂_nil_right_iff] at hspells
  revert hspells
  cases k <;> decide

theorem word_isWord : ∀ x ∈ j.word, isWord x = true := by
  have hletters : k.letters.all (fun l => isWord l.toUpper) = true := by cases k <;> decide
  exact isWord_of_forall₂_letter (List.all_eq_true.mp hletters) j.spells

theorem text_append (t : Text) : j.text ++ t = j.before ++ (j.word ++ (j.after ++ t)) := by
  simp [text]

theorem isDigit_head (t : Text) : ∀ x ∈ (j.text ++ t).head?, isDigit x = false := by
  rw [text_append]
  exact forall_mem_head?_append j.before_ne_nil (fun x hx => isDigit_of_isBlank (j.before_blank x hx)) _

end Joiner

namespace Pattern

variable {α : Type} {k : Continue α} {t : Text}

theorem run_between (c : Cursor) (g : Captures) :
    between.run c g k = run (atLeastOne .blank) c g fun d h =>
      (letters Connective.and.letters).run d h fun d h => run (atLeastOne .blank) d h k := rfl

/-- White space is followed by a letter. -/
theorem refuses_letters : Refuses .blank fun d h => (letters Connective.and.letters).run d h k := by
  intro d h hd
  show run (.one (.letter 'A')) d h (fun d h => (letters ['N', 'D']).run d h k) = none
  refine refuses_one .blank (.letter 'A') (fun x hx => ?_) d h hd
  by_contra hletter
  have hword : isWord x = true :=
    isWord_of_letter (l := 'A') (by decide) (by simpa using hletter)
  rw [isWord_of_isBlank hx] at hword
  cases hword

/-- In front of any connective, its white space is taken and its letters are left. -/
theorem run_between_joiner {c : Connective} (j : Joiner c) (before : Option Char) (offset : Nat)
    (g : Captures) :
    between.run ⟨before, offset, j.text ++ t⟩ g k =
      (letters Connective.and.letters).run
        ⟨j.before.getLast?.or before, offset + byteSize j.before, j.word ++ (j.after ++ t)⟩ g
        fun d h => run (atLeastOne .blank) d h k := by
  rw [j.text_append, run_between, run_atLeastOne_text .blank j.before_ne_nil j.before_blank ?_
    (Or.inr refuses_letters)]
  exact forall_mem_head?_append j.word_ne_nil (fun x hx => isBlank_of_isWord (j.word_isWord x hx)) _

theorem run_between_and (j : Joiner .and) (ht : ∀ x ∈ t.head?, isBlank x = false)
    (hk : Refuses .blank k) (before : Option Char) (offset : Nat) (g : Captures) :
    ∃ before', between.run ⟨before, offset, j.text ++ t⟩ g k =
      k ⟨before', offset + byteSize j.text, t⟩ g := by
  have hsize : offset + byteSize j.text =
      offset + byteSize j.before + byteSize j.word + byteSize j.after := by
    simp only [Joiner.text, byteSize_append]
    omega
  refine ⟨j.after.getLast?.or (j.word.getLast?.or (j.before.getLast?.or before)), ?_⟩
  rw [run_between_joiner, run_letters_of_forall₂ j.spells,
    run_atLeastOne_text .blank j.after_ne_nil j.after_blank ht (Or.inr hk), hsize]

theorem run_between_or (j : Joiner .or) (before : Option Char) (offset : Nat) (g : Captures) :
    between.run ⟨before, offset, j.text ++ t⟩ g k = none := by
  rw [run_between_joiner]
  have hspells := j.spells
  generalize j.word = w at hspells
  cases hspells with
  | @cons _ x _ xs hx _ =>
    refine run_letters_of_not_holds ?_ _ _ _ _ _ _
    have hupper : x.toUpper = 'O' := by
      have hkelvin : ('O'.toUpper == 'K') = false := by decide
      have hlong : ('O'.toUpper == 'S') = false := by decide
      simpa [CharClass.holds, hkelvin, hlong] using hx
    simp [CharClass.holds, hupper]

theorem run_between_nil (before : Option Char) (offset : Nat) (g : Captures) :
    between.run ⟨before, offset, []⟩ g k = none := rfl

end Pattern

/-! ## Where the pattern matches -/

/-- The match has taken the two comparisons. -/
structure Match.Reads (m : Match) (r : Comparison × Comparison) : Prop where
  upperColumn : m.groupText 1 = r.1.column
  upper : m.groupText 2 = r.1.bound
  lowerColumn : m.groupText 3 = r.2.column
  lower : m.groupText 4 = r.2.bound

namespace Pattern

variable {α : Type} {k : Continue α} {t : Text}

theorem refuses_between : Refuses .digit fun d h => between.run d h k := by
  intro d h hd
  show (between.run d h k) = none
  rw [run_between]
  refine refuses_atLeastOne .digit .blank (fun x hx => ?_) d h hd
  exact isBlank_of_isWord (isWord_of_isDigit hx)

theorem refuses_limit (i j : Nat) (sign : Sign) :
    Refuses .blank fun d h => (limit i j sign).run d h k := by
  intro d h hd
  show ((limit i j sign).run d h k) = none
  rw [run_limit]
  exact refuses_atLeastOne .blank .word (fun x hx => isWord_of_isBlank hx) d h hd

/-- The pattern takes two neighbours that make a range. -/
theorem run_boundedRange_range {l u : Comparison} (hl : l.sign = .less) (hu : u.sign = .greater)
    (j : Joiner .and) (ht : ∀ x ∈ t.head?, isDigit x = false) (hk : ∀ d g, (k d g).isSome = true)
    (before : Option Char) (offset : Nat) (g : Captures) :
    ∃ before', boundedRange.run ⟨before, offset, l.text ++ (j.text ++ (u.text ++ t))⟩ g k =
      k ⟨before', offset + byteSize l.text + byteSize j.text + byteSize u.text, t⟩
        (u.captures 3 4 (offset + byteSize l.text + byteSize j.text) t ++
          (l.captures 1 2 offset (j.text ++ (u.text ++ t)) ++ g)) := by
  have hblank : ∀ x ∈ (u.text ++ t).head?, isBlank x = false :=
    fun x hx => isBlank_of_isWord (u.isWord_head t x hx)
  obtain ⟨b₁, h₁⟩ := run_limit_text l (j.isDigit_head _)
    (Or.inr (refuses_between (k := fun d h => (limit 3 4 .greater).run d h k))) 1 2 before offset g
  obtain ⟨b₂, h₂⟩ := run_between_and j hblank (refuses_limit (k := k) 3 4 .greater) b₁
    (offset + byteSize l.text) (l.captures 1 2 offset (j.text ++ (u.text ++ t)) ++ g)
  obtain ⟨b₃, h₃⟩ := run_limit_text u ht (Or.inl hk) 3 4 b₂
    (offset + byteSize l.text + byteSize j.text)
    (l.captures 1 2 offset (j.text ++ (u.text ++ t)) ++ g)
  rw [hl] at h₁
  rw [hu] at h₃
  exact ⟨b₃, by rw [run_boundedRange, h₁, h₂, h₃]⟩

theorem exists_matchAt_range {l u : Comparison} (hl : l.sign = .less) (hu : u.sign = .greater)
    (j : Joiner .and) (ht : ∀ x ∈ t.head?, isDigit x = false) (before : Option Char) (offset : Nat) :
    ∃ m, boundedRange.matchAt ⟨before, offset, l.text ++ (j.text ++ (u.text ++ t))⟩ = some m ∧
      m.Reads (l, u) ∧
      m.stop.offset = offset + byteSize l.text + byteSize j.text + byteSize u.text := by
  obtain ⟨before', h⟩ := run_boundedRange_range hl hu j ht (fun _ _ => rfl) before offset []
    (k := fun d h => some (Match.mk ⟨before, offset, l.text ++ (j.text ++ (u.text ++ t))⟩ d h))
  refine ⟨_, h, ⟨?_, ?_, ?_, ?_⟩, rfl⟩
  · exact Match.groupText_of_append rfl
  · exact Match.groupText_of_append rfl
  · exact Match.groupText_of_append rfl
  · exact Match.groupText_of_append rfl

theorem matchAt_of_greater {c : Comparison} (hc : c.sign = .greater) (before : Option Char)
    (offset : Nat) : boundedRange.matchAt ⟨before, offset, c.text ++ t⟩ = none := by
  have hne : c.sign ≠ .less := by rw [hc]; decide
  rw [matchAt, run_boundedRange]
  exact run_limit_of_ne c hne 1 2 before offset []

/-- A comparison that `AND` and a lower bound do not follow is not matched. -/
theorem matchAt_eq_none_of_between {c : Comparison} (ht : ∀ x ∈ t.head?, isDigit x = false)
    (hbetween : ∀ (b : Option Char) (o : Nat) (g : Captures) (k : Continue Match),
      (between.run ⟨b, o, t⟩ g fun d h => (limit 3 4 .greater).run d h k) = none)
    (before : Option Char) (offset : Nat) :
    boundedRange.matchAt ⟨before, offset, c.text ++ t⟩ = none := by
  cases hc : c.sign with
  | greater => exact matchAt_of_greater hc before offset
  | less =>
    rw [matchAt, run_boundedRange]
    obtain ⟨b, h⟩ := run_limit_text c ht (Or.inr refuses_between) 1 2 before offset []
    rw [hc] at h
    rw [h]
    exact hbetween _ _ _ _

/-- Two neighbours that do not make a range are not matched. -/
theorem matchAt_eq_none_of_less {l u : Comparison} (hu : u.sign = .less) (j : Joiner .and)
    (before : Option Char) (offset : Nat) :
    boundedRange.matchAt ⟨before, offset, l.text ++ (j.text ++ (u.text ++ t))⟩ = none := by
  have hblank : ∀ x ∈ (u.text ++ t).head?, isBlank x = false :=
    fun x hx => isBlank_of_isWord (u.isWord_head t x hx)
  have hne : u.sign ≠ .greater := by rw [hu]; decide
  refine matchAt_eq_none_of_between (j.isDigit_head _) (fun b o g k => ?_) before offset
  obtain ⟨b', h⟩ := run_between_and j hblank (refuses_limit (k := k) 3 4 .greater) b o g
  rw [h]
  exact run_limit_of_ne u hne 3 4 b' _ g

/-- A word that no sign follows does not begin a match. -/
theorem matchAt_word_eq_none {w b : Text} (hne : w ≠ []) (hw : ∀ x ∈ w, isWord x = true)
    (hb : ∀ x ∈ b, isBlank x = true) (hbt : ∀ x ∈ (b ++ t).head?, isWord x = false)
    (ht : ∀ x ∈ t.head?, isWord x = true) (before : Option Char) (offset : Nat) :
    boundedRange.matchAt ⟨before, offset, w ++ (b ++ t)⟩ = none := by
  rw [matchAt, run_boundedRange]
  refine run_limit_eq_none hne hw hb hbt (fun x hx => isBlank_of_isWord (ht x hx)) ?_ 1 2 before
    offset []
  intro hhead
  have hword : isWord Sign.less.char = true := ht _ hhead
  rw [Sign.isWord_char] at hword
  cases hword

/-! ## Walking over the text -/

/-- What stands behind a comparison: nothing, or a connective and another comparison. -/
inductive Follows : Text → Prop
  | nil : Follows []
  | joiner {c : Connective} (j : Joiner c) (d : Comparison) (t : Text) :
      Follows (j.text ++ (d.text ++ t))

theorem Follows.isDigit_head (h : Follows t) : ∀ x ∈ t.head?, isDigit x = false := by
  cases h with
  | nil => simp
  | joiner j d t => exact j.isDigit_head _

/-- The bound of a comparison does not begin a match. -/
theorem Follows.matchAt_bound (h : Follows t) (c : Comparison) (before : Option Char) (offset : Nat) :
    boundedRange.matchAt ⟨before, offset, c.bound ++ t⟩ = none := by
  cases h with
  | nil =>
    exact matchAt_word_eq_none (b := []) (t := []) c.bound_ne_nil c.word_bound (by simp) (by simp)
      (by simp) before offset
  | joiner j d t =>
    rw [j.text_append]
    refine matchAt_word_eq_none c.bound_ne_nil c.word_bound j.before_blank ?_ ?_ before offset
    · exact forall_mem_head?_append j.before_ne_nil
        (fun x hx => isWord_of_isBlank (j.before_blank x hx)) _
    · exact forall_mem_head?_append j.word_ne_nil j.word_isWord _

/-- A comparison that does not begin a match is passed over. -/
theorem findAllFrom_comparison (h : Follows t) {c : Comparison} {before : Option Char} {offset : Nat}
    (hc : boundedRange.matchAt ⟨before, offset, c.text ++ t⟩ = none) :
    boundedRange.findAllFrom 0 before offset (c.text ++ t) =
      boundedRange.findAllFrom 0 (c.text.getLast?.or before) (offset + byteSize c.text) t := by
  set middle := c.lead ++ c.sign.char :: c.trail with hmiddle
  have htext : c.text = c.column ++ (middle ++ c.bound) := by simp [Comparison.text, hmiddle]
  have hothers : ∀ x ∈ middle, CharClass.word.holds x = false := by
    intro x hx
    rcases List.mem_append.mp hx with hx | hx
    · exact isWord_of_isBlank (c.lead_blank x hx)
    · rcases List.mem_cons.mp hx with rfl | hx
      · exact c.sign.isWord_char
      · exact isWord_of_isBlank (c.trail_blank x hx)
  rw [htext, List.append_assoc, List.append_assoc] at hc ⊢
  rw [findAllFrom_run beginsWithRun_boundedRange c.column_word hc,
    findAllFrom_others beginsWithRun_boundedRange hothers,
    findAllFrom_run beginsWithRun_boundedRange c.word_bound (h.matchAt_bound c _ _)]
  simp only [List.getLast?_append, Option.or_assoc, byteSize_append, Nat.add_assoc]

/-- A connective is passed over. -/
theorem findAllFrom_joiner {c : Connective} (j : Joiner c) (ht : ∀ x ∈ t.head?, isWord x = true)
    (before : Option Char) (offset : Nat) :
    boundedRange.findAllFrom 0 before offset (j.text ++ t) =
      boundedRange.findAllFrom 0 (j.text.getLast?.or before) (offset + byteSize j.text) t := by
  have hbefore : ∀ x ∈ j.before, CharClass.word.holds x = false :=
    fun x hx => isWord_of_isBlank (j.before_blank x hx)
  have hafter : ∀ x ∈ j.after, CharClass.word.holds x = false :=
    fun x hx => isWord_of_isBlank (j.after_blank x hx)
  have hword : ∀ b o, boundedRange.matchAt ⟨b, o, j.word ++ (j.after ++ t)⟩ = none :=
    matchAt_word_eq_none j.word_ne_nil j.word_isWord j.after_blank
      (forall_mem_head?_append j.after_ne_nil hafter t) ht
  rw [j.text_append, findAllFrom_others beginsWithRun_boundedRange hbefore,
    findAllFrom_run beginsWithRun_boundedRange j.word_isWord (hword _ _),
    findAllFrom_others beginsWithRun_boundedRange hafter]
  simp only [Joiner.text, List.getLast?_append, Option.or_assoc, byteSize_append, Nat.add_assoc]

/-- Neighbours that make a range are found.  The search goes on behind them, as it would in front of the
second one, where no range begins. -/
theorem exists_findAllFrom_range {l u : Comparison} (hl : l.sign = .less) (hu : u.sign = .greater)
    (j : Joiner .and) (ht : Follows t) (before : Option Char) (offset : Nat) :
    ∃ m before' offset', m.Reads (l, u) ∧
      boundedRange.findAllFrom 0 before offset (l.text ++ (j.text ++ (u.text ++ t))) =
        m :: boundedRange.findAllFrom 0 before' offset' (u.text ++ t) := by
  obtain ⟨m, hm, hreads, hstop⟩ := exists_matchAt_range hl hu j ht.isDigit_head before offset
  refine ⟨m, (l.text ++ j.text).getLast?.or before, offset + byteSize (l.text ++ j.text), hreads, ?_⟩
  have hne : l.text ++ j.text ++ u.text ≠ [] := by
    simp [Comparison.text, l.column_ne_nil]
  have hsplit : l.text ++ (j.text ++ (u.text ++ t)) = l.text ++ j.text ++ u.text ++ t := by
    simp
  have hsize : m.stop.offset = offset + byteSize (l.text ++ j.text ++ u.text) := by
    rw [hstop, byteSize_append, byteSize_append]
    omega
  rw [hsplit] at hm ⊢
  rw [findAllFrom_of_matchAt hne hm hsize, findAllFrom_comparison ht (matchAt_of_greater hu _ _),
    List.getLast?_append, Option.or_assoc, byteSize_append _ u.text, Nat.add_assoc]

/-- The search in the text finds these ranges, wherever the text stands. -/
def Finds (t : Text) (rs : List (Comparison × Comparison)) : Prop :=
  ∀ before offset, List.Forall₂ Match.Reads (boundedRange.findAllFrom 0 before offset t) rs

namespace Finds

variable {rs : List (Comparison × Comparison)}

/-- In front of a text that does not begin with `AND`, a comparison adds nothing. -/
theorem comparison (h : Finds t rs) (ht : Follows t)
    (hbetween : ∀ (b : Option Char) (o : Nat) (g : Captures) (k : Continue Match),
      between.run ⟨b, o, t⟩ g k = none)
    (c : Comparison) : Finds (c.text ++ t) rs := by
  intro before offset
  have hnone : boundedRange.matchAt ⟨before, offset, c.text ++ t⟩ = none :=
    matchAt_eq_none_of_between ht.isDigit_head (fun b o g k => hbetween b o g _) before offset
  rw [findAllFrom_comparison ht hnone]
  exact h _ _

/-- In front of `AND` and a comparison, a comparison adds the range of the two if they make one. -/
theorem step {u : Comparison} (h : Finds (u.text ++ t) rs) (ht : Follows t) (l : Comparison)
    (j : Joiner .and) :
    Finds (l.text ++ (j.text ++ (u.text ++ t))) (if IsRange (l, u) then (l, u) :: rs else rs) := by
  intro before offset
  by_cases hrange : IsRange (l, u) = true
  · obtain ⟨hl, hu⟩ := isRange_iff.mp hrange
    obtain ⟨m, before', offset', hreads, hfind⟩ := exists_findAllFrom_range hl hu j ht before offset
    rw [if_pos hrange, hfind]
    exact .cons hreads (h _ _)
  · -- the first is no upper bound, or the second no lower bound
    have hnone : boundedRange.matchAt ⟨before, offset, l.text ++ (j.text ++ (u.text ++ t))⟩ = none := by
      cases hl : l.sign with
      | greater => exact matchAt_of_greater hl before offset
      | less =>
        cases hu : u.sign with
        | less => exact matchAt_eq_none_of_less hu j before offset
        | greater => exact absurd (isRange_iff.mpr ⟨hl, hu⟩) hrange
    rw [if_neg hrange, findAllFrom_comparison (.joiner j u t) hnone,
      findAllFrom_joiner j (u.isWord_head t)]
    exact h _ _

/-- In front of a text that does not begin with `AND`, a conjunction adds its own ranges. -/
theorem conjunction (h : Finds t rs) (ht : Follows t)
    (hbetween : ∀ (b : Option Char) (o : Nat) (g : Captures) (k : Continue Match),
      between.run ⟨b, o, t⟩ g k = none)
    (e : Conjunction) : Finds (e.text ++ t) (e.ranges ++ rs) := by
  obtain ⟨first, others⟩ := e
  -- what is found behind the first comparison is known for every comparison in its place
  induction others generalizing first with
  | nil =>
    have htext : Conjunction.text ⟨first, []⟩ = first.text := by
      simp [Conjunction.text, Joined.textBy]
    rw [htext]
    exact h.comparison ht hbetween first
  | cons o others ih =>
    obtain ⟨j, u⟩ := o
    set behind := (others.flatMap fun o => o.1.text ++ o.2.text) ++ t with hbehind
    have hfollows : Follows behind := by
      cases others with
      | nil => exact ht
      | cons o others =>
        rw [hbehind, List.flatMap_cons, List.append_assoc, List.append_assoc]
        exact .joiner o.1 o.2 _
    have hrest : Finds (u.text ++ behind) (Conjunction.ranges ⟨u, others⟩ ++ rs) := by
      have hu := ih u
      rwa [Conjunction.text, Joined.textBy, List.append_assoc, ← hbehind] at hu
    have htext : Conjunction.text ⟨first, (j, u) :: others⟩ ++ t =
        first.text ++ (j.text ++ (u.text ++ behind)) := by
      simp [Conjunction.text, Joined.textBy, hbehind]
    have hranges : Conjunction.ranges ⟨first, (j, u) :: others⟩ ++ rs =
        if IsRange (first, u) then (first, u) :: (Conjunction.ranges ⟨u, others⟩ ++ rs)
        else Conjunction.ranges ⟨u, others⟩ ++ rs := by
      rw [Conjunction.ranges_cons, apply_ite (· ++ rs)]
      rfl
    rw [htext, hranges]
    exact hrest.step hfollows first j

end Finds

theorem Finds.disjunction (e : Disjunction) : Finds e.text (e.parts.flatMap Conjunction.ranges) := by
  obtain ⟨first, others⟩ := e
  induction others generalizing first with
  | nil =>
    have hnil : Finds [] [] := fun before offset => .nil
    have hfirst := hnil.conjunction .nil (fun b o g k => run_between_nil b o g) first
    simpa [Disjunction.text, Joined.textBy, Joined.parts] using hfirst
  | cons o others ih =>
    obtain ⟨j, next⟩ := o
    obtain ⟨behind, hbehind⟩ : ∃ t, Disjunction.text ⟨next, others⟩ = next.first.text ++ t :=
      ⟨_, List.append_assoc _ _ _⟩
    have htext : Disjunction.text ⟨first, (j, next) :: others⟩ =
        first.text ++ (j.text ++ (next.first.text ++ behind)) := by
      rw [← hbehind]
      simp [Disjunction.text, Joined.textBy]
    have hrest : Finds (j.text ++ (next.first.text ++ behind))
        (next.ranges ++ others.flatMap fun o => o.2.ranges) := by
      intro before offset
      have hnext := ih next
      rw [hbehind] at hnext
      rw [findAllFrom_joiner j (next.first.isWord_head behind)]
      simpa [Joined.parts, List.flatMap_map] using hnext _ _
    have hfirst := hrest.conjunction (.joiner j next.first behind)
      (fun b o g k => run_between_or j b o g) first
    rw [htext]
    simpa [Joined.parts, List.flatMap_map] using hfirst

/-- **The ranges of a disjunction are found**, those of one conjunction after those of the other, and
nothing else is found. -/
theorem findRuns_boundedRange (e : Disjunction) :
    List.Forall₂ Match.Reads (boundedRange.findRuns .word e.text)
      (e.parts.flatMap Conjunction.ranges) := by
  rw [findRuns_eq_findAll beginsWithRun_boundedRange]
  exact Finds.disjunction e none 0

end Pattern

end SchemaReview
