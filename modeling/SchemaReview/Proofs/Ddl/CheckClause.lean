import SchemaReview.Proofs.Ddl.BoundedRange
import SchemaReview.Proofs.Source.Balanced

/-!
# Proofs.Ddl.CheckClause — the check constraints that are found in a text

Main statement (`checks_writtenChecks`): in a text that is written as check constraints with other text between
them, exactly these constraints are found, each with its expression and the place of its keyword.

* `Paired`: quotes are closed, and parentheses outside quotes are in pairs.  Counting goes over such a text without
  reaching the parenthesis that closes the constraint (`closingParen?_append`), so nothing in an expression matters.
* `OpensCheck`: what the pattern for the opening looks for.  Where white space and a word meet, no opening reaches
  from one side to the other (`OpensCheck.of_append`).
* `checksFrom_free`, `checksFrom_clause`: the search passes over text without an opening and reads one constraint.
-/

namespace SchemaReview

open Text

/-! ## Closing parentheses -/

/-- Quotes are closed, and the parentheses outside quotes are in pairs. -/
inductive Paired : Text → Prop
  | nil : Paired []
  | char {c : Char} {t : Text} (hquote : isQuote c = false) (hparen : c ∉ ['(', ')']) (h : Paired t) :
      Paired (c :: t)
  | quoted {q : Char} {body t : Text} (hquote : isQuote q = true) (hbody : q ∉ body) (h : Paired t) :
      Paired (q :: (body ++ q :: t))
  | paren {inner t : Text} (hinner : Paired inner) (h : Paired t) : Paired ('(' :: (inner ++ ')' :: t))

theorem Balanced.paired {commas : Bool} {t : Text} (h : Balanced commas t) : Paired t := by
  induction h with
  | nil => exact .nil
  | char hquote hmark _ _ ih =>
    simp only [List.mem_cons, List.not_mem_nil, or_false, not_or] at hmark
    exact .char hquote (by simp [hmark]) ih
  | quoted hquote hbody _ ih => exact .quoted hquote hbody ih
  | paren _ _ ihinner ih => exact .paren ihinner ih

section

variable {c q : Char} {depth : Nat} (offset : Nat) (t : Text)

theorem closingParen?_some_cons : closingParen? depth (some q) offset (c :: t) =
    closingParen? depth (if c = q then none else some q) (offset + c.utf8Size) t := by
  rw [closingParen?.eq_def]

theorem closingParen?_quote_cons (hc : isQuote c = true) : closingParen? depth none offset (c :: t) =
    closingParen? depth (some c) (offset + c.utf8Size) t := by
  rw [closingParen?.eq_def]
  simp [hc]

theorem closingParen?_open_cons : closingParen? depth none offset ('(' :: t) =
    closingParen? (depth + 1) none (offset + '('.utf8Size) t := by
  rw [closingParen?.eq_def]
  simp [isQuote]

theorem closingParen?_close_cons : closingParen? (depth + 2) none offset (')' :: t) =
    closingParen? (depth + 1) none (offset + ')'.utf8Size) t := by
  rw [closingParen?.eq_def]
  simp [isQuote]

theorem closingParen?_plain_cons (hc : isQuote c = false) (hopen : c ≠ '(') (hclose : c ≠ ')') :
    closingParen? depth none offset (c :: t) = closingParen? depth none (offset + c.utf8Size) t := by
  rw [closingParen?.eq_def]
  simp [hc, hopen, hclose]

end

/-- A quote hides what is in it. -/
theorem closingParen?_quoted {q : Char} {body : Text} (h : q ∉ body) (depth offset : Nat) (t : Text) :
    closingParen? depth (some q) offset (body ++ q :: t) =
      closingParen? depth none (offset + byteSize body + q.utf8Size) t := by
  induction body generalizing offset with
  | nil => rw [List.nil_append, closingParen?_some_cons, if_pos rfl, byteSize_nil, Nat.add_zero]
  | cons c cs ih =>
    rw [List.mem_cons, not_or] at h
    rw [List.cons_append, closingParen?_some_cons, if_neg (Ne.symm h.1), ih h.2, byteSize_cons, Nat.add_assoc offset]

/-- Inside a parenthesis, the count goes over a text in pairs. -/
theorem closingParen?_append {e : Text} (h : Paired e) (depth offset : Nat) (t : Text) :
    closingParen? (depth + 1) none offset (e ++ t) = closingParen? (depth + 1) none (offset + byteSize e) t := by
  induction h generalizing depth offset t with
  | nil => rfl
  | @char c e hquote hparen _ ih =>
    simp only [List.mem_cons, List.not_mem_nil, or_false, not_or] at hparen
    rw [List.cons_append, closingParen?_plain_cons _ _ hquote hparen.1 hparen.2, ih, byteSize_cons, Nat.add_assoc]
  | @quoted q body e hquote hbody _ ih =>
    rw [List.cons_append, List.append_assoc, List.cons_append, closingParen?_quote_cons _ _ hquote,
      closingParen?_quoted hbody, ih]
    simp only [byteSize_cons, byteSize_append, Nat.add_assoc]
  | @paren inner e _ _ ihinner ih =>
    rw [List.cons_append, List.append_assoc, List.cons_append, closingParen?_open_cons, ihinner,
      closingParen?_close_cons, ih]
    simp only [byteSize_cons, byteSize_append, Nat.add_assoc]

/-- The expression of a constraint ends at the parenthesis behind it. -/
theorem closingParen?_paired {e : Text} (h : Paired e) (offset : Nat) (t : Text) :
    closingParen? 1 none offset (e ++ ')' :: t) = some (offset + byteSize e) := by
  rw [closingParen?_append h 0]
  simp [closingParen?, isQuote]

/-! ## Openings -/

/-- The text begins with the keyword, white space if any, and an opening parenthesis. -/
def OpensCheck (t : Text) : Prop :=
  ∃ word blanks rest, t = word ++ (blanks ++ '(' :: rest) ∧ Pattern.Spells "CHECK" word ∧
    ∀ x ∈ blanks, isBlank x = true

/-- An opening that begins in front of white space and a word does not reach into the word. -/
theorem OpensCheck.of_append {v t : Text} (h : OpensCheck (v ++ t)) (hne : v ≠ [])
    (hv : ∀ x ∈ v.getLast?, isBlank x = true) (ht : ∀ x ∈ t.head?, isWord x = true) : OpensCheck v := by
  obtain ⟨word, blanks, rest, hsplit, hword, hblanks⟩ := h
  have hletters := isWord_of_spells hword
  rcases List.append_eq_append_iff.mp hsplit with ⟨w, rfl, -⟩ | ⟨w, rfl, hbehind⟩
  · -- the text would end inside the keyword
    have hlast : isBlank (v.getLast hne) = true := hv _ (List.getLast?_eq_some_getLast hne)
    have hletter := hletters _ (List.mem_append_left w (List.getLast_mem hne))
    rw [isBlank_of_isWord hletter] at hlast
    cases hlast
  rcases List.append_eq_append_iff.mp hbehind with ⟨u, rfl, hopen⟩ | ⟨u, rfl, rfl⟩
  · cases u with
    | nil =>
      rw [List.nil_append] at hopen
      rw [← hopen] at ht
      cases ht '(' rfl
    | cons y ys =>
      rw [List.cons_append, List.cons.injEq] at hopen
      exact ⟨word, blanks, ys, by rw [hopen.1], hword, hblanks⟩
  · -- the white space would go on behind the text
    have hhead : ∃ y ∈ (u ++ '(' :: rest).head?, isWord y = false := by
      cases u with
      | nil => exact ⟨'(', rfl, by decide⟩
      | cons y ys => exact ⟨y, rfl, isWord_of_isBlank (hblanks y (by simp))⟩
    obtain ⟨y, hy, hyword⟩ := hhead
    rw [ht y hy] at hyword
    cases hyword

namespace Pattern

theorem matchAt_checkOpening_eq (c : Cursor) : checkOpening.matchAt c =
    if c.atWordEdge then (keyword "CHECK").run c [] fun d h => blanks.run d h fun d h =>
      (char '(').run d h fun d h => some ⟨c, d, h⟩
    else none := rfl

theorem matchAt_checkOpening {word bl : Text} (hword : Spells "CHECK" word) (hbl : ∀ x ∈ bl, isBlank x = true)
    {before : Option Char} {offset : Nat} {t : Text}
    (hedge : Cursor.atWordEdge ⟨before, offset, word ++ (bl ++ '(' :: t)⟩ = true) :
    checkOpening.matchAt ⟨before, offset, word ++ (bl ++ '(' :: t)⟩ =
      some ⟨⟨before, offset, word ++ (bl ++ '(' :: t)⟩,
        ⟨some '(', offset + byteSize word + byteSize bl + 1, t⟩, []⟩ := by
  rw [matchAt_checkOpening_eq, if_pos hedge, keyword, run_letters_of_forall₂ hword]
  exact run_many_append .blank hbl (forall_mem_head?_cons (by decide) t) (run_char '(' _ _ t [] _)

/-- Where the pattern for openings matches. -/
theorem isSome_matchAt_checkOpening (c : Cursor) :
    (checkOpening.matchAt c).isSome = true ↔ c.atWordEdge = true ∧ OpensCheck c.rest := by
  constructor
  · intro h
    obtain ⟨m, hm⟩ := Option.isSome_iff_exists.mp h
    rw [matchAt_checkOpening_eq] at hm
    split at hm
    · rename_i hedge
      obtain ⟨d, g, hkeyword, hm⟩ := exists_of_run hm
      obtain ⟨word, hword, hspells⟩ := exists_of_takes_letters hkeyword
      obtain ⟨e, g', hblanks, hm⟩ := exists_of_run hm
      obtain ⟨f, g'', hopen, -⟩ := exists_of_run hm
      cases hblanks with
      | many hbl hall =>
        cases hopen with
        | one hrest hx =>
          rw [holds_char_iff.mp hx] at hrest
          exact ⟨hedge, word, _, _, by rw [hword.rest, hbl.rest, hrest], hspells, hall⟩
    · cases hm
  · rintro ⟨hedge, word, bl, rest, hrest, hword, hbl⟩
    obtain ⟨before, offset, t⟩ := c
    obtain rfl : t = word ++ (bl ++ '(' :: rest) := hrest
    rw [matchAt_checkOpening hword hbl hedge]
    rfl

/-- Text without an opening has none in any place, when no opening reaches beyond its end. -/
theorem matchAt_checkOpening_eq_none {lead t : Text} (hfree : checkOpening.search lead = none)
    (hseam : ∀ v, v ≠ [] → v <:+ lead → OpensCheck (v ++ t) → OpensCheck v) {before : Option Char}
    (hbefore : before.any isWord = false) (offset : Nat) {u v : Text} (hlead : lead = u ++ v) (hne : v ≠ []) :
    checkOpening.matchAt ⟨u.getLast?.or before, offset, v ++ t⟩ = none := by
  obtain ⟨x, xs, rfl⟩ := List.exists_cons_of_ne_nil hne
  rw [← Option.not_isSome_iff_eq_none, isSome_matchAt_checkOpening]
  rintro ⟨hedge, hopens⟩
  have halone : Cursor.atWordEdge ⟨u.getLast?, byteSize u, x :: xs⟩ = true := by
    rw [Cursor.atWordEdge_eq_any] at hedge ⊢
    cases hu : u.getLast? with
    | none => simpa [hu, hbefore] using hedge
    | some y => simpa [hu] using hedge
  have hsome := (isSome_matchAt_checkOpening ⟨u.getLast?, byteSize u, x :: xs⟩).mpr
    ⟨halone, hseam _ hne ⟨u, hlead.symm⟩ hopens⟩
  rw [hlead] at hfree
  rw [matchAt_eq_none_of_search hfree] at hsome
  cases hsome

end Pattern

/-! ## The search -/

/-- Where the search has come to the byte to resume at, that byte does not matter any more. -/
theorem checksFrom_of_le {resume offset : Nat} (h : resume ≤ offset) (before : Option Char) (t : Text) :
    checksFrom resume before offset t = checksFrom 0 before offset t := by
  induction t generalizing before offset with
  | nil => rfl
  | cons x xs ih =>
    rw [checksFrom, checksFrom, if_neg (Nat.not_lt.mpr h), if_neg (Nat.not_lt_zero _)]
    split
    · exact ih (by omega) _
    · rfl

/-- What a constraint has taken is passed over. -/
theorem checksFrom_past (w : Text) (before : Option Char) (offset : Nat) (t : Text) :
    checksFrom (offset + byteSize w) before offset (w ++ t) =
      checksFrom 0 (w.getLast?.or before) (offset + byteSize w) t := by
  induction w generalizing before offset with
  | nil => exact checksFrom_of_le le_rfl before t
  | cons x xs ih =>
    have hpos := x.utf8Size_pos
    rw [List.cons_append, checksFrom, if_pos (by rw [byteSize_cons]; omega), getLast?_cons_or, byteSize_cons,
      ← Nat.add_assoc]
    exact ih (some x) (offset + x.utf8Size)

/-- Text in which no opening begins is passed over. -/
theorem checksFrom_skip {w t : Text} {before : Option Char} (offset : Nat)
    (h : ∀ u v offset, w = u ++ v → v ≠ [] →
      Pattern.checkOpening.matchAt ⟨u.getLast?.or before, offset, v ++ t⟩ = none) :
    checksFrom 0 before offset (w ++ t) = checksFrom 0 (w.getLast?.or before) (offset + byteSize w) t := by
  induction w generalizing before offset with
  | nil => rfl
  | cons x xs ih =>
    have hhere := h [] (x :: xs) offset rfl (List.cons_ne_nil x xs)
    rw [List.getLast?_nil, Option.none_or, List.cons_append] at hhere
    rw [List.cons_append, checksFrom, if_neg (Nat.not_lt_zero _), hhere, getLast?_cons_or,
      byteSize_cons, ← Nat.add_assoc]
    refine ih _ fun u v offset hxs hne => ?_
    rw [← getLast?_cons_or]
    exact h (x :: u) v offset (by rw [hxs, List.cons_append]) hne

theorem checksFrom_free {lead t : Text} (hfree : Pattern.checkOpening.search lead = none)
    (hseam : ∀ v, v ≠ [] → v <:+ lead → OpensCheck (v ++ t) → OpensCheck v) {before : Option Char}
    (hbefore : before.any isWord = false) (offset : Nat) :
    checksFrom 0 before offset (lead ++ t) = checksFrom 0 (lead.getLast?.or before) (offset + byteSize lead) t :=
  checksFrom_skip offset fun _ _ offset hlead hne =>
    Pattern.matchAt_checkOpening_eq_none hfree hseam hbefore offset hlead hne

/-- A constraint is read as a whole. -/
theorem checksFrom_clause {word bl e : Text} (hword : Pattern.Spells "CHECK" word)
    (hbl : ∀ x ∈ bl, isBlank x = true) (he : Paired e) {before : Option Char} (hbefore : before.any isWord = false)
    (offset : Nat) (t : Text) :
    checksFrom 0 before offset (word ++ (bl ++ '(' :: (e ++ ')' :: t))) =
      ⟨trim e, offset⟩ :: checksFrom 0 (some ')') (offset + byteSize (word ++ (bl ++ '(' :: (e ++ [')'])))) t := by
  have hletters := isWord_of_spells hword
  obtain ⟨x, xs, rfl⟩ : ∃ x xs, word = x :: xs := by
    cases hword with
    | cons => exact ⟨_, _, rfl⟩
  have hedge : Cursor.atWordEdge ⟨before, offset, x :: xs ++ (bl ++ '(' :: (e ++ ')' :: t))⟩ = true := by
    rw [Cursor.atWordEdge_eq_any, hbefore]
    simp [hletters x List.mem_cons_self]
  have hopening := Pattern.matchAt_checkOpening hword hbl hedge
  -- behind the first letter, the search goes on at the end of the clause
  have hpast := checksFrom_past (xs ++ (bl ++ '(' :: (e ++ [')']))) (some x) (offset + x.utf8Size) t
  have hlast : (xs ++ (bl ++ '(' :: (e ++ [')']))).getLast? = some ')' := by simp [List.getLast?_cons]
  have happend : xs ++ (bl ++ '(' :: (e ++ [')'])) ++ t = xs ++ (bl ++ '(' :: (e ++ ')' :: t)) := by simp
  have hclose : offset + byteSize (x :: xs) + byteSize bl + 1 + byteSize e + 1 =
      offset + x.utf8Size + byteSize (xs ++ (bl ++ '(' :: (e ++ [')']))) := by
    have hone : '('.utf8Size = 1 ∧ ')'.utf8Size = 1 := ⟨rfl, rfl⟩
    simp only [byteSize_cons, byteSize_append, byteSize_nil, hone]
    omega
  rw [hlast, Option.some_or, happend] at hpast
  rw [List.cons_append] at hopening
  rw [List.cons_append, checksFrom, if_neg (Nat.not_lt_zero _), hopening]
  dsimp only
  rw [closingParen?_paired he]
  dsimp only
  rw [Nat.add_sub_cancel_left, takeBytes_append, hclose, hpast, List.cons_append, byteSize_cons, Nat.add_assoc offset]

/-! ## Written constraints -/

/-- A check constraint as it is written, with the text in front of it. -/
structure CheckClause where
  lead : Text
  word : Text := "CHECK".toList
  blanks : Text := [' ']
  expression : Text
  /-- The keyword stands at the start of the text, behind the constraint before it, or behind white space. -/
  lead_apart : lead.getLast?.all isBlank = true := by decide
  lead_free : Pattern.checkOpening.search lead = none := by decide +kernel
  word_spells : equalsIgnoringCase word "CHECK".toList = true := by decide
  blanks_all : blanks.all isBlank = true := by decide
  expression_paired : Paired expression

namespace CheckClause

/-- The constraint and the text in front of it. -/
def text (c : CheckClause) : Text := c.lead ++ (c.word ++ (c.blanks ++ '(' :: (c.expression ++ [')'])))

/-- The constraint that is to be found when the text begins at byte `offset`. -/
def check (offset : Nat) (c : CheckClause) : Check := ⟨trim c.expression, offset + byteSize c.lead⟩

theorem lead_blank (c : CheckClause) {x : Char} (hx : c.lead.getLast? = some x) : isBlank x = true := by
  have hall := c.lead_apart
  rwa [hx] at hall

/-- The search reads the constraint behind the text in front of it. -/
theorem checksFrom_text (c : CheckClause) {before : Option Char} (hbefore : before.any isWord = false) (offset : Nat)
    (t : Text) :
    checksFrom 0 before offset (c.text ++ t) =
      c.check offset :: checksFrom 0 (some ')') (offset + byteSize c.text) t := by
  have hspells : Pattern.Spells "CHECK" c.word := forall₂_letter_of_equalsIgnoringCase c.word_spells
  have hword := isWord_of_spells hspells
  have hne : c.word ≠ [] := by
    intro hnil
    rw [hnil] at hspells
    cases hspells
  have hedge : (c.lead.getLast?.or before).any isWord = false := by
    cases hlead : c.lead.getLast? with
    | none => exact hbefore
    | some x => exact isWord_of_isBlank (c.lead_blank hlead)
  have happend : c.text ++ t = c.lead ++ (c.word ++ (c.blanks ++ '(' :: (c.expression ++ ')' :: t))) := by
    simp [text]
  have hseam : ∀ v, v ≠ [] → v <:+ c.lead →
      OpensCheck (v ++ (c.word ++ (c.blanks ++ '(' :: (c.expression ++ ')' :: t)))) → OpensCheck v := by
    rintro v hv ⟨u, hu⟩ hopens
    refine hopens.of_append hv (fun x hx => c.lead_blank ?_) (forall_mem_head?_append hne hword _)
    rw [← hu, List.getLast?_append, Option.mem_def.mp hx, Option.some_or]
  rw [happend, checksFrom_free c.lead_free hseam hbefore, checksFrom_clause hspells
    (List.all_eq_true.mp c.blanks_all) c.expression_paired hedge, text, byteSize_append c.lead, ← Nat.add_assoc]
  rfl

end CheckClause

/-- A text written as constraints, each with the text in front of it, and more text behind them. -/
def writtenChecks (cs : List CheckClause) (last : Text) : Text := cs.flatMap CheckClause.text ++ last

/-- The constraints in order, each with its expression and the byte of its keyword, when the text begins at byte
`offset`. -/
def placedChecks : Nat → List CheckClause → List Check
  | _, [] => []
  | offset, c :: cs => c.check offset :: placedChecks (offset + byteSize c.text) cs

/-- **Check constraints.**  In a text written as constraints, with text between and behind them that has no opening,
exactly these constraints are found, in order, whatever their expressions contain. -/
theorem checks_writtenChecks (cs : List CheckClause) {last : Text}
    (hlast : Pattern.checkOpening.search last = none) :
    checks (writtenChecks cs last) = placedChecks 0 cs := by
  have hfrom : ∀ (before : Option Char) (offset : Nat), before.any isWord = false →
      checksFrom 0 before offset (writtenChecks cs last) = placedChecks offset cs := by
    induction cs with
    | nil =>
      intro before offset hbefore
      have hfree := checksFrom_free (t := []) hlast (fun v _ _ h => by rwa [List.append_nil] at h) hbefore offset
      rwa [List.append_nil] at hfree
    | cons c cs ih =>
      intro before offset hbefore
      rw [writtenChecks, List.flatMap_cons, List.append_assoc, c.checksFrom_text hbefore]
      exact congrArg (c.check offset :: ·) (ih (some ')') _ (by decide))
  exact hfrom none 0 rfl

/-- Two constraints with blanks, another constraint, a parenthesis in a literal and a doubled quote in them. -/
theorem checks_writtenChecks_literals :
    let first : CheckClause := {
      lead := "a INT ".toList
      word := "cHeck".toList
      blanks := "\n ".toList
      expression := " a > 0 AND (CHECK (b) OR c = ')') ".toList
      expression_paired := (show Balanced false _ by decide +kernel).paired }
    let second : CheckClause := {
      lead := ", ".toList
      blanks := []
      expression := "d <> 'it''s (' AND \"e(\" IN ('x', 'y')".toList
      expression_paired := (show Balanced false _ by decide +kernel).paired }
    Pattern.checkOpening.search ", CHECK 1".toList = none ∧
      checks (writtenChecks [first, second] ", CHECK 1".toList) =
        [⟨"a > 0 AND (CHECK (b) OR c = ')')".toList, 6⟩,
          ⟨"d <> 'it''s (' AND \"e(\" IN ('x', 'y')".toList, 51⟩] := by
  intro first second
  have hlast : Pattern.checkOpening.search ", CHECK 1".toList = none := by decide +kernel
  refine ⟨hlast, ?_⟩
  rw [checks_writtenChecks [first, second] hlast]
  decide +kernel

end SchemaReview
