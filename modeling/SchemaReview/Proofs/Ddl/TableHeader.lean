import SchemaReview.Ddl.TableHeader
import SchemaReview.Proofs.Pattern.Match

/-!
# Proofs.Ddl.TableHeader — where table headers stand

* A header starts where it was looked for: `start_of_at?`.
* `CREATE TABLE`, a name and an opening parenthesis are read as that header: `at?_createTable`.
* `Headerless after before offset t`: no header starts in `t`.  A text without header keeps none when
  a comma or a closing parenthesis follows it: `Headerless.of_find?`.
-/

namespace SchemaReview

open Text

namespace Pattern

variable {α : Type}

/-! ### The parts of a header -/

theorem run_createTable {before : Option Char} (hbefore : before.any isWord = false) {x : Char}
    (hx : isBlank x = false) (offset : Nat) (xs : Text) (g : Captures) (k : Continue α) :
    createTable.run ⟨before, offset, "CREATE TABLE ".toList ++ x :: xs⟩ g k =
      (opt (phraseGap ["IF", "NOT", "EXISTS"]) ++ qualifiedName 1).run
        ⟨some ' ', offset + 13, x :: xs⟩ g k := by
  have hsplit : "CREATE TABLE ".toList ++ x :: xs =
    "CREATE".toList ++ ' ' :: 'T' :: ("ABLE".toList ++ ' ' :: x :: xs) := rfl
  have hedge : ∀ k : Continue α,
      wordEdge.run ⟨before, offset, "CREATE TABLE ".toList ++ x :: xs⟩ g k =
        k ⟨before, offset, "CREATE TABLE ".toList ++ x :: xs⟩ g := by
    intro k
    rw [run, Cursor.atWordEdge_eq_any, hbefore]
    rfl
  simp only [createTable, run_append]
  rw [hedge, keyword, hsplit, run_letters_append,
    run_gap_of_head rfl (forall_mem_head?_cons (by rfl) _)]
  -- `T` and `A` rule out the words that may stand in front of `TABLE`
  rw [run_opt_of_eq_none rfl, run_opt_of_eq_none rfl, run_opt_of_eq_none rfl]
  have htable : 'T' :: ("ABLE".toList ++ ' ' :: x :: xs) = "TABLE".toList ++ ' ' :: x :: xs := rfl
  rw [htable, keyword, run_letters_append, run_gap_of_head rfl (forall_mem_head?_cons hx _)]
  rfl

/-- A run of word characters in front of a parenthesis is no `IF NOT EXISTS`. -/
theorem run_ifNotExists_eq_none {w : Text} (hw : ∀ c ∈ w, isWord c = true) (before : Option Char)
    (offset : Nat) (rest : Text) (g : Captures) (k : Continue α) :
    (phraseGap ["IF", "NOT", "EXISTS"]).run ⟨before, offset, w ++ ' ' :: '(' :: rest⟩ g k = none := by
  have hphrase : ∀ (c : Cursor) (k : Continue α),
      (phraseGap ["IF", "NOT", "EXISTS"]).run c g k =
        run (.one (.letter 'I')) c g fun c g => run (.one (.letter 'F')) c g fun c g =>
          gap.run c g fun c g => (letters "NOT".toList).run c g fun c g =>
            (gap ++ keyword "EXISTS" ++ gap).run c g k := fun _ _ => rfl
  rw [hphrase]
  match w with
  | [] => rfl
  | [a] =>
    rw [List.singleton_append, run_one_cons]
    split <;> rfl
  | [a, b] =>
    rw [List.cons_append, run_one_cons, List.singleton_append]
    split
    · rw [run_one_cons]
      split
      · rw [run_gap_of_head rfl (forall_mem_head?_cons (by rfl) _)]
        rfl
      · rfl
    · rfl
  | a :: b :: c :: w =>
    have hc : CharClass.blank.holds c = false := isBlank_of_isWord (hw c (by simp))
    rw [List.cons_append, run_one_cons]
    split
    · rw [List.cons_append, run_one_cons]
      split
      · rw [List.cons_append, gap, atLeastOne, run_seq, run_one_of_not_holds hc]
      · rfl
    · rfl

/-- A name without quotes and schema is read whole. -/
theorem run_qualifiedName {w : Text} (hne : w ≠ []) (hw : ∀ c ∈ w, isWord c = true) (n : Nat)
    (before : Option Char) (offset : Nat) (rest : Text) (g : Captures) {k : Continue α} {a : α}
    (h : k ⟨w.getLast?, offset + byteSize w, ' ' :: rest⟩
      ((n, ⟨offset, offset + byteSize w, w ++ ' ' :: rest⟩) :: g) = some a) :
    (qualifiedName n).run ⟨before, offset, w ++ ' ' :: rest⟩ g k = some a := by
  obtain ⟨x, xs, rfl⟩ := List.exists_cons_of_ne_nil hne
  rw [List.forall_mem_cons] at hw
  have hx : CharClass.word.holds x = true := hw.1
  have hxs : ∀ c ∈ xs, CharClass.word.holds c = true := hw.2
  have hblank : CharClass.word.holds ' ' = false := rfl
  have hopen : x ∉ ['\x60', '"', '['] := not_mem_of_isWord rfl hw.1
  -- no point follows, so there is no schema
  have hschema : ∀ k : Continue α,
      (plainName ++ char '.').run ⟨before, offset, x :: (xs ++ ' ' :: rest)⟩ g k = none := by
    intro k
    rw [run_append, plainName, run_append, run_append, openingQuote, run_opt_oneOf_of_not_mem hopen,
      wordRun, atLeastOne, run_seq, run_one_of_holds hx]
    refine run_many_eq_none hblank ?_ _ _
    intro b o y ys hy
    have hmarks : y ∉ ['\x60', '"', ']'] ∧ y ∉ ['.'] := by
      rcases hy with hy | rfl
      · have hword := hw.2 y hy
        exact ⟨not_mem_of_isWord rfl hword, not_mem_of_isWord rfl hword⟩
      · decide
    rw [closingQuote, run_opt_oneOf_of_not_mem hmarks.1]
    exact run_one_of_not_holds (by simpa [CharClass.holds] using hmarks.2) b o ys g k
  rw [List.cons_append, qualifiedName, run_append, run_opt_of_eq_none (hschema _), name, run_append,
    run_append, openingQuote, run_opt_oneOf_of_not_mem hopen, run, wordRun, atLeastOne, run_seq,
    run_one_of_holds hx]
  refine run_many_append .word hxs (by simpa using hblank) ?_
  rw [closingQuote, run_opt_oneOf_of_not_mem (by decide), ← h, byteSize_cons, Nat.add_assoc,
    List.getLast?_cons]
  cases xs.getLast? <;> rfl

end Pattern

/-! ### Headers -/

namespace TableHeader

theorem start_of_at? {c : Cursor} {header : TableHeader} (h : at? c = some header) :
    header.start = c.offset := by
  rw [at?, Option.map_eq_some_iff] at h
  obtain ⟨m, hm, rfl⟩ := h
  rw [ofMatch, (Pattern.matchAt_eq_some hm).1]

/-- The header of a table whose name is a word is read as it stands. -/
theorem at?_createTable {w : Text} (hne : w ≠ []) (hw : ∀ c ∈ w, isWord c = true)
    {before : Option Char} (hbefore : before.any isWord = false) (offset : Nat) (rest : Text) :
    at? ⟨before, offset, "CREATE TABLE ".toList ++ (w ++ ' ' :: '(' :: rest)⟩ =
      some ⟨String.ofList w, offset, offset + 13 + byteSize w⟩ := by
  obtain ⟨x, xs, rfl⟩ := List.exists_cons_of_ne_nil hne
  have hx : isBlank x = false := isBlank_of_isWord (hw x (by simp))
  have hmatch : Pattern.createTable.matchAt
      ⟨before, offset, "CREATE TABLE ".toList ++ (x :: xs ++ ' ' :: '(' :: rest)⟩ =
        some ⟨⟨before, offset, "CREATE TABLE ".toList ++ (x :: xs ++ ' ' :: '(' :: rest)⟩,
          ⟨(x :: xs).getLast?, offset + 13 + byteSize (x :: xs), ' ' :: '(' :: rest⟩,
          [(1, ⟨offset + 13, offset + 13 + byteSize (x :: xs), x :: xs ++ ' ' :: '(' :: rest⟩)]⟩ := by
    rw [Pattern.matchAt, List.cons_append, Pattern.run_createTable hbefore hx, Pattern.run_append,
      ← List.cons_append, Pattern.run_opt_of_eq_none (Pattern.run_ifNotExists_eq_none hw ..)]
    exact Pattern.run_qualifiedName hne hw 1 _ _ _ _ rfl
  have hname : takeBytes (offset + 13 + byteSize (x :: xs) - (offset + 13))
      (x :: xs ++ ' ' :: '(' :: rest) = x :: xs := by
    rw [Nat.add_sub_cancel_left, takeBytes_append]
  rw [at?, hmatch, ← congrArg String.ofList hname]
  rfl

/-- No header begins with another letter. -/
theorem at?_eq_none_of_not_holds {x : Char} (h : (CharClass.letter 'C').holds x = false)
    (before : Option Char) (offset : Nat) (xs : Text) : at? ⟨before, offset, x :: xs⟩ = none := by
  have hrun : Pattern.createTable.matchAt ⟨before, offset, x :: xs⟩ = none := by
    rw [Pattern.matchAt]
    simp only [Pattern.createTable, Pattern.run_append]
    rw [Pattern.run]
    split
    · exact Pattern.run_letters_of_not_holds h _ _ _ _ _ _
    · rfl
  rw [at?, hrun]
  rfl

/-- No header begins with a character that the second letter does not follow. -/
theorem at?_eq_none_of_next {y : Char} (h : (CharClass.letter 'R').holds y = false) (before : Option Char)
    (offset : Nat) (x : Char) (xs : Text) : at? ⟨before, offset, x :: y :: xs⟩ = none := by
  have hrun : Pattern.createTable.matchAt ⟨before, offset, x :: y :: xs⟩ = none := by
    have hsecond : ∀ k : Pattern.Continue Match,
        (Pattern.keyword "CREATE").run ⟨before, offset, x :: y :: xs⟩ [] k = none := by
      intro k
      show (Pattern.one (.letter 'C') ++ Pattern.letters "REATE".toList).run ⟨before, offset, x :: y :: xs⟩ [] k = none
      rw [Pattern.run_append, Pattern.run_one_cons]
      split
      · exact Pattern.run_letters_of_not_holds h _ _ _ _ _ _
      · rfl
    rw [Pattern.matchAt]
    simp only [Pattern.createTable, Pattern.run_append]
    rw [Pattern.run]
    split
    · exact hsecond _
    · rfl
  rw [at?, hrun]
  rfl

end TableHeader

/-! ### Text without headers -/

/-- No header starts in `t`, which stands in front of `after`. -/
def Headerless (after : Text) (before : Option Char) (offset : Nat) : Text → Prop
  | [] => True
  | x :: xs =>
    TableHeader.at? ⟨before, offset, x :: (xs ++ after)⟩ = none ∧
      Headerless after (some x) (offset + x.utf8Size) xs

namespace Headerless

theorem append {after : Text} {before : Option Char} {offset : Nat} {t u : Text}
    (h : Headerless (u ++ after) before offset t)
    (h' : Headerless after (t.getLast?.or before) (offset + byteSize t) u) :
    Headerless after before offset (t ++ u) := by
  induction t generalizing before offset with
  | nil => simpa using h'
  | cons x xs ih =>
    rw [List.cons_append, Headerless, List.append_assoc]
    refine ⟨h.1, ih h.2 ?_⟩
    rw [getLast?_cons_or, byteSize_cons, ← Nat.add_assoc] at h'
    exact h'

/-- No header starts in a text without its first letter. -/
theorem of_not_holds {t : Text} (h : ∀ x ∈ t, (CharClass.letter 'C').holds x = false) (after : Text)
    (before : Option Char) (offset : Nat) : Headerless after before offset t := by
  induction t generalizing before offset with
  | nil => trivial
  | cons x xs ih =>
    rw [List.forall_mem_cons] at h
    exact ⟨TableHeader.at?_eq_none_of_not_holds h.1 _ _ _, ih h.2 _ _⟩

theorem of_searchFrom {x : Char} (hword : isWord x = false)
    (hstop : Pattern.createTable.stopsAt x = true) {t : Text} (after : Text)
    {before before' : Option Char} {offset : Nat} (offset' : Nat)
    (hbefore : before.any isWord = before'.any isWord)
    (h : Pattern.createTable.searchFrom before offset t = none) :
    Headerless (x :: after) before' offset' t := by
  induction t generalizing before before' offset offset' with
  | nil => trivial
  | cons y ys ih =>
    rw [Pattern.searchFrom, Pattern.orElse_eq_none_iff] at h
    refine ⟨?_, ih _ rfl h.2⟩
    have hext : Cursor.Extends x after ⟨before, offset, y :: ys⟩
        ⟨before', offset', y :: ys ++ x :: after⟩ := ⟨hbefore, rfl⟩
    have hrun : Pattern.createTable.matchAt ⟨before', offset', y :: ys ++ x :: after⟩ = none := by
      refine Pattern.run_eq_none_of_extends hword hstop hext ?_ h.1
      intro _ _ _ _ _ hnone
      cases hnone
    rw [TableHeader.at?, ← List.cons_append, hrun]
    rfl

/-- A text without header keeps none in front of a comma or a closing parenthesis. -/
theorem of_find? {t : Text} (h : TableHeader.find? t 0 = none) {x : Char} (hx : x = ',' ∨ x = ')')
    (after : Text) {before : Option Char} (hbefore : before.any isWord = false) (offset : Nat) :
    Headerless (x :: after) before offset t := by
  have hstart : Cursor.atByte t 0 = ⟨none, 0, t⟩ := by
    cases t <;> rfl
  have hsearch : Pattern.createTable.searchFrom none 0 t = none := by
    rw [TableHeader.find?, Option.map_eq_none_iff, Pattern.searchAt, hstart] at h
    exact h
  have hsame : (none : Option Char).any isWord = before.any isWord := hbefore.symm
  rcases hx with rfl | rfl
  · exact of_searchFrom rfl (by decide) after offset hsame hsearch
  · exact of_searchFrom rfl (by decide) after offset hsame hsearch

end Headerless

end SchemaReview
