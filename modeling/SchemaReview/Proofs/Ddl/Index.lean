import SchemaReview.Ddl.Index
import SchemaReview.Proofs.Ddl.ColumnList
import SchemaReview.Proofs.Ddl.ForeignKey
import SchemaReview.Proofs.Ddl.TableHeader
import SchemaReview.Proofs.Pattern.Walk
import SchemaReview.Proofs.Source.Comment

/-!
# Proofs.Ddl.Index — index statements are read as they are written, up to the first prefix length

An index statement is written with a name, a table and a list of columns (`IndexText`).  A column may be
quoted, and it may have a prefix length and a sort order.

* `run_indexTarget`: the pattern takes the statement up to the first closing parenthesis.  The words that
  may stand in front of a name (`CONCURRENTLY`, `IF NOT EXISTS`, `ONLY`) are no obstacle even where a name
  spells one of them: then nothing is left to be the name, and the pattern goes back.
* `Indexless t`: no index statement begins in `t`.  What is behind the first closing parenthesis is such a
  text, because a column called `CREATE` is at most followed by its sort order.
* `exists_listText_split` cuts the list at its first closing parenthesis, which is that of the first prefix
  length, if there is one.
* `index_statement_read_back`: exactly one index is read, with the columns up to the first one that has a
  prefix length.  So the others are lost: `columns_behind_length_lost`.
-/

namespace SchemaReview

open Text

/-! ## Index statements as written -/

/-- An ASCII letter, a digit or the low line. -/
def isIdentifierChar (c : Char) : Bool := c.toNat < 128 && isWord c

/-- A name of ASCII characters. -/
structure Identifier where
  text : Text
  ne_nil : text ≠ []
  all_ascii : text.all isIdentifierChar = true

/-- The order of an indexed column. -/
inductive SortOrder where
  | ascending
  | descending
deriving DecidableEq, Repr

/-- The word for the order. -/
def SortOrder.word : SortOrder → Text
  | ascending => "ASC".toList
  | descending => "DESC".toList

/-- One column of an index as it is written. -/
structure IndexColumn where
  name : Identifier
  quoting : Quoting
  /-- How much of the column is indexed. -/
  length? : Option Nat
  order? : Option SortOrder

namespace IndexColumn

/-- The key of the column. -/
def key (c : IndexColumn) : String := nameKey (String.ofList c.name.text)

/-- The column up to the number that is its prefix length. -/
def lead (c : IndexColumn) : Text :=
  c.quoting.around c.name.text ++ c.length?.elim [] fun n => '(' :: decimal n

/-- The sort order behind the column. -/
def orderText (c : IndexColumn) : Text := c.order?.elim [] fun o => ' ' :: o.word

/-- The column as written. -/
def text (c : IndexColumn) : Text :=
  c.lead ++ (c.length?.elim [] fun _ => [')']) ++ c.orderText

/-- The columns with commas and blanks between them. -/
def listText : List IndexColumn → Text
  | [] => []
  | [c] => c.text
  | c :: d :: cs => c.text ++ ',' :: ' ' :: listText (d :: cs)

/-- The columns up to the first one that has a prefix length. -/
def upToLength : List IndexColumn → List IndexColumn
  | [] => []
  | c :: cs => if c.length?.isSome then [c] else c :: upToLength cs

end IndexColumn

/-- An index statement as it is written. -/
structure IndexText where
  name : Identifier
  table : Identifier
  unique : Bool
  columns : List IndexColumn
  columns_ne_nil : columns ≠ []

/-- The whole statement. -/
def IndexText.text (i : IndexText) : Text :=
  "CREATE ".toList ++ ((if i.unique then "UNIQUE ".toList else []) ++ ("INDEX ".toList ++
    (i.name.text ++ (" ON ".toList ++ (i.table.text ++ (" (".toList ++
      (IndexColumn.listText i.columns ++ ");".toList)))))))

/-! ## Characters of names -/

theorem isWord_of_isIdentifierChar {c : Char} (h : isIdentifierChar c = true) : isWord c = true :=
  (Bool.and_eq_true_iff.mp h).2

theorem isListed_of_isIdentifierChar {c : Char} (h : isIdentifierChar c = true) : isListed c = true := by
  obtain ⟨hsmall, hword⟩ := Bool.and_eq_true_iff.mp h
  have hascii : c.toNat < 128 := of_decide_eq_true hsmall
  simpa [isWord, isListed, isAlphanumeric, hascii] using hword

namespace Identifier

variable (i : Identifier)

theorem ascii : ∀ x ∈ i.text, isIdentifierChar x = true := List.all_eq_true.mp i.all_ascii

theorem word : ∀ x ∈ i.text, isWord x = true := fun x hx => isWord_of_isIdentifierChar (i.ascii x hx)

theorem isWord_head (t : Text) : ∀ x ∈ (i.text ++ t).head?, isWord x = true :=
  forall_mem_head?_append i.ne_nil i.word t

theorem isBlank_head (t : Text) : ∀ x ∈ (i.text ++ t).head?, isBlank x = false :=
  fun x hx => isBlank_of_isWord (i.isWord_head t x hx)

end Identifier

/-! ## Keywords in front of words -/

/-- A text is cut into word and rest in one way. -/
theorem eq_of_word_append_eq {w w' t t' : Text} (hw : ∀ x ∈ w, isWord x = true)
    (hw' : ∀ x ∈ w', isWord x = true) (ht : ∀ x ∈ t.head?, isWord x = false)
    (ht' : ∀ x ∈ t'.head?, isWord x = false) (h : w ++ t = w' ++ t') : w = w' ∧ t = t' := by
  have hword : w = w' := by
    rw [← takeWhile_append_of_head hw ht, h, takeWhile_append_of_head hw' ht']
  subst hword
  exact ⟨rfl, List.append_cancel_left h⟩

namespace Pattern

variable {α : Type} {k : Continue α} {g : Captures} {before : Option Char} {offset : Nat} {w t : Text}

/-- A keyword and white space take a whole word and what is blank behind it. -/
theorem exists_of_run_keyword_gap {word : String} (hword : word.toList.all (fun l => isWord l.toUpper) = true)
    (hw : ∀ x ∈ w, isWord x = true) (ht : ∀ x ∈ t.head?, isWord x = false) {a : α}
    (h : (keyword word ++ gap).run ⟨before, offset, w ++ t⟩ g k = some a) :
    ∃ b d i, t = b ++ d.rest ∧ b ≠ [] ∧ (∀ x ∈ b, isBlank x = true) ∧ k d i = some a := by
  obtain ⟨d, i, htakes, hk⟩ := exists_of_run h
  obtain ⟨e, j, hletters, hgap⟩ := takes_append.mp htakes
  obtain ⟨v, hv, hspells⟩ := exists_of_takes_letters hletters
  obtain ⟨b, hb, hne, hblank⟩ := exists_of_takes_gap hgap
  have hsplit : w ++ t = v ++ (b ++ d.rest) := by
    rw [← hb.rest]
    exact hv.rest
  have hvword := isWord_of_forall₂_letter (List.all_eq_true.mp hword) hspells
  have hhead : ∀ x ∈ (b ++ d.rest).head?, isWord x = false :=
    forall_mem_head?_append hne (fun x hx => isWord_of_isBlank (hblank x hx)) _
  obtain ⟨-, hrest⟩ := eq_of_word_append_eq hw hvword ht hhead hsplit
  exact ⟨b, d, i, hrest, hne, hblank, hk⟩

/-- A word with something else than white space behind it is no keyword. -/
theorem run_keyword_gap_of_head {word : String}
    (hword : word.toList.all (fun l => isWord l.toUpper) = true) (hw : ∀ x ∈ w, isWord x = true)
    (ht : ∀ x ∈ t.head?, isWord x = false) (hblank : ∀ x ∈ t.head?, isBlank x = false) :
    (keyword word ++ gap).run ⟨before, offset, w ++ t⟩ g k = none := by
  by_contra hsome
  obtain ⟨a, ha⟩ := Option.ne_none_iff_exists'.mp hsome
  obtain ⟨b, d, i, hrest, hne, hb, -⟩ := exists_of_run_keyword_gap hword hw ht ha
  obtain ⟨x, xs, rfl⟩ := List.exists_cons_of_ne_nil hne
  have hx := hblank x (by simp [hrest])
  rw [hb x List.mem_cons_self] at hx
  cases hx

/-- A word is not taken as a keyword when what is behind the blank does not go on. -/
theorem run_keyword_gap_of_next {word : String}
    (hword : word.toList.all (fun l => isWord l.toUpper) = true) (hw : ∀ x ∈ w, isWord x = true) {y : Char}
    (hy : isBlank y = false) (hk : ∀ d h, d.rest = y :: t → k d h = none) :
    (keyword word ++ gap).run ⟨before, offset, w ++ ' ' :: y :: t⟩ g k = none := by
  by_contra hsome
  obtain ⟨a, ha⟩ := Option.ne_none_iff_exists'.mp hsome
  obtain ⟨b, d, i, hrest, hne, hb, hd⟩ :=
    exists_of_run_keyword_gap hword hw (forall_mem_head?_cons (by rfl) _) ha
  obtain ⟨x, xs, rfl⟩ := List.exists_cons_of_ne_nil hne
  rw [List.cons_append, List.cons.injEq] at hrest
  cases xs with
  | nil =>
    rw [hk d i hrest.2.symm] at hd
    cases hd
  | cons z zs =>
    -- the white space would go over `y`
    have hz : isBlank z = true := hb z (by simp)
    rw [List.cons_append, List.cons.injEq] at hrest
    rw [← hrest.2.1, hy] at hz
    cases hz

/-! ## The pattern on a statement -/

/-- The statement behind `INDEX`. -/
def indexTarget : Pattern :=
  opt (phraseGap ["CONCURRENTLY"]) ++ opt (phraseGap ["IF", "NOT", "EXISTS"]) ++ qualifiedName 2 ++ gap ++
    phraseGap ["ON"] ++ opt (phraseGap ["ONLY"]) ++ qualifiedName 3 ++ blanks ++
    opt (keyword "USING" ++ gap ++ wordRun ++ blanks) ++ parenthesized 4

/-- The statement behind `CREATE`. -/
def behindCreate : Pattern :=
  opt (group 1 (phraseGap ["UNIQUE"])) ++ opt (anyOf [keyword "CLUSTERED", keyword "NONCLUSTERED"] ++ gap) ++
    phraseGap ["INDEX"] ++ indexTarget

theorem run_indexTarget_eq (c : Cursor) :
    indexTarget.run c g k = (opt (phraseGap ["CONCURRENTLY"])).run c g fun c g =>
      (opt (phraseGap ["IF", "NOT", "EXISTS"])).run c g fun c g => (qualifiedName 2).run c g fun c g =>
        gap.run c g fun c g => (phraseGap ["ON"]).run c g fun c g =>
          (opt (phraseGap ["ONLY"])).run c g fun c g => (qualifiedName 3).run c g fun c g =>
            blanks.run c g fun c g => (opt (keyword "USING" ++ gap ++ wordRun ++ blanks)).run c g
              fun c g => (parenthesized 4).run c g k := by
  rw [indexTarget]
  repeat rw [run_append]

theorem run_behindCreate (c : Cursor) :
    behindCreate.run c g k = (opt (group 1 (phraseGap ["UNIQUE"]))).run c g fun c g =>
      (opt (anyOf [keyword "CLUSTERED", keyword "NONCLUSTERED"] ++ gap)).run c g fun c g =>
        (phraseGap ["INDEX"]).run c g fun c g => indexTarget.run c g k := by
  rw [behindCreate]
  repeat rw [run_append]

theorem matchAt_createIndex (c : Cursor) :
    createIndex.matchAt c = if c.atWordEdge then (keyword "CREATE" ++ gap).run c [] fun d h =>
      behindCreate.run d h fun e i => some ⟨c, e, i⟩ else none := by
  have hedge : ∀ k : Continue Match, wordEdge.run c [] k = if c.atWordEdge then k c [] else none :=
    fun _ => rfl
  rw [matchAt, createIndex]
  repeat rw [run_append]
  simp only [run_behindCreate, run_indexTarget_eq, hedge]

theorem run_only_of_parenthesis {c : Cursor} (hc : c.rest = '(' :: t) :
    (phraseGap ["ONLY"]).run c g k = none := by
  obtain ⟨before, offset, rest⟩ := c
  obtain rfl : rest = '(' :: t := hc
  rfl

/-- No name begins with a parenthesis. -/
theorem run_qualifiedName_of_parenthesis (n : Nat) {c : Cursor} (hc : c.rest = '(' :: t) :
    (qualifiedName n).run c g k = none := by
  obtain ⟨before, offset, rest⟩ := c
  obtain rfl : rest = '(' :: t := hc
  rfl

/-- `ON`, a name and a parenthesis are not read as the name of an index and its table. -/
theorem run_target_of_on (table : Identifier) {c : Cursor}
    (hc : c.rest = "ON ".toList ++ (table.text ++ ' ' :: '(' :: t)) :
    (opt (phraseGap ["IF", "NOT", "EXISTS"])).run c g (fun c g => (qualifiedName 2).run c g fun c g =>
      gap.run c g fun c g => (phraseGap ["ON"]).run c g fun c g =>
        (opt (phraseGap ["ONLY"])).run c g fun c g => (qualifiedName 3).run c g k) = none := by
  obtain ⟨before, offset, rest⟩ := c
  obtain rfl : rest = "ON".toList ++ ' ' :: (table.text ++ ' ' :: '(' :: t) := hc
  rw [run_opt_of_eq_none rfl]
  refine run_eq_none_of_stopsAt (by decide) ?_
  rintro ⟨b, o, r⟩ h u hu hr
  obtain rfl : r = _ := hr
  cases u with
  | nil =>
    rw [List.nil_append, run_gap_of_head rfl (table.isBlank_head _)]
    refine run_keyword_gap_of_next rfl table.word rfl fun d i hd => ?_
    rw [run_opt_of_eq_none (run_only_of_parenthesis hd), run_qualifiedName_of_parenthesis 3 hd]
  | cons y ys =>
    have hy : y ∈ "ON".toList := hu.subset List.mem_cons_self
    have hall : "ON".toList.all (fun x => !CharClass.blank.holds x) = true := rfl
    have hblank : CharClass.blank.holds y = false := by simpa using List.all_eq_true.mp hall y hy
    rw [List.cons_append, gap, atLeastOne, run_seq, run_one_of_not_holds hblank]

/-- A name in front of `ON` is no `IF NOT EXISTS`. -/
theorem run_ifNotExists_of_on (hw : ∀ x ∈ w, isWord x = true) :
    (phraseGap ["IF", "NOT", "EXISTS"]).run ⟨before, offset, w ++ ' ' :: 'O' :: t⟩ g k = none := by
  have hrun : ∀ c : Cursor, (phraseGap ["IF", "NOT", "EXISTS"]).run c g k =
      (keyword "IF" ++ gap).run c g fun d h => (phraseGap ["NOT", "EXISTS"]).run d h k := by
    intro c
    simp only [phraseGap, phrase, run_append]
  rw [hrun]
  refine run_keyword_gap_of_next rfl hw rfl ?_
  rintro ⟨b, o, r⟩ h hr
  obtain rfl : r = 'O' :: t := hr
  rfl

/-- What is remembered of the names and the list of a statement. -/
def targetCaptures (offset : Nat) (name table inside t : Text) : Captures :=
  let behindName := " ON ".toList ++ (table ++ (" (".toList ++ (inside ++ ')' :: t)))
  let tableStart := offset + byteSize name + 4
  let listStart := tableStart + byteSize table + 2
  [(4, ⟨listStart, listStart + byteSize inside, inside ++ ')' :: t⟩),
    (3, ⟨tableStart, tableStart + byteSize table, table ++ (" (".toList ++ (inside ++ ')' :: t))⟩),
    (2, ⟨offset, offset + byteSize name, name ++ behindName⟩)]

/-- The names are taken as they stand, and the list up to the first closing parenthesis. -/
theorem run_indexTarget (name table : Identifier) {inside : Text} (hinside : ')' ∉ inside) {a : α}
    (h : k ⟨some ')', offset + byteSize name.text + 4 + byteSize table.text + 2 + byteSize inside + 1, t⟩
      (targetCaptures offset name.text table.text inside t ++ g) = some a) :
    indexTarget.run ⟨before, offset, name.text ++ (" ON ".toList ++ (table.text ++ (" (".toList ++
      (inside ++ ')' :: t))))⟩ g k = some a := by
  have hclosed : ∀ x ∈ inside, (CharClass.except ')').holds x = true := by
    intro x hx
    have hne : x ≠ ')' := fun heq => hinside (heq ▸ hx)
    simpa [CharClass.holds] using hne
  set behindO := "N ".toList ++ (table.text ++ ' ' :: '(' :: (inside ++ ')' :: t)) with hbehindO
  have htarget : name.text ++ (" ON ".toList ++ (table.text ++ (" (".toList ++ (inside ++ ')' :: t)))) =
      name.text ++ ' ' :: 'O' :: behindO := rfl
  rw [run_indexTarget_eq, htarget]
  -- a name may spell the word that may stand in front of it, but then no name follows
  have hconcurrently : ∀ k' : Continue α, (∀ d i, d.rest = 'O' :: behindO → k' d i = none) →
      (phraseGap ["CONCURRENTLY"]).run ⟨before, offset, name.text ++ ' ' :: 'O' :: behindO⟩ g k' = none :=
    fun k' hk' => run_keyword_gap_of_next rfl name.word rfl hk'
  rw [run_opt_of_eq_none (hconcurrently _ fun d i hd => run_target_of_on table hd),
    run_opt_of_eq_none (run_ifNotExists_of_on name.word)]
  refine run_qualifiedName name.ne_nil name.word 2 _ _ _ _ ?_
  rw [run_gap_of_head rfl (forall_mem_head?_cons (by rfl) _), phraseGap, phrase, run_append]
  have hon : 'O' :: behindO = "ON".toList ++ ' ' :: (table.text ++ ' ' :: '(' :: (inside ++ ')' :: t)) := rfl
  rw [hon, keyword, run_letters_append, run_gap_of_head rfl (table.isBlank_head _), run_opt_of_eq_none]
  · refine run_qualifiedName table.ne_nil table.word 3 _ _ _ _ ?_
    refine run_many_append .blank (w := [' ']) (List.all_eq_true.mp rfl) (forall_mem_head?_cons (by rfl) _) ?_
    rw [run_opt_of_eq_none rfl, parenthesized, run_append, run_append, run_char, run]
    refine run_many_append _ hclosed (forall_mem_head?_cons (by rfl) _) ?_
    rw [run_char]
    exact h
  · refine run_keyword_gap_of_next rfl table.word rfl fun d i hd => ?_
    exact run_qualifiedName_of_parenthesis 3 hd

/-- The word `INDEX` and the blank behind it are taken. -/
theorem run_index_word (ht : ∀ x ∈ t.head?, isBlank x = false) :
    (opt (anyOf [keyword "CLUSTERED", keyword "NONCLUSTERED"] ++ gap)).run
      ⟨before, offset, "INDEX".toList ++ ' ' :: t⟩ g (fun c g => (phraseGap ["INDEX"]).run c g k) =
        k ⟨some ' ', offset + 5 + 1, t⟩ g := by
  rw [run_opt_of_eq_none rfl, phraseGap, phrase, run_append, keyword, run_letters_append, run_gap_of_head rfl ht]
  rfl

/-- The text of a statement up to the names. -/
def indexLead (unique : Bool) : Text :=
  "CREATE ".toList ++ ((if unique then "UNIQUE ".toList else []) ++ "INDEX ".toList)

/-- What is remembered of the word for uniqueness, in front of `t`. -/
def uniqueCaptures (unique : Bool) (t : Text) : Captures :=
  if unique then [(1, ⟨7, 14, "UNIQUE INDEX ".toList ++ t⟩)] else []

/-- The words in front of the names are taken. -/
theorem matchAt_createIndex_of_target (unique : Bool) (ht : ∀ x ∈ t.head?, isBlank x = false) {m : Match}
    (h : indexTarget.run ⟨some ' ', byteSize (indexLead unique), t⟩ (uniqueCaptures unique t)
      (fun e i => some ⟨Cursor.atStart (indexLead unique ++ t), e, i⟩) = some m) :
    createIndex.matchAt (Cursor.atStart (indexLead unique ++ t)) = some m := by
  have hindex : ∀ x ∈ ("INDEX".toList ++ ' ' :: t).head?, isBlank x = false :=
    forall_mem_head?_cons (by rfl) _
  rw [matchAt_createIndex]
  cases unique with
  | false =>
    have hlead : indexLead false ++ t = "CREATE".toList ++ ' ' :: ("INDEX".toList ++ ' ' :: t) := rfl
    rw [hlead] at h ⊢
    rw [if_pos (by rfl), run_append, keyword, Cursor.atStart, run_letters_append,
      run_gap_of_head rfl hindex, run_behindCreate, run_opt_of_eq_none rfl, run_index_word ht]
    exact h
  | true =>
    have hlead : indexLead true ++ t =
        "CREATE".toList ++ ' ' :: ("UNIQUE".toList ++ ' ' :: ("INDEX".toList ++ ' ' :: t)) := rfl
    have hunique : ∀ x ∈ ("UNIQUE".toList ++ ' ' :: ("INDEX".toList ++ ' ' :: t)).head?, isBlank x = false :=
      forall_mem_head?_cons (by rfl) _
    rw [hlead] at h ⊢
    rw [if_pos (by rfl), run_append, keyword, Cursor.atStart, run_letters_append, run_gap_of_head rfl hunique,
      run_behindCreate]
    refine run_opt_of_eq_some ?_
    rw [run, phraseGap, phrase, run_append, keyword, run_letters_append, run_gap_of_head rfl hindex,
      run_index_word ht]
    exact h

end Pattern

namespace IndexText

variable (i : IndexText)

/-- The statement up to a closing parenthesis, where `inside` is the list up to there. -/
def upToClosing (inside : Text) : Text :=
  Pattern.indexLead i.unique ++ (i.name.text ++ (" ON ".toList ++ (i.table.text ++ (" (".toList ++
    (inside ++ [')'])))))

/-- The statement up to the first closing parenthesis is matched, and its parts are captured. -/
theorem exists_matchAt_upToClosing {inside : Text} (hinside : ')' ∉ inside) (t : Text) :
    ∃ m, Pattern.createIndex.matchAt (Cursor.atStart (i.upToClosing inside ++ t)) = some m ∧
      m.stop.offset = byteSize (i.upToClosing inside) ∧ (m.group? 1).isSome = i.unique ∧
      m.groupText 2 = i.name.text ∧ m.groupText 3 = i.table.text ∧ m.groupText 4 = inside := by
  set target := i.name.text ++ (" ON ".toList ++ (i.table.text ++ (" (".toList ++ (inside ++ ')' :: t))))
    with htarget
  have htext : i.upToClosing inside ++ t = Pattern.indexLead i.unique ++ target := by
    simp [upToClosing, htarget]
  set start := byteSize (Pattern.indexLead i.unique) with hstart
  set stop := start + byteSize i.name.text + 4 + byteSize i.table.text + 2 + byteSize inside + 1 with hstop
  set m : Match := ⟨Cursor.atStart (Pattern.indexLead i.unique ++ target), ⟨some ')', stop, t⟩,
    Pattern.targetCaptures start i.name.text i.table.text inside t ++
      Pattern.uniqueCaptures i.unique target⟩ with hm
  have hmatch : Pattern.createIndex.matchAt (Cursor.atStart (Pattern.indexLead i.unique ++ target)) = some m := by
    refine Pattern.matchAt_createIndex_of_target i.unique (i.name.isBlank_head _) ?_
    exact Pattern.run_indexTarget i.name i.table hinside rfl
  rw [htext]
  refine ⟨m, hmatch, ?_, ?_, Match.groupText_of_append rfl, Match.groupText_of_append rfl,
    Match.groupText_of_append rfl⟩
  · have hon : byteSize " ON ".toList = 4 := rfl
    have hopen : byteSize " (".toList = 2 := rfl
    have hclose : byteSize [')'] = 1 := rfl
    simp only [upToClosing, byteSize_append, hon, hopen, hclose, hm, hstop, hstart]
    omega
  · rw [hm]
    cases i.unique <;> rfl

end IndexText

/-! ## Text without index statements -/

/-- No index statement begins in the text, wherever it stands. -/
def Indexless (t : Text) : Prop :=
  ∀ before offset, Pattern.createIndex.findAllFrom 0 before offset t = []

namespace Indexless

variable {w t : Text}

theorem matchAt_eq_none_of_edge {c : Cursor} (h : c.atWordEdge = false) :
    Pattern.createIndex.matchAt c = none := by
  rw [Pattern.matchAt_createIndex, h]
  rfl

theorem nil : Indexless [] := by
  intro before offset
  have hnone : Pattern.createIndex.matchAt ⟨before, offset, []⟩ = none := by
    rw [Pattern.matchAt_createIndex]
    split <;> rfl
  rw [Pattern.findAllFrom, if_neg (Nat.not_lt_zero _), hnone]
  rfl

/-- A character that begins no index statement may stand in front. -/
theorem cons {x : Char} (hx : (CharClass.letter 'C').holds x = false) (h : Indexless t) :
    Indexless (x :: t) := by
  intro before offset
  have hnone : Pattern.createIndex.matchAt ⟨before, offset, x :: t⟩ = none := by
    rw [Pattern.matchAt_createIndex, Pattern.run_append, Pattern.keyword]
    split
    · exact Pattern.run_letters_of_not_holds hx _ _ _ _ _ _
    · rfl
  rw [Pattern.findAllFrom_cons_of_eq_none hnone]
  exact h _ _

theorem append (hw : ∀ x ∈ w, (CharClass.letter 'C').holds x = false) (h : Indexless t) :
    Indexless (w ++ t) := by
  induction w with
  | nil => exact h
  | cons x xs ih =>
    rw [List.forall_mem_cons] at hw
    exact .cons hw.1 (ih hw.2)

/-- So may a word that something else than white space follows. -/
theorem word (hw : ∀ x ∈ w, isWord x = true) (ht : ∀ x ∈ t.head?, isWord x = false)
    (hblank : ∀ x ∈ t.head?, isBlank x = false) (h : Indexless t) : Indexless (w ++ t) := by
  intro before offset
  have hnone : Pattern.createIndex.matchAt ⟨before, offset, w ++ t⟩ = none := by
    rw [Pattern.matchAt_createIndex, Pattern.run_keyword_gap_of_head rfl hw ht hblank, ite_self]
  rw [Pattern.findAllFrom_word (fun c => matchAt_eq_none_of_edge) hw hnone]
  exact h _ _

/-- And so may a word that a sort order follows. -/
theorem word_order (hw : ∀ x ∈ w, isWord x = true) (o : SortOrder) (h : Indexless (' ' :: (o.word ++ t))) :
    Indexless (w ++ ' ' :: (o.word ++ t)) := by
  intro before offset
  have hnone : Pattern.createIndex.matchAt ⟨before, offset, w ++ ' ' :: (o.word ++ t)⟩ = none := by
    rw [Pattern.matchAt_createIndex]
    split
    · cases o with
      | ascending =>
        refine Pattern.run_keyword_gap_of_next rfl hw (y := 'A') rfl ?_
        rintro ⟨b, o, r⟩ h hr
        obtain rfl : r = 'A' :: ("SC".toList ++ t) := hr
        rfl
      | descending =>
        refine Pattern.run_keyword_gap_of_next rfl hw (y := 'D') rfl ?_
        rintro ⟨b, o, r⟩ h hr
        obtain rfl : r = 'D' :: ("ESC".toList ++ t) := hr
        rfl
    · rfl
  rw [Pattern.findAllFrom_word (fun c => matchAt_eq_none_of_edge) hw hnone]
  exact h _ _

end Indexless

/-! ## Columns -/

theorem isIdentifierChar_of_isAsciiDigit {c : Char} (h : isAsciiDigit c = true) :
    isIdentifierChar c = true := by
  have hle : c.toNat ≤ 57 := by
    rw [isAsciiDigit, Bool.and_eq_true, decide_eq_true_eq, decide_eq_true_eq] at h
    exact h.2
  have hword := isWord_of_isDigit (isDigit_of_isAsciiDigit h)
  rw [isIdentifierChar, hword, Bool.and_true, decide_eq_true_eq]
  omega

theorem SortOrder.isIdentifierChar_of_mem_word {o : SortOrder} {x : Char} (h : x ∈ o.word) :
    isIdentifierChar x = true := by
  have hall : o.word.all isIdentifierChar = true := by cases o <;> rfl
  exact List.all_eq_true.mp hall x h

namespace IndexColumn

variable (c : IndexColumn) {t : Text}

theorem lead_eq : c.lead = c.quoting.opening ++ (c.name.text ++ (c.quoting.closing ++
    c.length?.elim [] fun n => '(' :: decimal n)) := by
  simp [lead, Quoting.around]

theorem mem_lead {x : Char} (h : x ∈ c.lead) :
    isIdentifierChar x = true ∨ x ∈ ['"', '\x60', '[', ']', '('] := by
  have hmark : ∀ {x : Char}, x ∈ c.quoting.opening ∨ x ∈ c.quoting.closing →
      x ∈ ['"', '\x60', '[', ']', '('] := by
    intro x hx
    have hall := Quoting.holds_of_mem (p := fun x => ['"', '\x60', '[', ']', '('].contains x) (by decide) hx
    exact List.contains_iff_mem.mp hall
  rw [lead_eq] at h
  rcases List.mem_append.mp h with h | h
  · exact Or.inr (hmark (Or.inl h))
  rcases List.mem_append.mp h with h | h
  · exact Or.inl (c.name.ascii x h)
  rcases List.mem_append.mp h with h | h
  · exact Or.inr (hmark (Or.inr h))
  cases hlength : c.length? with
  | none =>
    rw [hlength] at h
    cases h
  | some n =>
    rw [hlength] at h
    rcases List.mem_cons.mp h with rfl | h
    · exact Or.inr (by decide)
    · exact Or.inl (isIdentifierChar_of_isAsciiDigit (isAsciiDigit_of_mem_decimal h))

theorem mem_orderText {x : Char} (h : x ∈ c.orderText) : isIdentifierChar x = true ∨ x = ' ' := by
  unfold orderText at h
  cases horder : c.order? with
  | none =>
    rw [horder] at h
    cases h
  | some o =>
    rw [horder] at h
    rcases List.mem_cons.mp h with rfl | h
    · exact Or.inr rfl
    · exact Or.inl (SortOrder.isIdentifierChar_of_mem_word h)

/-- A column up to its prefix length is listed under its key. -/
theorem columnKey?_lead (ht : ∀ x ∈ t.head?, isListed x = false) :
    columnKey? (c.lead ++ t) = some c.key := by
  rw [lead_eq, List.append_assoc, List.append_assoc, List.append_assoc]
  refine columnKey?_opening c.quoting c.name.ne_nil
    (fun x hx => isListed_of_isIdentifierChar (c.name.ascii x hx)) ?_
  refine forall_mem_head?_append_of_head (fun x hx => ?_) ?_
  · simpa using Quoting.holds_of_mem (p := fun x => !isListed x) rfl (Or.inr hx)
  · cases c.length? with
    | none => exact ht
    | some n => exact forall_mem_head?_cons (by rfl) _

theorem orderText_head : ∀ x ∈ c.orderText.head?, isListed x = false := by
  unfold orderText
  cases c.order? with
  | none => simp
  | some o => exact forall_mem_head?_cons (by rfl) _

end IndexColumn

/-- What stands behind a column in a list: a comma or a closing parenthesis. -/
def EndsColumn (t : Text) : Prop := ∀ x ∈ t.head?, x = ',' ∨ x = ')'

namespace EndsColumn

variable {t : Text}

theorem holds {p : Char → Bool} (hp : [',', ')'].all p = true) (h : EndsColumn t) :
    ∀ x ∈ t.head?, p x = true := by
  intro x hx
  refine List.all_eq_true.mp hp x ?_
  simpa using h x hx

theorem isWord_head (h : EndsColumn t) : ∀ x ∈ t.head?, isWord x = false :=
  fun x hx => by simpa using h.holds (p := fun x => !isWord x) rfl x hx

theorem isBlank_head (h : EndsColumn t) : ∀ x ∈ t.head?, isBlank x = false :=
  fun x hx => by simpa using h.holds (p := fun x => !isBlank x) rfl x hx

end EndsColumn

namespace IndexColumn

variable (c : IndexColumn) {t : Text}

theorem indexless_orderText (ht : EndsColumn t) (h : Indexless t) : Indexless (c.orderText ++ t) := by
  unfold orderText
  cases c.order? with
  | none => exact h
  | some o =>
    have hword : Indexless (o.word ++ t) :=
      .word (fun x hx => isWord_of_isIdentifierChar (SortOrder.isIdentifierChar_of_mem_word hx))
        ht.isWord_head ht.isBlank_head h
    exact .cons rfl hword

/-- No index statement begins in a column.  A column called `CREATE` is followed by a mark, a parenthesis
or the end of the column, or else by its sort order. -/
theorem indexless_text (ht : EndsColumn t) (h : Indexless t) : Indexless (c.text ++ t) := by
  set length := c.length?.elim [] fun n => '(' :: (decimal n ++ [')']) with hlength
  have htext : c.text ++ t = c.quoting.opening ++ (c.name.text ++ (c.quoting.closing ++
      (length ++ (c.orderText ++ t)))) := by
    cases hn : c.length? <;> simp [text, lead, Quoting.around, hlength, hn]
  have hmark : ∀ x, x ∈ c.quoting.opening ∨ x ∈ c.quoting.closing → (CharClass.letter 'C').holds x = false :=
    fun x hx => by simpa using Quoting.holds_of_mem (p := fun x => !(CharClass.letter 'C').holds x) rfl hx
  have hdigits : ∀ x ∈ length, (CharClass.letter 'C').holds x = false := by
    rw [hlength]
    cases c.length? with
    | none => simp
    | some n =>
      simp only [Option.elim_some, List.forall_mem_cons, List.forall_mem_append]
      refine ⟨rfl, forall_mem_decimal (by decide) _, rfl, by simp⟩
  have horder := c.indexless_orderText ht h
  have hbehind : Indexless (c.quoting.closing ++ (length ++ (c.orderText ++ t))) :=
    (horder.append hdigits).append fun x hx => hmark x (Or.inr hx)
  rw [htext]
  refine Indexless.append (fun x hx => hmark x (Or.inl hx)) ?_
  rcases c.quoting.closing_eq with hnil | ⟨x, hx, hone⟩
  · rw [hnil, List.nil_append] at hbehind ⊢
    cases hn : c.length? with
    | some n =>
      rw [hlength, hn] at hbehind ⊢
      exact .word c.name.word (forall_mem_head?_cons (by rfl) _) (forall_mem_head?_cons (by rfl) _) hbehind
    | none =>
      rw [hlength, hn, Option.elim_none, List.nil_append]
      cases ho : c.order? with
      | none =>
        rw [orderText, ho]
        exact .word c.name.word ht.isWord_head ht.isBlank_head h
      | some o =>
        rw [orderText, ho] at horder ⊢
        exact .word_order c.name.word o horder
  · have hclosing : isWord x = false ∧ isBlank x = false := by
      have hall : closingMarks.all (fun x => !isWord x && !isBlank x) = true := rfl
      simpa using List.all_eq_true.mp hall x hx
    rw [hone] at hbehind ⊢
    exact .word c.name.word (forall_mem_head?_cons hclosing.1 _) (forall_mem_head?_cons hclosing.2 _) hbehind

theorem indexless_listText {cs : List IndexColumn} (hne : cs ≠ []) (ht : EndsColumn t) (h : Indexless t) :
    Indexless (listText cs ++ t) := by
  fun_induction listText cs with
  | case1 => exact absurd rfl hne
  | case2 c => exact c.indexless_text ht h
  | case3 c d cs ih =>
    have hrest : Indexless (',' :: ' ' :: (listText (d :: cs) ++ t)) :=
      .cons rfl (.cons rfl (ih (List.cons_ne_nil d cs)))
    rw [List.append_assoc]
    exact c.indexless_text (forall_mem_head?_cons (Or.inl rfl) _) hrest

/-! ## The list up to its first closing parenthesis -/

/-- Neither a column up to its prefix length nor its sort order has other characters. -/
theorem not_mem_lead {x : Char} (hx : isIdentifierChar x = false) (hmark : x ∉ ['"', '\x60', '[', ']', '(']) :
    x ∉ c.lead := by
  intro h
  rcases c.mem_lead h with h | h
  · rw [hx] at h
    cases h
  · exact hmark h

theorem not_mem_orderText {x : Char} (hx : isIdentifierChar x = false) (hblank : x ≠ ' ') :
    x ∉ c.orderText := by
  intro h
  rcases c.mem_orderText h with h | h
  · rw [hx] at h
    cases h
  · exact hblank h

/-- At a prefix length the list is cut. -/
theorem text_append_of_length (hn : c.length?.isSome = true) (t : Text) :
    c.text ++ t = c.lead ++ ')' :: (c.orderText ++ t) := by
  obtain ⟨n, hn⟩ := Option.isSome_iff_exists.mp hn
  simp [text, hn]

theorem text_of_length (hn : c.length?.isSome = false) : c.text = c.lead ++ c.orderText := by
  rw [Option.isSome_eq_false_iff, Option.isNone_iff_eq_none] at hn
  simp [text, hn]

theorem upToLength_of_length {c : IndexColumn} (hn : c.length?.isSome = true) (cs : List IndexColumn) :
    upToLength (c :: cs) = [c] := by
  rw [upToLength, if_pos hn]

theorem upToLength_of_no_length {c : IndexColumn} (hn : c.length?.isSome = false) (cs : List IndexColumn) :
    upToLength (c :: cs) = c :: upToLength cs := by
  rw [upToLength, hn]
  rfl

/-- The list is cut at the first prefix length. -/
theorem exists_listText_split {cs : List IndexColumn} (hne : cs ≠ []) :
    ∃ inside rest, listText cs ++ ");".toList = inside ++ ')' :: rest ∧ ')' ∉ inside ∧
      columnKeys inside = (upToLength cs).map key ∧ Indexless rest := by
  have hsemicolon : Indexless [';'] := .cons rfl .nil
  have hend : Indexless ");".toList := .cons rfl hsemicolon
  -- a column with a prefix length closes the list, and any other one only stands in front of it
  have hcut : ∀ (c : IndexColumn) (cs : List IndexColumn) (t : Text), c.length?.isSome = true →
      EndsColumn t → Indexless t → ∃ inside rest, c.text ++ t = inside ++ ')' :: rest ∧ ')' ∉ inside ∧
        columnKeys inside = (upToLength (c :: cs)).map key ∧ Indexless rest := by
    intro c cs t hn ht h
    refine ⟨c.lead, c.orderText ++ t, c.text_append_of_length hn t, c.not_mem_lead rfl (by decide), ?_,
      c.indexless_orderText ht h⟩
    have hkey := c.columnKey?_lead (t := []) (by simp)
    rw [List.append_nil] at hkey
    rw [columnKeys_of_not_mem (c.not_mem_lead rfl (by decide)), hkey, upToLength_of_length hn]
    rfl
  have hplain : ∀ c : IndexColumn, c.length?.isSome = false →
      ')' ∉ c.text ∧ ',' ∉ c.text ∧ columnKey? c.text = some c.key := by
    intro c hn
    rw [c.text_of_length hn, List.mem_append, List.mem_append, not_or, not_or]
    exact ⟨⟨c.not_mem_lead rfl (by decide), c.not_mem_orderText rfl (by decide)⟩,
      ⟨c.not_mem_lead rfl (by decide), c.not_mem_orderText rfl (by decide)⟩,
      c.columnKey?_lead c.orderText_head⟩
  fun_induction listText cs with
  | case1 => exact absurd rfl hne
  | case2 c =>
    cases hn : c.length?.isSome with
    | true => exact hcut c [] _ hn (forall_mem_head?_cons (Or.inr rfl) _) hend
    | false =>
      obtain ⟨hclose, hcomma, hkey⟩ := hplain c hn
      refine ⟨c.text, [';'], rfl, hclose, ?_, hsemicolon⟩
      rw [columnKeys_of_not_mem hcomma, hkey, upToLength_of_no_length hn]
      rfl
  | case3 c d cs ih =>
    rw [List.append_assoc]
    cases hn : c.length?.isSome with
    | true =>
      have hlist := indexless_listText (List.cons_ne_nil d cs) (forall_mem_head?_cons (Or.inr rfl) _) hend
      exact hcut c (d :: cs) _ hn (forall_mem_head?_cons (Or.inl rfl) _) (.cons rfl (.cons rfl hlist))
    | false =>
      obtain ⟨hclose, hcomma, hkey⟩ := hplain c hn
      obtain ⟨inside, rest, hsplit, hinside, hkeys, hrest⟩ := ih (List.cons_ne_nil d cs)
      refine ⟨c.text ++ ',' :: ' ' :: inside, rest, ?_, ?_, ?_, hrest⟩
      · rw [List.cons_append, List.cons_append, hsplit]
        simp
      · simp [hclose, hinside]
      · rw [columnKeys_cons_comma hcomma, columnKeys_blank, hkey, hkeys, upToLength_of_no_length hn]
        rfl

/-- All columns are kept when only the last one may have a prefix length. -/
theorem map_key_upToLength_eq_iff (cs : List IndexColumn) :
    (upToLength cs).map key = cs.map key ↔ ∀ c ∈ cs.dropLast, c.length? = none := by
  induction cs with
  | nil => simp [upToLength]
  | cons c cs ih =>
    cases hn : c.length?.isSome with
    | true =>
      rw [upToLength_of_length hn]
      cases cs with
      | nil => simp
      | cons d cs =>
        have hsome : c.length? ≠ none := Option.isSome_iff_ne_none.mp hn
        simp [hsome]
    | false =>
      have hnone : c.length? = none := by simpa using hn
      rw [upToLength_of_no_length hn, List.map_cons, List.map_cons, List.cons.injEq]
      cases cs with
      | nil => simp [upToLength]
      | cons d cs =>
        rw [ih, List.dropLast_cons_cons]
        simp [hnone]

theorem not_mem_text {x : Char} (hx : isIdentifierChar x = false)
    (hmark : x ∉ ['"', '\x60', '[', ']', '(', ')', ' ']) : x ∉ c.text := by
  simp only [List.mem_cons, List.not_mem_nil, or_false, not_or] at hmark
  have hlead := c.not_mem_lead hx (by simp [hmark])
  have horder := c.not_mem_orderText hx (by simp [hmark])
  have hclose : x ∉ c.length?.elim [] fun _ => [')'] := by cases c.length? <;> simp [hmark]
  simp [text, hlead, horder, hclose]

theorem not_mem_listText {x : Char} (hx : isIdentifierChar x = false)
    (hmark : x ∉ ['"', '\x60', '[', ']', '(', ')', ' ']) (hcomma : x ≠ ',') (cs : List IndexColumn) :
    x ∉ listText cs := by
  fun_induction listText cs with
  | case1 => simp
  | case2 c => exact c.not_mem_text hx hmark
  | case3 c d cs ih =>
    have hblank : x ≠ ' ' := fun heq => hmark (by simp [heq])
    simp [c.not_mem_text hx hmark, hcomma, hblank, ih]

end IndexColumn

namespace IndexText

variable (i : IndexText)

/-- A statement has the characters of names, quotes and punctuation only. -/
theorem not_mem_text {x : Char} (hx : isIdentifierChar x = false)
    (hmark : x ∉ ['"', '\x60', '[', ']', '(', ')', ' ', ',', ';']) : x ∉ i.text := by
  simp only [List.mem_cons, List.not_mem_nil, or_false, not_or] at hmark
  have hname : ∀ n : Identifier, x ∉ n.text := by
    intro n hmem
    rw [n.ascii x hmem] at hx
    cases hx
  have hliteral : ∀ w : Text, w.all (fun y => isIdentifierChar y || [' ', '(', ')', ';'].contains y) = true →
      x ∉ w := by
    intro w hw hmem
    have hchar := List.all_eq_true.mp hw x hmem
    simp [hx, hmark] at hchar
  have hunique : x ∉ if i.unique then "UNIQUE ".toList else [] := by
    split
    · exact hliteral _ rfl
    · simp
  have hlist := IndexColumn.not_mem_listText hx (by simp [hmark]) hmark.2.2.2.2.2.2.2.1 i.columns
  unfold text
  simp only [List.mem_append, not_or]
  exact ⟨hliteral _ rfl, hunique, hliteral _ rfl, hname _, hliteral _ rfl, hname _, hliteral _ rfl, hlist,
    hliteral _ rfl⟩

theorem commentFree : CommentFree i.text :=
  .of_not_mem (i.not_mem_text rfl (by decide)) (i.not_mem_text rfl (by decide))

/-- A match takes the statement up to the first closing parenthesis, and no other one begins behind it. -/
theorem exists_matchAt_text :
    ∃ taken rest m, i.text = taken ++ rest ∧ taken ≠ [] ∧
      Pattern.createIndex.matchAt (Cursor.atStart (taken ++ rest)) = some m ∧
      m.stop.offset = byteSize taken ∧ Indexless rest ∧ (m.group? 1).isSome = i.unique ∧
      m.groupText 2 = i.name.text ∧ m.groupText 3 = i.table.text ∧
      columnKeys (m.groupText 4) = (IndexColumn.upToLength i.columns).map IndexColumn.key := by
  obtain ⟨inside, rest, hsplit, hinside, hkeys, hrest⟩ := IndexColumn.exists_listText_split i.columns_ne_nil
  obtain ⟨m, hm, hstop, hunique, hname, htable, hlist⟩ :=
    i.exists_matchAt_upToClosing hinside rest
  refine ⟨i.upToClosing inside, rest, m, ?_, ?_, hm, hstop, hrest, hunique, hname, htable,
    by rw [hlist, hkeys]⟩
  · have hcut : IndexColumn.listText i.columns ++ ");".toList = inside ++ ([')'] ++ rest) := hsplit
    unfold text upToClosing Pattern.indexLead
    rw [hcut]
    simp only [List.append_assoc]
  · exact List.append_ne_nil_of_left_ne_nil (by cases i.unique <;> decide) _

end IndexText

theorem Source.indexes_eq_singleton {s : Source} {taken rest : Text} {m : Match}
    (htext : s.text = taken ++ rest) (hne : taken ≠ [])
    (hm : Pattern.createIndex.matchAt (Cursor.atStart (taken ++ rest)) = some m)
    (hstop : m.stop.offset = byteSize taken) (hrest : Indexless rest) : s.indexes = [Index.ofMatch s m] := by
  have hfind : Pattern.createIndex.findAll (taken ++ rest) = [m] := by
    rw [Pattern.findAll, Pattern.findAllFrom_of_matchAt hne hm (by rw [hstop, Nat.zero_add]), hrest]
  rw [Source.indexes, htext, hfind]
  rfl

/-- **An index statement is read as it is written, up to the first prefix length.**  Exactly one index is
read, with the name, the table and the uniqueness of the statement.  Its columns are those up to the first
one that has a prefix length, so they are all columns exactly when at most the last one has such a length. -/
theorem index_statement_read_back (i : IndexText) :
    ∃ x, (Source.ofString (String.ofList i.text)).indexes = [x] ∧
      x.name = String.ofList i.name.text ∧ x.table = String.ofList i.table.text ∧ x.unique = i.unique ∧
      x.columns = (IndexColumn.upToLength i.columns).map IndexColumn.key ∧
      (x.columns = i.columns.map IndexColumn.key ↔ ∀ c ∈ i.columns.dropLast, c.length? = none) := by
  obtain ⟨taken, rest, m, htext, hne, hm, hstop, hrest, hunique, hname, htable, hkeys⟩ := i.exists_matchAt_text
  have hmasked : (Source.ofString (String.ofList i.text)).text = taken ++ rest := by
    rw [← htext, Source.ofString, String.toList_ofList]
    exact i.commentFree.maskComments_eq
  refine ⟨_, Source.indexes_eq_singleton hmasked hne hm hstop hrest, ?_, ?_, hunique, hkeys, ?_⟩
  · exact congrArg String.ofList hname
  · exact congrArg String.ofList htable
  · rw [← IndexColumn.map_key_upToLength_eq_iff, ← hkeys]
    rfl

/-- An index on two columns, the first one with a prefix length. -/
def prefixedIndex : IndexText where
  name := ⟨"ix".toList, by decide, rfl⟩
  table := ⟨"t".toList, by decide, rfl⟩
  unique := false
  columns :=
    [⟨⟨"a".toList, by decide, rfl⟩, .bare, some 10, none⟩,
      ⟨⟨"b".toList, by decide, rfl⟩, .bare, none, none⟩]
  columns_ne_nil := List.cons_ne_nil _ _

theorem columns_behind_length_lost :
    String.ofList prefixedIndex.text = "CREATE INDEX ix ON t (a(10), b);" ∧
      prefixedIndex.columns.map IndexColumn.key = ["A", "B"] ∧
      (Source.ofString (String.ofList prefixedIndex.text)).indexes.map Index.columns = [["A"]] := by
  decide +kernel

end SchemaReview
