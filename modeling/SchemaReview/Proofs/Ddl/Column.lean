import SchemaReview.Ddl.Column
import SchemaReview.Proofs.Ddl.ColumnList

/-!
# Proofs.Ddl.Column — column definitions are read as they are written

A definition is written as a name, a blank, a type with up to two sizes, and the rest (`ColumnText`).

* `exists_matchAt_text`: the pattern takes such a text up to the rest and captures its parts.  Each part
  ends where the next one begins, so nothing is ever given back.
* `column_definition_read_back`: the definition is read as it was written, unless the name is a word that
  starts a constraint.  This does not depend on quotes, so a quoted name that is such a word is not read:
  `quoted_starter_refused`.
* `column_key_listed_iff`: a column and a column list that names it have the same key exactly when all
  characters of the name may stand in a list.  Marks may stand in a name, but not in a list:
  `marked_name_cut`.
-/

namespace SchemaReview

open Text

/-- A column definition as it is written. -/
structure ColumnText where
  quoting : Quoting
  name : Text
  name_ne_nil : name ≠ []
  name_all : name.all isWord = true
  type : Text
  type_ne_nil : type ≠ []
  type_all : type.all isWord = true
  /-- The sizes of the type. -/
  sizes : List Nat
  length_sizes : sizes.length ≤ 2
  sizes_lt : ∀ n ∈ sizes, n < Nat.pow 2 64
  /-- What stands behind the type: nothing, or white space and no opening parenthesis. -/
  rest : Text
  rest_head : ∀ x ∈ rest.head?, isBlank x = true
  rest_behind : (rest.dropWhile isBlank).head? ≠ some '('

/-- Sizes in parentheses, with commas between them. -/
def sizesText : List Nat → Text
  | [] => []
  | n :: ns => '(' :: ([','].intercalate ((n :: ns).map decimal) ++ [')'])

theorem getLast?_sizesText (n : Nat) (ns : List Nat) : (sizesText (n :: ns)).getLast? = some ')' := by
  rw [sizesText, ← List.cons_append, List.getLast?_concat]

namespace ColumnText

/-- The definition up to the rest. -/
def declared (c : ColumnText) : Text :=
  c.quoting.around c.name ++ ' ' :: (c.type ++ sizesText c.sizes)

/-- The whole definition. -/
def text (c : ColumnText) : Text := c.declared ++ c.rest

theorem name_word (c : ColumnText) : ∀ x ∈ c.name, isWord x = true := List.all_eq_true.mp c.name_all

theorem type_word (c : ColumnText) : ∀ x ∈ c.type, isWord x = true := List.all_eq_true.mp c.type_all

end ColumnText

/-! ## The pattern on the parts of a definition -/

namespace Pattern

variable {α : Type} {k : Continue α} {g : Captures} {before : Option Char} {offset : Nat} {a : α}
  {t : Text}

/-- The name and the type of a column. -/
def typedName : Pattern :=
  textStart ++ blanks ++ group 1 (opt openingQuote) ++ group 2 wordRun ++ opt closingQuote ++ gap ++
    group 3 wordRun

/-- The sizes of a type. -/
def sizeList : Pattern :=
  blanks ++ char '(' ++ blanks ++ group 4 digits ++
    opt (blanks ++ char ',' ++ blanks ++ group 5 digits) ++ blanks ++ char ')'

theorem run_columnDefinition (c : Cursor) :
    columnDefinition.run c g k = typedName.run c g fun d h => (opt sizeList).run d h k := rfl

theorem run_typedName (c : Cursor) :
    typedName.run c g k = textStart.run c g fun c g => run (.many .blank) c g fun c g =>
      (opt openingQuote).run c g fun d g =>
        run (atLeastOne .word) d ((1, ⟨c.offset, d.offset, c.rest⟩) :: g) fun e g =>
          (opt closingQuote).run e ((2, ⟨d.offset, e.offset, d.rest⟩) :: g) fun e g =>
            gap.run e g fun e g => (group 3 wordRun).run e g k := rfl

/-- A mark that is written is taken, and one that is not is left out. -/
theorem run_opt_oneOf_append {marks : List Char} {w : Text} (hw : w = [] ∨ ∃ x ∈ marks, w = [x])
    (ht : ∀ x ∈ t.head?, x ∉ marks)
    (h : k ⟨w.getLast?.or before, offset + byteSize w, t⟩ g = some a) :
    (opt (oneOf marks)).run ⟨before, offset, w ++ t⟩ g k = some a := by
  rcases hw with rfl | ⟨x, hx, rfl⟩
  · cases t with
    | nil => exact h
    | cons y ys => exact (run_opt_oneOf_of_not_mem (ht y rfl) before offset ys g k).trans h
  · exact run_opt_oneOf_of_mem hx h

/-- White space that is not there is passed over. -/
theorem run_blanks_of_head (ht : ∀ x ∈ t.head?, isBlank x = false)
    (h : k ⟨before, offset, t⟩ g = some a) : blanks.run ⟨before, offset, t⟩ g k = some a :=
  run_many_append .blank (w := []) (by simp) ht (by simpa using h)

/-- A number and what follows it. -/
theorem run_group_digits (i n : Nat) (ht : ∀ x ∈ t.head?, isDigit x = false)
    (h : k ⟨(decimal n).getLast?.or before, offset + byteSize (decimal n), t⟩
      ((i, ⟨offset, offset + byteSize (decimal n), decimal n ++ t⟩) :: g) = some a) :
    (group i digits).run ⟨before, offset, decimal n ++ t⟩ g k = some a := by
  have hdigit : ∀ c ∈ decimal n, CharClass.digit.holds c = true :=
    fun c hc => isDigit_of_isAsciiDigit (isAsciiDigit_of_mem_decimal hc)
  rw [run, digits]
  exact run_atLeastOne_append .digit (decimal_ne_nil n) hdigit ht h

theorem isBlank_head_decimal (n : Nat) (t : Text) : ∀ x ∈ (decimal n ++ t).head?, isBlank x = false := by
  refine forall_mem_head?_append (decimal_ne_nil n) (fun x hx => ?_) t
  exact isBlank_of_isWord (isWord_of_isDigit (isDigit_of_isAsciiDigit (isAsciiDigit_of_mem_decimal hx)))

/-- Where no parenthesis opens, there are no sizes. -/
theorem run_sizeList_eq_none (ht : (t.dropWhile isBlank).head? ≠ some '(') :
    sizeList.run ⟨before, offset, t⟩ g k = none := by
  by_contra hsome
  obtain ⟨a, ha⟩ := Option.ne_none_iff_exists'.mp hsome
  have hrun : (blanks ++ char '(').run ⟨before, offset, t⟩ g (fun d h =>
      (blanks ++ group 4 digits ++ opt (blanks ++ char ',' ++ blanks ++ group 5 digits) ++ blanks ++
        char ')').run d h k) = some a := ha
  obtain ⟨d, h, htakes, -⟩ := exists_of_run hrun
  cases htakes with
  | seq hblanks hchar =>
    cases hblanks with
    | @many _ _ _ _ w hw hall =>
      cases hchar with
      | @one _ _ _ x xs hrest hx =>
        obtain rfl : x = '(' := holds_char_iff.mp hx
        have hsplit : t = w ++ '(' :: xs := by
          rw [← hrest]
          exact hw.rest
        have hblank : ∀ x ∈ w, isBlank x = true := hall
        refine ht ?_
        rw [hsplit, List.dropWhile_append_of_pos hblank]
        rfl

/-- What is remembered of the sizes. -/
def sizeCaptures (offset : Nat) (t : Text) : List Nat → Captures
  | [n] => [(4, ⟨offset + 1, offset + 1 + byteSize (decimal n), decimal n ++ ')' :: t⟩)]
  | [n, m] =>
    let second := offset + 1 + byteSize (decimal n) + 1
    [(5, ⟨second, second + byteSize (decimal m), decimal m ++ ')' :: t⟩),
      (4, ⟨offset + 1, offset + 1 + byteSize (decimal n), decimal n ++ ',' :: (decimal m ++ ')' :: t)⟩)]
  | _ => []

theorem lookup_sizeCaptures {i : Nat} (h₄ : i ≠ 4) (h₅ : i ≠ 5) (offset : Nat) (t : Text)
    (sizes : List Nat) (g : Captures) :
    (sizeCaptures offset t sizes ++ g).lookup i = g.lookup i := by
  have h₄' : (i == 4) = false := by simpa using h₄
  have h₅' : (i == 5) = false := by simpa using h₅
  unfold sizeCaptures
  split <;> simp [List.lookup_cons, h₄', h₅']

theorem run_sizeList (c : Cursor) :
    sizeList.run c g k = blanks.run c g fun c g => (char '(').run c g fun c g =>
      blanks.run c g fun c g => (group 4 digits).run c g fun c g =>
        (opt (blanks ++ char ',' ++ blanks ++ group 5 digits)).run c g fun c g =>
          (blanks ++ char ')').run c g k := rfl

theorem run_closing (h : k ⟨some ')', offset + 1, t⟩ g = some a) :
    (blanks ++ char ')').run ⟨before, offset, ')' :: t⟩ g k = some a := by
  rw [run_append]
  refine run_blanks_of_head (forall_mem_head?_cons (by rfl) _) ?_
  rw [run_char]
  exact h

/-- The first size, up to what follows it. -/
theorem run_sizeList_first (n : Nat) (ht : ∀ x ∈ t.head?, isDigit x = false)
    (h : (opt (blanks ++ char ',' ++ blanks ++ group 5 digits)).run
      ⟨(decimal n).getLast?.or (some '('), offset + 1 + byteSize (decimal n), t⟩
      ((4, ⟨offset + 1, offset + 1 + byteSize (decimal n), decimal n ++ t⟩) :: g)
      (fun c g => (blanks ++ char ')').run c g k) = some a) :
    sizeList.run ⟨before, offset, '(' :: (decimal n ++ t)⟩ g k = some a := by
  rw [run_sizeList]
  refine run_blanks_of_head (forall_mem_head?_cons (by rfl) _) ?_
  rw [run_char]
  refine run_blanks_of_head (isBlank_head_decimal n t) ?_
  exact run_group_digits 4 n ht h

/-- Up to two sizes are taken and remembered. -/
theorem run_opt_sizeList {sizes : List Nat} (hlength : sizes.length ≤ 2)
    (ht : (t.dropWhile isBlank).head? ≠ some '(')
    (h : k ⟨(sizesText sizes).getLast?.or before, offset + byteSize (sizesText sizes), t⟩
      (sizeCaptures offset t sizes ++ g) = some a) :
    (opt sizeList).run ⟨before, offset, sizesText sizes ++ t⟩ g k = some a := by
  match sizes with
  | [] =>
    rw [sizesText, List.nil_append, run_opt_of_eq_none (run_sizeList_eq_none ht)]
    exact h
  | [n] =>
    have htext : sizesText [n] = '(' :: (decimal n ++ [')']) := by simp [sizesText]
    have hsize : offset + byteSize (sizesText [n]) = offset + 1 + byteSize (decimal n) + 1 := by
      have hclose : byteSize [')'] = 1 := rfl
      have hopen : '('.utf8Size = 1 := rfl
      rw [htext, byteSize_cons, byteSize_append, hopen, hclose]
      omega
    rw [getLast?_sizesText, Option.some_or, hsize] at h
    rw [htext, List.cons_append, List.append_assoc]
    refine run_opt_of_eq_some (run_sizeList_first n (forall_mem_head?_cons (by rfl) _) ?_)
    -- the parenthesis is no comma, so there is no second size
    rw [run_opt_of_eq_none]
    · exact run_closing h
    · rfl
  | [n, m] =>
    have htext : sizesText [n, m] = '(' :: (decimal n ++ ',' :: (decimal m ++ [')'])) := by
      simp [sizesText]
    have hsize : offset + byteSize (sizesText [n, m]) =
        offset + 1 + byteSize (decimal n) + 1 + byteSize (decimal m) + 1 := by
      have hclose : byteSize [')'] = 1 := rfl
      have hopen : '('.utf8Size = 1 := rfl
      have hcomma : ','.utf8Size = 1 := rfl
      rw [htext, byteSize_cons, byteSize_append, byteSize_cons, byteSize_append, hopen, hcomma, hclose]
      omega
    rw [getLast?_sizesText, Option.some_or, hsize] at h
    rw [htext, List.cons_append, List.append_assoc, List.cons_append, List.append_assoc]
    refine run_opt_of_eq_some (run_sizeList_first n (forall_mem_head?_cons (by rfl) _) (run_opt_of_eq_some ?_))
    rw [run_append, run_append, run_append]
    refine run_blanks_of_head (forall_mem_head?_cons (by rfl) _) ?_
    rw [run_char]
    refine run_blanks_of_head (isBlank_head_decimal m _) (run_group_digits 5 m (forall_mem_head?_cons (by rfl) _) ?_)
    exact run_closing h
  | _ :: _ :: _ :: _ => simp at hlength

end Pattern

/-- The sizes are read from what is remembered of them. -/
theorem Column.sizesOf_eq {m : Match} {offset : Nat} {t : Text} {sizes : List Nat} {g : Captures}
    (hm : m.captures = Pattern.sizeCaptures offset t sizes ++ g) (hlength : sizes.length ≤ 2)
    (hlt : ∀ n ∈ sizes, n < Nat.pow 2 64) (h₄ : g.lookup 4 = none) (h₅ : g.lookup 5 = none) :
    Column.sizesOf m = sizes := by
  have hread : ∀ n ∈ sizes, natBelow? (Nat.pow 2 64) (decimal n) = some n :=
    fun n hn => natBelow?_decimal (hlt n hn)
  unfold Column.sizesOf Match.group?
  rw [hm]
  match sizes with
  | [] => simp [Pattern.sizeCaptures, h₄, h₅]
  | [n] =>
    have hn := hread n (by simp)
    simp only [Pattern.sizeCaptures, List.cons_append, List.nil_append, List.lookup_cons]
    simp [h₅, Capture.text_of_append, hn]
  | [n, k] =>
    have hn := hread n (by simp)
    have hk := hread k (by simp)
    simp only [Pattern.sizeCaptures, List.cons_append, List.nil_append, List.lookup_cons]
    simp [Capture.text_of_append, hn, hk]
  | _ :: _ :: _ :: _ => simp at hlength

namespace ColumnText

variable (c : ColumnText)

/-- Byte offset of the type. -/
def typeOffset : Nat := byteSize (c.quoting.around c.name) + 1

/-- What is remembered of the name and the type, where `t` follows them. -/
def captures (t : Text) : Captures :=
  [(3, ⟨c.typeOffset, c.typeOffset + byteSize c.type, c.type ++ t⟩),
    (2, ⟨byteSize c.quoting.opening, byteSize c.quoting.opening + byteSize c.name,
      c.name ++ (c.quoting.closing ++ ' ' :: (c.type ++ t))⟩),
    (1, ⟨0, byteSize c.quoting.opening,
      c.quoting.opening ++ (c.name ++ (c.quoting.closing ++ ' ' :: (c.type ++ t)))⟩)]

/-- The name and the type are taken and remembered. -/
theorem run_typedName {α : Type} {k : Pattern.Continue α} {a : α} {t : Text}
    (ht : ∀ x ∈ t.head?, isWord x = false)
    (h : k ⟨c.type.getLast?.or (some ' '), c.typeOffset + byteSize c.type, t⟩ (c.captures t) = some a) :
    Pattern.typedName.run
      ⟨none, 0, c.quoting.opening ++ (c.name ++ (c.quoting.closing ++ ' ' :: (c.type ++ t)))⟩ [] k =
        some a := by
  set behind := c.quoting.closing ++ ' ' :: (c.type ++ t) with hbehind
  have hname : ∀ x ∈ (c.name ++ behind).head?, isWord x = true :=
    forall_mem_head?_append c.name_ne_nil c.name_word _
  have htype : ∀ x ∈ (c.type ++ t).head?, isBlank x = false :=
    forall_mem_head?_append c.type_ne_nil (fun x hx => isBlank_of_isWord (c.type_word x hx)) _
  have hopening : ∀ x ∈ (c.quoting.opening ++ (c.name ++ behind)).head?, isBlank x = false := by
    refine forall_mem_head?_append_of_head (fun x hx => ?_) fun x hx => isBlank_of_isWord (hname x hx)
    exact isBlank_of_isListMark (Quoting.isListMark_of_mem_opening hx)
  have hclosing : ∀ x ∈ behind.head?, isWord x = false := by
    refine forall_mem_head?_append_of_head (fun x hx => ?_) (forall_mem_head?_cons (by rfl) _)
    simpa using Quoting.holds_of_mem (p := fun x => !isWord x) rfl (Or.inr hx)
  rw [Pattern.run_typedName, Pattern.run, if_pos (by rfl)]
  refine Pattern.run_blanks_of_head hopening ?_
  refine Pattern.run_opt_oneOf_append c.quoting.opening_eq (fun x hx => not_mem_of_isWord rfl (hname x hx)) ?_
  refine Pattern.run_atLeastOne_append .word c.name_ne_nil c.name_word hclosing ?_
  refine Pattern.run_opt_oneOf_append c.quoting.closing_eq (forall_mem_head?_cons (by decide) _) ?_
  refine Pattern.run_atLeastOne_append .blank (w := [' ']) (by simp) (List.all_eq_true.mp rfl) htype ?_
  rw [Pattern.run]
  refine Pattern.run_atLeastOne_append .word c.type_ne_nil c.type_word ht ?_
  have hoffset : 0 + byteSize c.quoting.opening + byteSize c.name + byteSize c.quoting.closing +
      byteSize [' '] = c.typeOffset := by
    have hblank : byteSize [' '] = 1 := rfl
    rw [typeOffset, Quoting.around, byteSize_append, byteSize_append, hblank]
    omega
  rw [hoffset, Nat.zero_add]
  exact h

theorem isWord_head_sizes : ∀ x ∈ (sizesText c.sizes ++ c.rest).head?, isWord x = false := by
  cases c.sizes with
  | nil => exact fun x hx => isWord_of_isBlank (c.rest_head x hx)
  | cons n ns => exact forall_mem_head?_cons (by rfl) _

/-- The parts of a definition are captured. -/
theorem exists_matchAt_text :
    ∃ m, Pattern.columnDefinition.matchAt (Cursor.atStart c.text) = some m ∧
      m.groupText 1 = c.quoting.opening ∧ m.groupText 2 = c.name ∧ m.groupText 3 = c.type ∧
      Column.sizesOf m = c.sizes ∧ m.stop.rest = c.rest ∧ m.stop.offset = byteSize c.declared := by
  have htext : c.text = c.quoting.opening ++ (c.name ++ (c.quoting.closing ++
      ' ' :: (c.type ++ (sizesText c.sizes ++ c.rest)))) := by
    simp [text, declared, Quoting.around]
  have hsize : c.typeOffset + byteSize c.type + byteSize (sizesText c.sizes) = byteSize c.declared := by
    have hblank : ' '.utf8Size = 1 := rfl
    rw [typeOffset, declared, byteSize_append, byteSize_cons, byteSize_append, hblank]
    omega
  set start := c.typeOffset + byteSize c.type with hstart
  set last := (sizesText c.sizes).getLast?.or (c.type.getLast?.or (some ' ')) with hlast
  set m : Match := ⟨Cursor.atStart c.text, ⟨last, byteSize c.declared, c.rest⟩,
    Pattern.sizeCaptures start c.rest c.sizes ++ c.captures (sizesText c.sizes ++ c.rest)⟩ with hm
  have hmatch : Pattern.columnDefinition.matchAt (Cursor.atStart c.text) = some m := by
    rw [Pattern.matchAt, Pattern.run_columnDefinition, htext]
    refine c.run_typedName c.isWord_head_sizes (Pattern.run_opt_sizeList c.length_sizes c.rest_behind ?_)
    rw [← hstart, ← hlast, hsize, ← htext]
  have hgroup : ∀ i, i ≠ 4 → i ≠ 5 → m.group? i = (c.captures (sizesText c.sizes ++ c.rest)).lookup i :=
    fun i h₄ h₅ => Pattern.lookup_sizeCaptures h₄ h₅ start c.rest c.sizes _
  refine ⟨m, hmatch, ?_, ?_, ?_, ?_, rfl, rfl⟩
  · have hopening : m.group? 1 = some ⟨0, 0 + byteSize c.quoting.opening, c.quoting.opening ++
        (c.name ++ (c.quoting.closing ++ ' ' :: (c.type ++ (sizesText c.sizes ++ c.rest))))⟩ := by
      rw [hgroup 1 (by decide) (by decide), Nat.zero_add]
      rfl
    exact Match.groupText_of_append hopening
  · exact Match.groupText_of_append (hgroup 2 (by decide) (by decide))
  · exact Match.groupText_of_append (hgroup 3 (by decide) (by decide))
  · exact Column.sizesOf_eq rfl c.length_sizes c.sizes_lt rfl rfl

end ColumnText

/-! ## What is read -/

theorem Column.ofText?_of_matchAt {t : Text} {m : Match}
    (h : Pattern.columnDefinition.matchAt (Cursor.atStart t) = some m) :
    Column.ofText? t = if isConstraintStarter (m.groupText 2) then none else some
      { name := m.groupString 2
        quoted := !(m.groupText 1).isEmpty
        type := ⟨m.groupString 3, Column.sizesOf m⟩
        rest := m.stop.rest
        restOffset := m.stop.offset } := by
  rw [ofText?, h]
  rfl

theorem Quoting.isEmpty_opening (q : Quoting) : q.opening.isEmpty = decide (q = .bare) := by
  cases q <;> rfl

/-- **A column definition is read as it is written**, unless its name is a word that starts a constraint,
in quotes or not. -/
theorem column_definition_read_back (c : ColumnText) :
    Column.ofText? c.text = if isConstraintStarter c.name then none else some
      { name := String.ofList c.name
        quoted := decide (c.quoting ≠ .bare)
        type := ⟨String.ofList c.type, c.sizes⟩
        rest := c.rest
        restOffset := byteSize c.declared } := by
  obtain ⟨m, hm, hopening, hname, htype, hsizes, hrest, hoffset⟩ := c.exists_matchAt_text
  rw [Column.ofText?_of_matchAt hm, Match.groupString, Match.groupString, hopening, hname, htype, hsizes,
    hrest, hoffset, Quoting.isEmpty_opening, ← decide_not]

/-- A column whose quoted name is a word that starts a constraint. -/
def quotedKey : ColumnText where
  quoting := .double
  name := "key".toList
  name_ne_nil := by decide
  name_all := by decide
  type := "INT".toList
  type_ne_nil := by decide
  type_all := by decide
  sizes := []
  length_sizes := by decide
  sizes_lt := by decide
  rest := []
  rest_head := by simp
  rest_behind := by simp

theorem quoted_starter_refused :
    quotedKey.quoting ≠ .bare ∧ quotedKey.text = "\"key\" INT".toList ∧
      Column.ofText? quotedKey.text = none := by
  decide +kernel

/-! ## Columns and column lists -/

/-- A word as the name of a column without sizes and qualifiers. -/
def ColumnText.ofWord {w : Text} (hne : w ≠ []) (hw : ∀ x ∈ w, isWord x = true) : ColumnText where
  quoting := .bare
  name := w
  name_ne_nil := hne
  name_all := List.all_eq_true.mpr hw
  type := "INT".toList
  type_ne_nil := by decide
  type_all := by decide
  sizes := []
  length_sizes := by decide
  sizes_lt := by decide
  rest := []
  rest_head := by simp
  rest_behind := by simp

theorem ColumnText.text_ofWord {w : Text} (hne : w ≠ []) (hw : ∀ x ∈ w, isWord x = true) :
    (ofWord hne hw).text = w ++ " INT".toList := by
  simp [text, declared, Quoting.around, ofWord, Quoting.opening, Quoting.closing, sizesText]

/-- **A column and a list that names it have the same key** exactly when all characters of the name may
stand in a list. -/
theorem column_key_listed_iff {w : Text} (hne : w ≠ []) (hw : ∀ x ∈ w, isWord x = true)
    (hstarter : isConstraintStarter w = false) :
    ∃ c, Column.ofText? (w ++ " INT".toList) = some c ∧ c.key = nameKey (String.ofList w) ∧
      (columnKeys w = [c.key] ↔ ∀ x ∈ w, isListed x = true) := by
  obtain ⟨m, hm, -, hname, -⟩ := (ColumnText.ofWord hne hw).exists_matchAt_text
  replace hname : m.groupText 2 = w := hname
  rw [ColumnText.text_ofWord] at hm
  have hread := Column.ofText?_of_matchAt hm
  rw [hname, if_neg (by simp [hstarter])] at hread
  have hkey : nameKey (m.groupString 2) = nameKey (String.ofList w) := by
    rw [Match.groupString, hname]
  refine ⟨_, hread, hkey, ?_⟩
  show columnKeys w = [nameKey (m.groupString 2)] ↔ _
  rw [hkey]
  exact columnKeys_word_iff hne hw

theorem column_key_listed_sharpS :
    ∃ c, Column.ofText? "stra\u00dfe_2 INT".toList = some c ∧ c.key = "STRASSE_2" ∧
      columnKeys "stra\u00dfe_2".toList = [c.key] := by
  have hw : ∀ x ∈ "stra\u00dfe_2".toList, isWord x = true :=
    List.all_eq_true.mp (by decide +kernel)
  have hall : ∀ x ∈ "stra\u00dfe_2".toList, isListed x = true :=
    List.all_eq_true.mp (by decide +kernel)
  obtain ⟨c, hread, hkey, hlisted⟩ := column_key_listed_iff (w := "stra\u00dfe_2".toList) (by decide) hw
    (by decide +kernel)
  exact ⟨c, hread, hkey.trans (by decide +kernel), hlisted.mpr hall⟩

/-- A mark is a character of a word, but not of a listed name. -/
theorem marked_name_cut :
    (∀ x ∈ "cafe\u0301".toList, isWord x = true) ∧ isConstraintStarter "cafe\u0301".toList = false ∧
      (Column.ofText? "cafe\u0301 INT".toList).map Column.key = some "CAFE\u0301" ∧
      columnKeys "cafe\u0301".toList = ["CAFE"] :=
  ⟨List.all_eq_true.mp (by decide +kernel), by decide +kernel⟩

end SchemaReview
