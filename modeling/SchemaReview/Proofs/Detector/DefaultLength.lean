import SchemaReview.Detector.Run
import SchemaReview.Proofs.Ddl.Column
import SchemaReview.Proofs.Scope.Literal

/-!
# Proofs.Detector.DefaultLength — the length check of a default value, from the script to the finding

A script declares one column of a character type with a size and a literal as its default value (`lengthScript`).
Masking, the scan, the pattern of a column definition, the pattern of a default value and the reading of the literal
all follow its quotes.  Each of them passes the literal whole whatever it says, so the detector compares the size
with the length of the text that was written: `default_length_check`.

* `lengthColumn`: the column as it is written.  `items_lengthScript`: it is the only item of the script.
* `ofText?_lengthColumn`: it is read with its type and size, and with the literal as its default value.
* `kind_defaultMisfit?_literal`: what the detector says of a literal.
-/

namespace SchemaReview

open Text

/-! ## The script -/

/-- The definition of the column up to its default value. -/
def columnLead (n : Nat) : Text := "c VARCHAR(".toList ++ (decimal n ++ ") DEFAULT ".toList)

/-- A script that declares a column of size `n` with the literal for `v` as its default value. -/
def lengthScript (n : Nat) (v : Text) : Text := tableScript "t".toList (columnLead n ++ quotedLiteral v)

/-- The column as it is written. -/
def lengthColumn {n : Nat} (hn : n < Nat.pow 2 64) (v : Text) : ColumnText where
  quoting := .bare
  name := "c".toList
  name_ne_nil := by decide
  name_all := by decide
  type := "VARCHAR".toList
  type_ne_nil := by decide
  type_all := by decide
  sizes := [n]
  length_sizes := by simp
  sizes_lt := by simpa using hn
  rest := " DEFAULT ".toList ++ quotedLiteral v
  rest_head := forall_mem_head?_cons (by rfl) _
  rest_behind := by
    have hdrop : (" DEFAULT ".toList ++ quotedLiteral v).dropWhile isBlank = "DEFAULT ".toList ++ quotedLiteral v := rfl
    rw [hdrop]
    show some 'D' ≠ some '('
    decide

theorem text_lengthColumn {n : Nat} (hn : n < Nat.pow 2 64) (v : Text) :
    (lengthColumn hn v).text = columnLead n ++ quotedLiteral v := by
  have hquoting : (lengthColumn hn v).quoting = .bare := rfl
  have hname : (lengthColumn hn v).name = "c".toList := rfl
  have htype : (lengthColumn hn v).type = "VARCHAR".toList := rfl
  have hsizes : (lengthColumn hn v).sizes = [n] := rfl
  have hrest : (lengthColumn hn v).rest = " DEFAULT ".toList ++ quotedLiteral v := rfl
  have hwritten : sizesText [n] = '(' :: (decimal n ++ [')']) := by simp [sizesText]
  have hlead : "c VARCHAR(".toList = "c".toList ++ ' ' :: ("VARCHAR".toList ++ ['(']) := by decide
  have hbehind : ") DEFAULT ".toList = ')' :: " DEFAULT ".toList := by decide
  rw [ColumnText.text, ColumnText.declared, hquoting, hname, htype, hsizes, hwritten, hrest]
  show _ = "c VARCHAR(".toList ++ (decimal n ++ ") DEFAULT ".toList) ++ quotedLiteral v
  rw [hlead, hbehind]
  generalize "c".toList = name, "VARCHAR".toList = type, " DEFAULT ".toList = word
  simp [Quoting.around, Quoting.opening, Quoting.closing]

/-- What holds of the letters and marks of the lead and of the digits holds of its characters. -/
theorem forall_mem_columnLead {p : Char → Prop} [DecidablePred p]
    (hp : "c VARCHAR(0123456789) DEFAULT ".toList.all (fun c => p c) = true) (n : Nat) : ∀ c ∈ columnLead n, p c := by
  have hsplit : "c VARCHAR(0123456789) DEFAULT ".toList =
      "c VARCHAR(".toList ++ ("0123456789".toList ++ ") DEFAULT ".toList) := by decide
  rw [hsplit, List.all_append, List.all_append, Bool.and_eq_true, Bool.and_eq_true] at hp
  obtain ⟨hlead, hdigit, hbehind⟩ := hp
  exact List.forall_mem_append.mpr ⟨List.all_iff_forall_prop.mp hlead,
    List.forall_mem_append.mpr ⟨forall_mem_decimal hdigit n, List.all_iff_forall_prop.mp hbehind⟩⟩

theorem balanced_columnLead (n : Nat) : Balanced false (columnLead n) := by
  have hinner : Balanced true (decimal n ++ []) := .plain_append (forall_mem_decimal (by decide) n) .nil
  have hrest : Balanced false (" DEFAULT ".toList ++ []) := .plain_append (List.all_iff_forall_prop.mp (by decide)) .nil
  have hall : Balanced false ("c VARCHAR".toList ++ _) :=
    .plain_append (List.all_iff_forall_prop.mp (by decide)) (.paren hinner hrest)
  rw [List.append_nil] at hall
  exact hall

/-- The only letter that could begin a header is followed by none that goes on with it. -/
theorem headerless_columnLead (n : Nat) (after : Text) (before : Option Char) (offset : Nat) :
    Headerless after before offset (columnLead n) := by
  have hword : Headerless ('C' :: ("HAR(".toList ++ (decimal n ++ ") DEFAULT ".toList)) ++ after) (some 'c')
      (offset + 1) " VAR".toList := .of_not_holds (List.all_iff_forall_prop.mp (by decide)) _ _ _
  have hrest : ∀ before o, Headerless after before o ("HAR(".toList ++ (decimal n ++ ") DEFAULT ".toList)) :=
    fun before o => .of_not_holds (List.forall_mem_append.mpr ⟨List.all_iff_forall_prop.mp (by decide),
      List.forall_mem_append.mpr ⟨forall_mem_decimal (by decide) n, List.all_iff_forall_prop.mp (by decide)⟩⟩) _ _ _
  exact ⟨TableHeader.at?_eq_none_of_next rfl _ _ _ _,
    hword.append ⟨TableHeader.at?_eq_none_of_next rfl _ _ _ _, hrest _ _⟩⟩

theorem trimmed_column (n : Nat) (v : Text) : Trimmed (columnLead n ++ quotedLiteral v) := by
  constructor
  · exact forall_mem_head?_cons (by rfl) _
  · intro c hc
    have hlast : (columnLead n ++ quotedLiteral v).getLast? = some '\x27' := by
      rw [quotedLiteral, ← List.cons_append, ← List.append_assoc, List.getLast?_concat]
    rw [hlast] at hc
    obtain rfl : '\x27' = c := Option.some.inj hc
    rfl

/-! ## From the script to the column -/

theorem text_lengthScript (n : Nat) (v : Text) : (Source.ofText (lengthScript n v)).text = lengthScript n v :=
  maskComments_tableScript (List.all_iff_forall_prop.mp (by decide)) (forall_mem_columnLead (by decide) n) v

/-- The column is the only item of the script. -/
theorem items_lengthScript (n : Nat) (v : Text) : ∃ table line offset,
    (Source.ofText (lengthScript n v)).items = [⟨table, ⟨line, offset, columnLead n ++ quotedLiteral v⟩⟩] := by
  have hback : '\x60' ∉ columnLead n := by
    have hall := forall_mem_columnLead (p := (· ≠ '\x60')) (by decide) n
    exact fun hmem => hall _ hmem rfl
  exact ⟨_, _, _, items_tableScript (by decide) (List.all_iff_forall_prop.mp (by decide)) (balanced_columnLead n) hback
    (headerless_columnLead n) (trimmed_column n v) (text_lengthScript n v)⟩

/-- The column is read with its type and size, and with the literal as its default value. -/
theorem ofText?_lengthColumn {n : Nat} (hn : n < Nat.pow 2 64) (v : Text) : ∃ c : Column,
    Column.ofText? (columnLead n ++ quotedLiteral v) = some c ∧ c.type = ⟨"VARCHAR", [n]⟩ ∧
      c.default? = some (quotedLiteral v) := by
  obtain ⟨m, hm, -, hname, htype, hsizes, hrest, -⟩ := (lengthColumn hn v).exists_matchAt_text
  rw [text_lengthColumn] at hm
  replace hname : m.groupText 2 = "c".toList := hname
  replace htype : m.groupText 3 = "VARCHAR".toList := htype
  replace hsizes : Column.sizesOf m = [n] := hsizes
  replace hrest : m.stop.rest = " DEFAULT ".toList ++ quotedLiteral v := hrest
  have hread := Column.ofText?_of_matchAt hm
  rw [hname, if_neg (show ¬ isConstraintStarter "c".toList = true by decide)] at hread
  refine ⟨_, hread, ?type, ?value⟩
  case type =>
    dsimp only
    rw [hsizes, Match.groupString, htype, String.ofList_toList]
  case value =>
    rw [Column.default?, hrest, Pattern.search_defaultValue, Option.map_some, Pattern.groupText_defaultMatch]

/-- It is the only column of the script. -/
theorem columns_lengthScript {n : Nat} (hn : n < Nat.pow 2 64) (v : Text) : ∃ c : DeclaredColumn,
    (Source.ofText (lengthScript n v)).columns = [c] ∧ c.column.type = ⟨"VARCHAR", [n]⟩ ∧
      c.column.default? = some (quotedLiteral v) := by
  obtain ⟨table, line, offset, hitems⟩ := items_lengthScript n v
  obtain ⟨column, hread, htype, hvalue⟩ := ofText?_lengthColumn hn v
  refine ⟨⟨table, ⟨line, offset, columnLead n ++ quotedLiteral v⟩, column⟩, ?_, htype, hvalue⟩
  have hcolumn : TableItem.column? ⟨table, ⟨line, offset, columnLead n ++ quotedLiteral v⟩⟩ =
      some ⟨table, ⟨line, offset, columnLead n ++ quotedLiteral v⟩, column⟩ := by rw [TableItem.column?, hread]; rfl
  rw [Source.columns, hitems, List.filterMap_cons_some hcolumn, List.filterMap_nil]

/-! ## What the detector says -/

/-- A literal for a character type is too long, or nothing is wrong with it. -/
theorem kind_defaultMisfit?_literal (n : Nat) (v : Text) :
    (defaultMisfit? ⟨"VARCHAR", [n]⟩ (quotedLiteral v)).map (·.1) =
      if n < v.length then some .textDefaultTooLong else none := by
  have hname : lowerString "VARCHAR" ∈ textTypeNames := by decide
  have hfamily : DeclaredType.family ⟨"VARCHAR", [n]⟩ = .text := if_pos hname
  have hlength : DeclaredType.length? ⟨"VARCHAR", [n]⟩ = some n := rfl
  unfold defaultMisfit?
  simp only [hfamily, hlength, isQuotedLiteral_quotedLiteral, unquote_quotedLiteral, Bool.not_true,
    Bool.false_eq_true, if_false]
  split <;> rfl

/-- The finding for a column has the kind of what is wrong with its default value. -/
theorem kind_defaultConflict? (s : Source) {c : DeclaredColumn} {raw : Text} (hraw : c.column.default? = some raw)
    (hnull : isNullWord raw = false) :
    (defaultConflict? s c).map Finding.kind = (defaultMisfit? c.column.type raw).map (·.1) := by
  rw [defaultConflict?, hraw, Option.bind_eq_bind, Option.bind_some, hnull, if_neg Bool.false_ne_true]
  cases defaultMisfit? c.column.type raw <;> rfl

/-- **The size of a column is compared with the text that was written**, whatever it says: one finding when the
text is longer, and none otherwise.  The literal is classified as that text, too. -/
theorem default_length_check {n : Nat} (hn : n < Nat.pow 2 64) (v : String) :
    (Detector.defaultValueConflict.run (String.ofList (lengthScript n v.toList))).map Finding.kind =
        (if n < v.length then [.textDefaultTooLong] else []) ∧
      DefaultValue.ofText (quotedLiteral v.toList) = .literal v := by
  constructor
  · obtain ⟨c, hcolumns, htype, hvalue⟩ := columns_lengthScript hn v.toList
    have hkind := kind_defaultConflict? (Source.ofText (lengthScript n v.toList)) hvalue (isNullWord_quotedLiteral _)
    rw [htype, kind_defaultMisfit?_literal, String.length_toList] at hkind
    have hrun : Detector.defaultValueConflict.run (String.ofList (lengthScript n v.toList)) =
        defaultConflicts (Source.ofText (lengthScript n v.toList)) := by
      rw [Detector.run, Source.ofString, String.toList_ofList]
      rfl
    rw [hrun, defaultConflicts, hcolumns, List.map_filterMap, List.filterMap_cons, hkind]
    by_cases hlong : n < v.length
    · rw [if_pos hlong, if_pos hlong, List.filterMap_nil]
    · rw [if_neg hlong, if_neg hlong, List.filterMap_nil]
  · rw [defaultValue_quotedLiteral, String.ofList_toList]

theorem default_length_check_table_in_value :
    20 < Nat.pow 2 64 ∧
      (Detector.defaultValueConflict.run
          "CREATE TABLE t (c VARCHAR(20) DEFAULT 'it''s -- '');\nCREATE TABLE u (')").map Finding.kind =
        [.textDefaultTooLong] ∧
      DefaultValue.ofText "'it''s -- '');\nCREATE TABLE u ('".toList = .literal "it's -- ');\nCREATE TABLE u (" := by
  have hn : 20 < Nat.pow 2 64 := by decide
  have hscript : String.ofList (lengthScript 20 "it's -- ');\nCREATE TABLE u (".toList) =
      "CREATE TABLE t (c VARCHAR(20) DEFAULT 'it''s -- '');\nCREATE TABLE u (')" := by decide +kernel
  have hliteral : quotedLiteral "it's -- ');\nCREATE TABLE u (".toList =
      "'it''s -- '');\nCREATE TABLE u ('".toList := by decide +kernel
  have hlong : 20 < "it's -- ');\nCREATE TABLE u (".length := by decide +kernel
  have hfound := default_length_check hn "it's -- ');\nCREATE TABLE u ("
  rw [hscript, hliteral, if_pos hlong] at hfound
  exact ⟨hn, hfound⟩

end SchemaReview
