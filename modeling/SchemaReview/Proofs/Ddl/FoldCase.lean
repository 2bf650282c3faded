import SchemaReview.Ddl.Alteration
import SchemaReview.Ddl.Check
import SchemaReview.Ddl.Column
import SchemaReview.Ddl.DefaultValue
import SchemaReview.Ddl.Index
import SchemaReview.Ddl.TableConstraint
import SchemaReview.Proofs.Pattern.FoldCase
import SchemaReview.Proofs.Source.FoldCase

/-!
# Proofs.Ddl.FoldCase — what is read from a folded text

Every pattern is caseless.  So each reader finds the same things in a folded text: keys, sizes and
offsets are the same, and names and texts are folded.
-/

namespace SchemaReview

open Text

/-! ## Names -/

@[simp] theorem nameKey_foldString (name : String) : nameKey (foldString name) = nameKey name :=
  upperString_foldString name

theorem listedName_foldCase (entry : Text) :
    listedName entry.foldCase = (listedName entry).foldCase := by
  have hquote : ∀ c : Char, (c.toLower == '"' || c.toLower == '\x60' || c.toLower == '[') =
      (c == '"' || c == '\x60' || c == '[') :=
    apply_toLower (fun c => c == '"' || c == '\x60' || c == '[') (by decide)
  have hname : ∀ c : Char, (isAlphanumeric c.toLower || c.toLower == '_') =
      (isAlphanumeric c || c == '_') :=
    apply_toLower (fun c => isAlphanumeric c || c == '_') (by decide)
  rw [listedName, dropWhile_foldCase hquote, takeWhile_foldCase hname]
  rfl

theorem columnKey?_foldCase (entry : Text) : columnKey? entry.foldCase = columnKey? entry := by
  unfold columnKey?
  rw [words_foldCase]
  cases entry.words with
  | nil => rfl
  | cons token tokens =>
    simp only [List.map_cons, listedName_foldCase, isEmpty_foldCase, ofList_foldCase,
      nameKey_foldString]

@[simp] theorem columnKeys_foldCase (list : Text) : columnKeys list.foldCase = columnKeys list := by
  have hentry : columnKey? ∘ foldCase = columnKey? := funext columnKey?_foldCase
  rw [columnKeys, splitOn_foldCase (by decide), List.filterMap_map, hentry]
  rfl

/-! ## Table headers and altered tables -/

/-- The header with its name folded. -/
def TableHeader.foldCase (h : TableHeader) : TableHeader := { h with name := foldString h.name }

theorem TableHeader.ofMatch_foldCase (m : Match) :
    TableHeader.ofMatch m.foldCase = (TableHeader.ofMatch m).foldCase := by
  simp [ofMatch, foldCase]

theorem TableHeader.at?_foldCase (c : Cursor) :
    TableHeader.at? c.foldCase = (TableHeader.at? c).map TableHeader.foldCase := by
  rw [at?, Pattern.matchAt_foldCase (by decide), at?, Option.map_map, Option.map_map]
  congr 1
  funext m
  exact ofMatch_foldCase m

theorem TableHeader.find?_foldCase (t : Text) (n : Nat) :
    TableHeader.find? t.foldCase n = (TableHeader.find? t n).map TableHeader.foldCase := by
  rw [find?, Pattern.searchAt_foldCase (by decide), find?, Option.map_map, Option.map_map]
  congr 1
  funext m
  exact ofMatch_foldCase m

theorem alteredTable?_foldCase (t : Text) :
    alteredTable? t.foldCase = (alteredTable? t).map foldString := by
  rw [alteredTable?, Pattern.search_foldCase (by decide), alteredTable?, Option.map_map,
    Option.map_map]
  congr 1
  funext m
  exact m.groupString_foldCase 1

/-! ## Constraints -/

@[simp] theorem mentionsConstraint_foldCase (t : Text) :
    mentionsConstraint t.foldCase = mentionsConstraint t :=
  Pattern.occursIn_foldCase (by decide) t

@[simp] theorem primaryKeyColumns?_foldCase (t : Text) :
    primaryKeyColumns? t.foldCase = primaryKeyColumns? t := by
  rw [primaryKeyColumns?, Pattern.search_foldCase (by decide), primaryKeyColumns?, Option.map_map]
  congr 1
  funext m
  simp

@[simp] theorem uniqueColumnLists_foldCase (t : Text) :
    uniqueColumnLists t.foldCase = uniqueColumnLists t := by
  rw [uniqueColumnLists, Pattern.findAll_foldCase (by decide), uniqueColumnLists, List.map_map]
  congr 2
  funext m
  simp

/-! ## Foreign keys -/

@[simp] theorem beginsWithCascade_foldCase (t : Text) :
    beginsWithCascade t.foldCase = beginsWithCascade t := by
  rw [beginsWithCascade, Pattern.matchAt_atStart_foldCase (by decide), Option.isSome_map]
  rfl

/-- The foreign key with the name of its target folded. -/
def ForeignKey.foldCase (fk : ForeignKey) : ForeignKey := { fk with table := foldString fk.table }

@[simp] theorem ForeignKey.tableKey_foldCase (fk : ForeignKey) : fk.foldCase.tableKey = fk.tableKey :=
  nameKey_foldString fk.table

theorem ForeignKey.ofMatch_foldCase (m : Match) :
    ForeignKey.ofMatch m.foldCase = (ForeignKey.ofMatch m).foldCase := by
  simp [ofMatch, foldCase]

theorem foreignKeys_foldCase (t : Text) :
    foreignKeys t.foldCase = (foreignKeys t).map ForeignKey.foldCase := by
  rw [foreignKeys, Pattern.findAll_foldCase (by decide), foreignKeys, List.map_map, List.map_map]
  congr 1
  funext m
  exact ForeignKey.ofMatch_foldCase m

/-- The clause with the name of its target folded. -/
def Reference.foldCase (r : Reference) : Reference := { r with table := foldString r.table }

theorem Reference.ofMatch_foldCase (m : Match) :
    Reference.ofMatch m.foldCase = (Reference.ofMatch m).foldCase := by
  simp [ofMatch, foldCase]

theorem references_foldCase (t : Text) :
    references t.foldCase = (references t).map Reference.foldCase := by
  rw [references, Pattern.findAll_foldCase (by decide), references, List.map_map, List.map_map]
  congr 1
  funext m
  exact Reference.ofMatch_foldCase m

theorem firstReference?_foldCase (t : Text) :
    firstReference? t.foldCase = (firstReference? t).map Reference.foldCase := by
  rw [firstReference?, Pattern.search_foldCase (by decide), firstReference?, Option.map_map,
    Option.map_map]
  congr 1
  funext m
  exact Reference.ofMatch_foldCase m

/-- The foreign key with both names folded. -/
def AddedForeignKey.foldCase (a : AddedForeignKey) : AddedForeignKey :=
  { a with table := foldString a.table, foreignKey := a.foreignKey.foldCase }

theorem Source.addedBy_foldCase (s : Source) (statement : Statement) :
    s.foldCase.addedBy statement.foldCase = (s.addedBy statement).map AddedForeignKey.foldCase := by
  have htext : statement.foldCase.text = statement.text.foldCase := rfl
  have hoffset : statement.foldCase.offset = statement.offset := rfl
  unfold Source.addedBy
  rw [htext, hoffset, alteredTable?_foldCase, foreignKeys_foldCase]
  cases alteredTable? statement.text with
  | none => rfl
  | some table => simp [AddedForeignKey.foldCase, ForeignKey.foldCase, Function.comp_def]

theorem Source.addedForeignKeys_foldCase {s : Source} (hdollar : '$' ∉ s.text) :
    s.foldCase.addedForeignKeys = s.addedForeignKeys.map AddedForeignKey.foldCase := by
  unfold Source.addedForeignKeys
  rw [Source.statements_foldCase hdollar, List.flatMap_map, List.map_flatMap]
  congr 1
  funext statement
  exact s.addedBy_foldCase statement

/-! ## Columns -/

/-- The type with its name folded. -/
def DeclaredType.foldCase (t : DeclaredType) : DeclaredType := { t with name := foldString t.name }

@[simp] theorem DeclaredType.key_foldCase (t : DeclaredType) : t.foldCase.key = t.key := by
  simp [key, foldCase]

@[simp] theorem DeclaredType.family_foldCase (t : DeclaredType) : t.foldCase.family = t.family := by
  simp [family, foldCase]

/-- The column with its names and what follows folded. -/
def Column.foldCase (c : Column) : Column :=
  { c with name := foldString c.name, type := c.type.foldCase, rest := c.rest.foldCase }

theorem isConstraintStarter_foldCase (word : Text) :
    isConstraintStarter word.foldCase = isConstraintStarter word := by
  simp only [isConstraintStarter, equalsIgnoringCase_eq, foldCase_foldCase]

namespace Column

theorem sizesOf_foldCase (m : Match) : sizesOf m.foldCase = sizesOf m := by
  unfold sizesOf
  rw [Match.group?_foldCase, Match.group?_foldCase]
  cases m.group? 4 <;> cases m.group? 5 <;> simp [natBelow?_foldCase]

theorem ofText?_foldCase (t : Text) : ofText? t.foldCase = (ofText? t).map foldCase := by
  unfold ofText?
  rw [Pattern.matchAt_atStart_foldCase (by decide)]
  cases Pattern.columnDefinition.matchAt (.atStart t) with
  | none => rfl
  | some m =>
    simp only [Option.map_some, Option.bind_eq_bind, Option.bind_some, Match.groupText_foldCase,
      isConstraintStarter_foldCase]
    split
    · rfl
    · simp [foldCase, DeclaredType.foldCase, sizesOf_foldCase]

variable (c : Column)

@[simp] theorem key_foldCase : c.foldCase.key = c.key := nameKey_foldString c.name

@[simp] theorem isNotNull_foldCase : c.foldCase.isNotNull = c.isNotNull :=
  Pattern.occursIn_foldCase (by decide) c.rest

@[simp] theorem isPrimaryKey_foldCase : c.foldCase.isPrimaryKey = c.isPrimaryKey :=
  Pattern.occursIn_foldCase (by decide) c.rest

@[simp] theorem isUnique_foldCase : c.foldCase.isUnique = c.isUnique :=
  Pattern.occursIn_foldCase (by decide) c.rest

theorem default?_foldCase : c.foldCase.default? = c.default?.map Text.foldCase := by
  have hrest : c.foldCase.rest = c.rest.foldCase := rfl
  rw [default?, hrest, Pattern.search_foldCase (by decide), default?, Option.map_map,
    Option.map_map]
  congr 1
  funext m
  exact m.groupText_foldCase 1

theorem reference?_foldCase : c.foldCase.reference? = c.reference?.map ForeignKey.foldCase := by
  have hrest : c.foldCase.rest = c.rest.foldCase := rfl
  have hoffset : c.foldCase.restOffset = c.restOffset := rfl
  rw [reference?, hrest, hoffset, firstReference?_foldCase, key_foldCase, reference?,
    Option.map_map, Option.map_map]
  rfl

end Column

/-! ## Default values -/

theorem isQuotedLiteral_foldCase (t : Text) : isQuotedLiteral t.foldCase = isQuotedLiteral t := by
  have hquote : ∀ o : Option Char, (o.map Char.toLower == some '\x27') = (o == some '\x27') := by
    intro o
    cases o with
    | none => rfl
    | some c => exact apply_toLower (fun c => some c == some '\x27') (by decide) c
  unfold isQuotedLiteral
  rw [length_foldCase]
  unfold Text.foldCase
  rw [List.head?_map, List.getLast?_map, hquote, hquote]

theorem unquote_foldCase (t : Text) : unquote t.foldCase = (unquote t).foldCase := by
  have hinner : (t.foldCase.drop 1).dropLast = Text.foldCase (t.drop 1).dropLast := by
    unfold Text.foldCase
    rw [← List.map_drop, ← List.map_dropLast]
  rw [unquote, hinner, undoubleQuotes_foldCase]
  rfl

theorem isNullWord_foldCase (t : Text) : isNullWord t.foldCase = isNullWord t := by
  simp only [isNullWord, equalsIgnoringCase_eq, foldCase_foldCase]

/-! ## Checks -/

/-- The check with its expression folded. -/
def Check.foldCase (check : Check) : Check := { check with expression := check.expression.foldCase }

theorem closingParen?_foldCase (depth : Nat) (quote : Option Char) (offset : Nat) (t : Text)
    (hquote : ∀ q ∈ quote, isQuote q = true) :
    closingParen? depth quote offset t.foldCase = closingParen? depth quote offset t := by
  have hopen := toLower_eq_iff (show isAsciiLetter '(' = false by decide)
  have hclose := toLower_eq_iff (show isAsciiLetter ')' = false by decide)
  induction t generalizing depth quote offset with
  | nil => rfl
  | cons c cs ih =>
    have hnone := fun depth offset => ih depth none offset (by simp)
    cases quote with
    | some q =>
      have hq : isQuote q = true := hquote q rfl
      have hc := toLower_eq_iff (isAsciiLetter_of_isQuote hq) c
      simp only [foldCase_cons, closingParen?, utf8Size_toLower, hc]
      refine ih _ _ _ ?_
      intro q' hq'
      split at hq'
      · cases hq'
      · cases hq'
        exact hq
    | none =>
      simp only [foldCase_cons, closingParen?, utf8Size_toLower, isQuote_toLower, hopen, hclose, hnone]
      by_cases hc : isQuote c = true
      · rw [if_pos hc, if_pos hc, toLower_of_isQuote hc]
        exact ih _ _ _ fun q hq => by cases hq; exact hc
      · rw [if_neg hc, if_neg hc]

theorem checksFrom_foldCase (resume : Nat) (before : Option Char) (offset : Nat) (t : Text) :
    checksFrom resume (before.map Char.toLower) offset t.foldCase =
      (checksFrom resume before offset t).map Check.foldCase := by
  induction t generalizing resume before offset with
  | nil => rfl
  | cons x xs ih =>
    have hhere := Pattern.matchAt_mk_foldCase (p := .checkOpening) (by decide) before offset (x :: xs)
    have hrest := fun resume => ih resume (some x) (offset + x.utf8Size)
    simp only [Option.map_some] at hrest
    rw [foldCase_cons] at hhere ⊢
    rw [checksFrom, checksFrom, hhere, utf8Size_toLower]
    split
    · exact hrest resume
    · cases Pattern.checkOpening.matchAt ⟨before, offset, x :: xs⟩ with
      | none => exact hrest resume
      | some m =>
        simp only [Option.map_some, Match.offset_stop_foldCase, Match.rest_stop_foldCase,
          closingParen?_foldCase 1 none _ _ (by simp)]
        cases closingParen? 1 none m.stop.offset m.stop.rest with
        | none => rfl
        | some close => simp [hrest, Check.foldCase, takeBytes_foldCase, trim_foldCase]

theorem checks_foldCase (t : Text) : checks t.foldCase = (checks t).map Check.foldCase :=
  checksFrom_foldCase 0 none 0 t

theorem constantColumn?_foldCase (expression : Text) :
    constantColumn? expression.foldCase = (constantColumn? expression).map foldString := by
  rw [constantColumn?, Pattern.matchAt_atStart_foldCase (by decide), constantColumn?, Option.map_map,
    Option.map_map]
  congr 1
  funext m
  exact m.groupString_foldCase 1

/-- The class with its column folded. -/
def CheckClass.foldCase : CheckClass → CheckClass
  | .contradiction column upper lower => .contradiction (foldString column) upper lower
  | cls => cls

theorem classifyCheck_foldCase (expression : Text) :
    classifyCheck expression.foldCase = (classifyCheck expression).map CheckClass.foldCase := by
  have hruns := Pattern.findRuns_eq_findAll Pattern.beginsWithRun_boundedRange
  have hsame : ((fun m : Match => equalsIgnoringCase (m.groupText 1) (m.groupText 3)) ∘
      Match.foldCase) = fun m => equalsIgnoringCase (m.groupText 1) (m.groupText 3) := by
    funext m
    simp [equalsIgnoringCase_eq]
  unfold classifyCheck
  simp only [Pattern.matchAt_atStart_foldCase (p := .singleValueIn) (by decide),
    Pattern.matchAt_atStart_foldCase (p := .nonNegative) (by decide),
    Pattern.matchAt_atStart_foldCase (p := .tautology) (by decide), Option.isSome_map, hruns,
    Pattern.findAll_foldCase (p := .boundedRange) (by decide), List.find?_map, hsame]
  split
  · rfl
  split
  · rfl
  split
  · rfl
  cases (Pattern.boundedRange.findAll expression).find? fun m =>
      equalsIgnoringCase (m.groupText 1) (m.groupText 3) with
  | none => rfl
  | some m =>
    simp only [Option.map_some, Option.bind_eq_bind, Option.bind_some, Match.groupText_foldCase,
      Match.groupString_foldCase, natBelow?_foldCase]
    cases natBelow? (Nat.pow 2 128) (m.groupText 2) with
    | none => rfl
    | some upper =>
      cases natBelow? (Nat.pow 2 128) (m.groupText 4) with
      | none => rfl
      | some lower =>
        simp only [Option.bind_some]
        split <;> rfl

/-! ## Indexes -/

/-- The index with its names folded. -/
def Index.foldCase (i : Index) : Index :=
  { i with name := foldString i.name, table := foldString i.table }

@[simp] theorem Index.tableKey_foldCase (i : Index) : i.foldCase.tableKey = i.tableKey :=
  nameKey_foldString i.table

theorem Source.indexes_foldCase (s : Source) :
    s.foldCase.indexes = s.indexes.map Index.foldCase := by
  rw [Source.indexes, Source.text_foldCase, Pattern.findAll_foldCase (by decide), Source.indexes,
    List.map_map, List.map_map]
  congr 1
  funext m
  simp [Index.ofMatch, Index.foldCase, Match.group?_foldCase]

end SchemaReview
