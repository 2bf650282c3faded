import SchemaReview.Proofs.Ddl.FoldCase
import SchemaReview.Proofs.Sequence
import SchemaReview.Scope.Column
import SchemaReview.Scope.TableKeys

/-!
# Proofs.Scope.FoldCase — the scopes of a folded script

The scan of a folded script gives the same events with names and texts folded.  The step lemmas are
`openScope_foldCase` and `readChar_foldCase`; a quote that is open is no letter, so that folding does
not hide its end.  Tables, items, columns and keys follow.
-/

namespace SchemaReview

open Text

/-! ## Folded scopes and events -/

def TableDecl.foldCase (t : TableDecl) : TableDecl := { t with name := foldString t.name }

@[simp] theorem TableDecl.key_foldCase (t : TableDecl) : t.foldCase.key = t.key :=
  nameKey_foldString t.name

def ScopeEvent.foldCase : ScopeEvent → ScopeEvent
  | .enter table => .enter table.foldCase
  | .item table piece => .item table.foldCase piece.foldCase
  | .exit table line => .exit table.foldCase line

def OpenScope.foldCase (scope : OpenScope) : OpenScope :=
  ⟨scope.table.foldCase, scope.depth, scope.itemStart.map Cursor.foldCase⟩

/-- The state with its scopes folded.  The open quote stays. -/
def ScopeState.foldCase (st : ScopeState) : ScopeState := ⟨st.stack.map OpenScope.foldCase, st.quote⟩

/-- What a step gives, folded. -/
def foldStep (step : ScopeState × List ScopeEvent) : ScopeState × List ScopeEvent :=
  (step.1.foldCase, step.2.map ScopeEvent.foldCase)

/-- An open quote is no letter. -/
def ScopeState.QuoteInv (st : ScopeState) : Prop := ∀ q ∈ st.quote, isAsciiLetter q = false

/-! ## The steps of the scan -/

section

variable (s : Source)

theorem itemEvents_foldCase (scope : OpenScope) (stop : Nat) :
    s.foldCase.itemEvents scope.foldCase stop =
      (s.itemEvents scope stop).map ScopeEvent.foldCase := by
  obtain ⟨table, depth, itemStart⟩ := scope
  cases itemStart with
  | none => rfl
  | some start =>
    unfold Source.itemEvents
    simp only [OpenScope.foldCase, Option.map_some, Cursor.foldCase, takeBytes_foldCase,
      takeWhile_foldCase isBlank_toLower, byteSize_foldCase, trim_foldCase, isEmpty_foldCase,
      Source.lineOf_foldCase]
    split <;> rfl

theorem closeEvents_foldCase (stop last : Nat) (stack : List OpenScope) :
    s.foldCase.closeEvents stop last (stack.map OpenScope.foldCase) =
      (s.closeEvents stop last stack).map ScopeEvent.foldCase := by
  induction stack with
  | nil => rfl
  | cons scope stack ih =>
    unfold Source.closeEvents at ih ⊢
    rw [List.map_cons, List.flatMap_cons, List.flatMap_cons, ih, itemEvents_foldCase,
      Source.lineOf_foldCase, List.map_append, List.map_append]
    rfl

theorem openScope_foldCase (mode : ScopeMode) (header : TableHeader) (st : ScopeState) :
    s.foldCase.openScope mode header.foldCase st.foldCase =
      foldStep (s.openScope mode header st) := by
  obtain ⟨stack, quote⟩ := st
  cases mode with
  | replace =>
    have hclose := closeEvents_foldCase s header.start header.start stack
    simp [Source.openScope, TableHeader.foldCase, ScopeState.foldCase, foldStep, hclose,
      OpenScope.foldCase, ScopeEvent.foldCase, TableDecl.foldCase]
  | nested =>
    cases stack with
    | nil =>
      simp [Source.openScope, TableHeader.foldCase, ScopeState.foldCase, foldStep,
        OpenScope.foldCase, ScopeEvent.foldCase, TableDecl.foldCase]
    | cons outer rest =>
      have hflush := itemEvents_foldCase s outer header.start
      simp only [Source.openScope, TableHeader.foldCase, ScopeState.foldCase, foldStep, hflush,
        List.map_cons, List.map_append, Source.lineOf_foldCase]
      rfl

theorem resumeOuter_foldCase (next : Cursor) (stack : List OpenScope) :
    Source.resumeOuter next.foldCase (stack.map OpenScope.foldCase) =
      (Source.resumeOuter next stack).map OpenScope.foldCase := by
  cases stack with
  | nil => rfl
  | cons outer rest =>
    have hdepth : outer.foldCase.depth = outer.depth := rfl
    simp only [List.map_cons, Source.resumeOuter, hdepth]
    split <;> rfl

/-- A character that can open a quote is no letter. -/
theorem isAsciiLetter_of_opensQuote {c : Char} (h : (isQuote c || c == '\x60') = true) :
    isAsciiLetter c = false := by
  rw [Bool.or_eq_true, beq_iff_eq] at h
  rcases h with h | rfl
  · exact isAsciiLetter_of_isQuote h
  · rfl

theorem readChar_foldCase (offset : Nat) (c : Char) (next : Cursor) {st : ScopeState}
    (hst : st.QuoteInv) :
    s.foldCase.readChar offset c.toLower next.foldCase st.foldCase =
      foldStep (s.readChar offset c next st) := by
  have hmark := fun (d : Char) (hd : isAsciiLetter d = false) => toLower_eq_iff hd c
  have hopens : (isQuote c.toLower || c.toLower == '\x60') = (isQuote c || c == '\x60') :=
    apply_toLower (fun c => isQuote c || c == '\x60') (by decide) c
  obtain ⟨stack, quote⟩ := st
  cases stack with
  | nil => rfl
  | cons scope rest =>
    have hflush := itemEvents_foldCase s scope offset
    have hclose := closeEvents_foldCase s offset offset (scope :: rest)
    have hresume := resumeOuter_foldCase next rest
    have hdepth : scope.foldCase.depth = scope.depth := rfl
    rw [List.map_cons] at hclose
    cases quote with
    | some q =>
      simp only [Source.readChar, ScopeState.foldCase, List.map_cons, hmark q (hst q rfl), foldStep]
      rfl
    | none =>
      simp only [Source.readChar, ScopeState.foldCase, List.map_cons, hopens, hmark '(' (by decide),
        hmark ')' (by decide), hmark ',' (by decide), hmark ';' (by decide), hdepth, hflush, hclose,
        hresume, Source.lineOf_foldCase]
      -- the two scans take the same branch
      by_cases hquote : ((isQuote c || c == '\x60') && decide (0 < scope.depth)) = true
      · have hc := isAsciiLetter_of_opensQuote (Bool.and_eq_true_iff.mp hquote).1
        rw [if_pos hquote, if_pos hquote, toLower_eq_self hc]
        rfl
      rw [if_neg hquote, if_neg hquote]
      by_cases hparen : c = '('
      · rw [if_pos hparen, if_pos hparen]
        by_cases hzero : scope.depth = 0
        · simp [foldStep, ScopeState.foldCase, OpenScope.foldCase, hzero]
        · simp [foldStep, ScopeState.foldCase, OpenScope.foldCase, hzero]
      rw [if_neg hparen, if_neg hparen]
      by_cases hends : c = ')' ∧ 0 < scope.depth
      · rw [if_pos hends, if_pos hends]
        by_cases hone : scope.depth = 1
        · simp [foldStep, ScopeState.foldCase, hone, ScopeEvent.foldCase, OpenScope.foldCase]
        · simp [foldStep, ScopeState.foldCase, hone, OpenScope.foldCase]
      rw [if_neg hends, if_neg hends]
      by_cases hcomma : c = ',' ∧ scope.depth = 1
      · rw [if_pos hcomma, if_pos hcomma]
        rfl
      rw [if_neg hcomma, if_neg hcomma]
      by_cases hsemicolon : c = ';'
      · rw [if_pos hsemicolon, if_pos hsemicolon]
        rfl
      · rw [if_neg hsemicolon, if_neg hsemicolon]
        rfl

theorem quoteInv_readChar (offset : Nat) (c : Char) (next : Cursor) {st : ScopeState}
    (hst : st.QuoteInv) : (s.readChar offset c next st).1.QuoteInv := by
  have hnone : ∀ stack, ScopeState.QuoteInv ⟨stack, none⟩ := by
    intro stack q hq
    cases hq
  unfold Source.readChar
  split
  · exact hst
  · split
    · split
      · exact hnone _
      · rename_i q hquote hne
        intro q' hq'
        cases hq'
        exact hst q hquote
    · split
      · rename_i hopens
        intro q hq
        cases hq
        exact isAsciiLetter_of_opensQuote (Bool.and_eq_true_iff.mp hopens).1
      split
      · exact hnone _
      split
      · split
        · exact hnone _
        · exact hnone _
      split
      · exact hnone _
      split
      · exact hnone _
      · exact hst

theorem quoteInv_openScope (mode : ScopeMode) (header : TableHeader) {st : ScopeState}
    (hst : st.QuoteInv) : (s.openScope mode header st).1.QuoteInv := by
  unfold Source.openScope
  cases mode with
  | replace => exact hst
  | nested =>
    dsimp only
    split <;> exact hst

/-! ## The whole scan -/

theorem eventsFrom_foldCase (mode : ScopeMode) (resume : Nat) {st : ScopeState} (hst : st.QuoteInv)
    (before : Option Char) (offset : Nat) (t : Text) :
    s.foldCase.eventsFrom mode resume st.foldCase (before.map Char.toLower) offset t.foldCase =
      (s.eventsFrom mode resume st before offset t).map ScopeEvent.foldCase := by
  induction t generalizing resume st before offset with
  | nil => exact closeEvents_foldCase s offset (offset - 1) st.stack
  | cons x xs ih =>
    have hnext := fun resume {st : ScopeState} (hst : st.QuoteInv) =>
      ih resume hst (some x) (offset + x.utf8Size)
    have hquote : st.foldCase.quote = st.quote := rfl
    have hheader := TableHeader.at?_foldCase ⟨before, offset, x :: xs⟩
    have hread := readChar_foldCase s offset x ⟨some x, offset + x.utf8Size, xs⟩ hst
    simp only [Option.map_some] at hnext
    simp only [Cursor.foldCase, foldCase_cons, Option.map_some] at hheader hread
    have hfound : ∀ h : Option TableHeader,
        (if st.quote.isNone then h.map TableHeader.foldCase else none) =
          (if st.quote.isNone then h else none).map TableHeader.foldCase := by
      intro h
      split <;> rfl
    rw [foldCase_cons, Source.eventsFrom, Source.eventsFrom, utf8Size_toLower, hquote, hheader, hfound]
    split
    · exact hnext resume hst
    · cases if st.quote.isNone then TableHeader.at? ⟨before, offset, x :: xs⟩ else none with
      | some header =>
        have hopen := openScope_foldCase s mode header st
        have hrest := hnext header.stop (quoteInv_openScope s mode header hst)
        simp only [Option.map_some, hopen, foldStep, List.map_append]
        exact congrArg _ hrest
      | none =>
        have hrest := hnext resume
          (quoteInv_readChar s offset x ⟨some x, offset + x.utf8Size, xs⟩ hst)
        simp only [Option.map_none, hread, foldStep, List.map_append]
        exact congrArg _ hrest

theorem scopeEvents_foldCase (mode : ScopeMode) :
    s.foldCase.scopeEvents mode = (s.scopeEvents mode).map ScopeEvent.foldCase := by
  have hstart : ScopeState.QuoteInv ⟨[], none⟩ := by
    intro q hq
    cases hq
  exact eventsFrom_foldCase s mode 0 hstart none 0 s.text

/-! ## Tables, items and columns -/

def TableItem.foldCase (item : TableItem) : TableItem := ⟨item.table.foldCase, item.piece.foldCase⟩

theorem Source.itemsIn_foldCase (mode : ScopeMode) :
    s.foldCase.itemsIn mode = (s.itemsIn mode).map TableItem.foldCase := by
  unfold Source.itemsIn
  rw [scopeEvents_foldCase, List.filterMap_map, List.map_filterMap]
  congr 1
  funext event
  cases event <;> rfl

theorem Source.items_foldCase : s.foldCase.items = s.items.map TableItem.foldCase :=
  s.itemsIn_foldCase .replace

theorem Source.tables_foldCase : s.foldCase.tables = s.tables.map TableDecl.foldCase := by
  unfold Source.tables
  rw [scopeEvents_foldCase, List.filterMap_map, List.map_filterMap]
  congr 1
  funext event
  cases event <;> rfl

def DeclaredColumn.foldCase (c : DeclaredColumn) : DeclaredColumn :=
  ⟨c.table.foldCase, c.piece.foldCase, c.column.foldCase⟩

@[simp] theorem TableItem.text_foldCase (item : TableItem) :
    item.foldCase.piece.text = item.piece.text.foldCase := rfl

@[simp] theorem TableItem.key_foldCase (item : TableItem) :
    item.foldCase.table.key = item.table.key := item.table.key_foldCase

theorem Source.columns_foldCase : s.foldCase.columns = s.columns.map DeclaredColumn.foldCase := by
  unfold Source.columns
  rw [Source.items_foldCase, List.filterMap_map, List.map_filterMap]
  congr 1
  funext item
  simp only [Function.comp_apply, TableItem.column?, TableItem.text_foldCase,
    Column.ofText?_foldCase, Option.map_map]
  rfl

theorem Source.columnSpan_foldCase (c : DeclaredColumn) :
    s.foldCase.columnSpan c.foldCase = s.columnSpan c := by
  unfold Source.columnSpan
  rw [Source.spanAt_foldCase]
  simp [DeclaredColumn.foldCase, Column.foldCase, Piece.foldCase]

/-! ## Keys -/

@[simp] theorem TableItem.primaryKeyColumns_foldCase (item : TableItem) :
    item.foldCase.primaryKeyColumns = item.primaryKeyColumns := by
  unfold TableItem.primaryKeyColumns
  rw [TableItem.text_foldCase, Column.ofText?_foldCase, primaryKeyColumns?_foldCase]
  cases Column.ofText? item.piece.text with
  | none => rfl
  | some c => simp

@[simp] theorem TableItem.uniqueKeys_foldCase (item : TableItem) :
    item.foldCase.uniqueKeys = item.uniqueKeys := by
  unfold TableItem.uniqueKeys
  rw [TableItem.text_foldCase, Column.ofText?_foldCase, uniqueColumnLists_foldCase]
  cases Column.ofText? item.piece.text with
  | none => rfl
  | some c => simp

def TableKeys.foldCase (t : TableKeys) : TableKeys := { t with name := foldString t.name }

theorem Source.keysOf_foldCase (items : List TableItem) (table : TableDecl) :
    s.foldCase.keysOf ((items.map TableItem.foldCase).map fun item => (item.table.key, item))
        table.foldCase =
      (s.keysOf (items.map fun item => (item.table.key, item)) table).foldCase := by
  have hown : ∀ items : List TableItem, (((items.map TableItem.foldCase).map
      fun item => (item.table.key, item)).filter fun entry => entry.1 = table.key).map (·.2) =
      (((items.map fun item => (item.table.key, item)).filter
        fun entry => entry.1 = table.key).map (·.2)).map TableItem.foldCase := by
    intro items
    simp [List.filter_map, Function.comp_def]
  unfold Source.keysOf
  simp only [TableDecl.key_foldCase, hown, List.flatMap_map, TableItem.primaryKeyColumns_foldCase,
    TableItem.uniqueKeys_foldCase, Source.spanAt_foldCase]
  rfl

theorem Source.tableKeys_foldCase : s.foldCase.tableKeys = s.tableKeys.map TableKeys.foldCase := by
  unfold Source.tableKeys
  rw [Source.items_foldCase, Source.tables_foldCase, firstBy_map TableDecl.key_foldCase]
  dsimp only
  rw [List.map_map (f := TableDecl.foldCase), List.map_map (g := TableKeys.foldCase)]
  refine List.map_congr_left fun table _ => ?_
  exact s.keysOf_foldCase s.items table

theorem Source.keysFor?_foldCase (keys : List TableKeys) (table : String) :
    Source.keysFor? (keys.map TableKeys.foldCase) table =
      (Source.keysFor? keys table).map TableKeys.foldCase := by
  unfold Source.keysFor?
  rw [List.find?_map]
  rfl

end

end SchemaReview
