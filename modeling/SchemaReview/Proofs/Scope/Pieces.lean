import SchemaReview.Proofs.Scope.Append
import SchemaReview.Proofs.Source.Pieces

/-!
# Proofs.Scope.Pieces — the scopes of a script, piece by piece

Apart from positions, the events of a script are those of its pieces, one after the other.  A piece has no
quotes, so that its semicolon closes every scope (`scan_piece`), and the scan is compositional
(`content_scopeEvents_scriptOf`).
-/

namespace SchemaReview

open Text

/-! ## Events without positions -/

/-- An event without its position. -/
inductive ScopeEvent.Content where
  | enter (table : String)
  | item (table : String) (text : Text)
  | exit (table : String)
deriving DecidableEq, Repr

def ScopeEvent.content : ScopeEvent → ScopeEvent.Content
  | .enter table => .enter table.name
  | .item table piece => .item table.name piece.text
  | .exit table _ => .exit table.name

/-- An item without its position: the table it belongs to, and its text. -/
def TableItem.content (item : TableItem) : String × Text := (item.table.name, item.piece.text)

theorem ScopeEvent.content_shift (d : Shift) (event : ScopeEvent) :
    (event.shift d).content = event.content := by
  cases event <;> rfl

/-! ## The scan of a piece -/

/-- A header ends in the statement it begins in. -/
theorem stop_le_of_at? {before : Option Char} {offset : Nat} {u : Text} {header : TableHeader}
    (h : TableHeader.at? ⟨before, offset, u ++ [';', '\n']⟩ = some header) :
    header.stop ≤ offset + byteSize u := by
  rw [TableHeader.at?, Option.map_eq_some_iff] at h
  obtain ⟨m, hm, rfl⟩ := h
  obtain ⟨-, w, hw, hstops⟩ := Pattern.matchAt_eq_some hm
  have hsemicolon : ';' ∉ w := hstops ';' (by decide)
  obtain ⟨v, rfl⟩ := prefix_of_prefix_append_cons hsemicolon ⟨m.stop.rest, hw.rest.symm⟩
  have hoffset : m.stop.offset = offset + byteSize w := hw.offset
  show m.stop.offset ≤ _
  rw [hoffset, byteSize_append]
  omega

section

variable (s : Source)

theorem readChar_semicolon {st : ScopeState} (hquote : st.quote = none) (offset : Nat)
    (next : Cursor) :
    s.readChar offset ';' next st = (⟨[], none⟩, s.closeEvents offset offset st.stack) := by
  obtain ⟨stack, quote⟩ := st
  obtain rfl : quote = none := hquote
  cases stack with
  | nil => rfl
  | cons scope rest => simp [Source.readChar, isQuote]

theorem quote_openScope (mode : ScopeMode) (header : TableHeader) (st : ScopeState) :
    (s.openScope mode header st).1.quote = st.quote := by
  obtain ⟨stack, quote⟩ := st
  cases mode with
  | replace => rfl
  | nested => cases stack <;> rfl

theorem quote_readChar {st : ScopeState} (hquote : st.quote = none) {x : Char}
    (hx : isQuote x = false) (hback : x ≠ '\x60') (offset : Nat) (next : Cursor) :
    (s.readChar offset x next st).1.quote = none := by
  have hopens : (isQuote x || x == '\x60') = false := by simp [hx, hback]
  obtain ⟨stack, quote⟩ := st
  obtain rfl : quote = none := hquote
  cases stack with
  | nil => rfl
  | cons scope rest =>
    simp only [Source.readChar, hopens, Bool.false_and, Bool.false_eq_true, if_false]
    split_ifs <;> rfl

/-- The semicolon closes every scope of a text without quotes. -/
theorem scanFrom_piece (mode : ScopeMode) {u : Text}
    (hplain : ∀ c ∈ u, isQuote c = false ∧ c ≠ '\x60') {resume offset : Nat}
    (hresume : resume ≤ offset + byteSize u) {st : ScopeState} (hquote : st.quote = none)
    (before : Option Char) :
    (s.scanFrom mode resume st before offset (u ++ [';', '\n'])).1.stack = [] := by
  induction u generalizing resume offset st before with
  | nil =>
    have hskip : ¬ offset < resume := Nat.not_lt.mpr hresume
    have hskip' : ¬ offset + ';'.utf8Size < resume := by omega
    simp only [List.nil_append, Source.scanFrom, if_neg hskip, if_neg hskip', hquote,
      TableHeader.at?_eq_none_of_not_holds (show (CharClass.letter 'C').holds ';' = false from rfl),
      TableHeader.at?_eq_none_of_not_holds (show (CharClass.letter 'C').holds '\n' = false from rfl),
      readChar_semicolon s hquote, ite_self]
    rfl
  | cons x u ih =>
    rw [List.forall_mem_cons] at hplain
    have hsize : offset + byteSize (x :: u) = offset + x.utf8Size + byteSize u := by
      rw [byteSize_cons, Nat.add_assoc]
    rw [List.cons_append, Source.scanFrom]
    split
    · exact ih hplain.2 (hsize ▸ hresume) hquote (some x)
    · rw [hquote]
      split
      · rename_i header hheader
        have hstop : header.stop ≤ offset + byteSize (x :: u) := stop_le_of_at? hheader
        exact ih hplain.2 (hsize ▸ hstop) ((quote_openScope s mode header st).trans hquote) (some x)
      · exact ih hplain.2 (hsize ▸ hresume)
          (quote_readChar s hquote hplain.1.1 hplain.1.2 _ _) (some x)

end

theorem scan_piece (mode : ScopeMode) (p : StatementText) :
    ((Source.ofMasked p.piece).scan mode).1.stack = [] := by
  refine scanFrom_piece _ mode (fun c hc => ?_) (Nat.zero_le _) rfl none
  have hmarks := p.plain c hc
  simp only [List.mem_cons, List.not_mem_nil, or_false, not_or] at hmarks
  exact ⟨p.isQuote_of_mem hc, hmarks.2.2.1⟩

/-! ## The scan of a script -/

theorem ofText_scriptOf (ps : List StatementText) :
    Source.ofText (scriptOf ps) = Source.ofMasked (scriptOf ps) := by
  rw [Source.ofText, (commentFree_scriptOf ps).maskComments_eq]

theorem content_scopeEvents_scriptOf (mode : ScopeMode) (ps : List StatementText) :
    ((Source.ofText (scriptOf ps)).scopeEvents mode).map ScopeEvent.content =
      ps.flatMap fun p => ((Source.ofText p.piece).scopeEvents mode).map ScopeEvent.content := by
  induction ps with
  | nil => rfl
  | cons p ps ih =>
    have hpiece : Source.ofText p.piece = Source.ofMasked p.piece := by
      simpa [scriptOf] using ofText_scriptOf [p]
    have hend : [';', '\n'] <:+ p.piece := List.suffix_append _ _
    have hunmoved : ScopeEvent.content ∘ ScopeEvent.shift (Source.shiftOf p.piece) =
        ScopeEvent.content := funext (ScopeEvent.content_shift _)
    rw [ofText_scriptOf, scriptOf_cons, scopeEvents_ofMasked_append mode hend (scan_piece mode p),
      List.map_append, List.map_map, hunmoved, ← ofText_scriptOf, ih, List.flatMap_cons, hpiece]

/-- What is picked from events by their contents is picked from the pieces. -/
theorem filterMap_scopeEvents_scriptOf {β : Type} (mode : ScopeMode)
    {f : ScopeEvent → Option β} {g : ScopeEvent.Content → Option β}
    (hfg : ∀ event, f event = g event.content) (ps : List StatementText) :
    ((Source.ofText (scriptOf ps)).scopeEvents mode).filterMap f =
      ps.flatMap fun p => ((Source.ofText p.piece).scopeEvents mode).filterMap f := by
  have hcontents : ∀ events : List ScopeEvent,
      events.filterMap f = (events.map ScopeEvent.content).filterMap g := by
    intro events
    rw [List.filterMap_map]
    exact List.filterMap_congr fun event _ => hfg event
  simp only [hcontents, content_scopeEvents_scriptOf, List.filterMap_flatMap]

theorem content_itemsIn_scriptOf (mode : ScopeMode) (ps : List StatementText) :
    ((Source.ofText (scriptOf ps)).itemsIn mode).map TableItem.content =
      ps.flatMap fun p => ((Source.ofText p.piece).itemsIn mode).map TableItem.content := by
  unfold Source.itemsIn
  simp only [List.map_filterMap]
  refine filterMap_scopeEvents_scriptOf (g := fun
    | .item table text => some (table, text)
    | _ => none) mode (fun event => ?_) ps
  cases event <;> rfl

theorem name_tables_scriptOf (ps : List StatementText) :
    (Source.ofText (scriptOf ps)).tables.map (·.name) =
      ps.flatMap fun p => (Source.ofText p.piece).tables.map (·.name) := by
  unfold Source.tables
  simp only [List.map_filterMap]
  refine filterMap_scopeEvents_scriptOf (g := fun
    | .enter table => some table
    | _ => none) .replace (fun event => ?_) ps
  cases event <;> rfl

end SchemaReview
