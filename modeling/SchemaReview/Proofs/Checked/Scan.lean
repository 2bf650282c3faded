import SchemaReview.Proofs.Checked.Clause

/-!
# Proofs.Checked.Scan — scanning with checked slices

The scans for statements and for table scopes remember offsets, and cut statements, dollar tags and items out
of the text when they come to their ends.  Here they do so with checked slices.

* `Checked.statements_eq`: the slices for statements and dollar tags fit.
* `Checked.scopeEvents_eq`: so do those for items.  That an item begins and ends between two characters is the
  invariant of the scan (`ScanInv`).
-/

namespace SchemaReview

open Text

/-! ## Statements -/

namespace Checked

/-- Number of characters after `c`, which stands at byte `offset` of `t`, that belong to the region that `c`
opens in front of `cs`.  A dollar tag and what follows it are cut out of the text. -/
def regionLength (t : Text) (offset : Nat) (c : Char) (cs : Text) : Option Nat :=
  if isQuote c then some ((cs.takeWhile (· ≠ c)).length + 1)
  else if c = '$' then
    match dollarTag? cs with
    | none => some 0
    | some tag => do
      let stop := offset + byteSize tag
      let written ← t.slice? offset stop
      let behind ← t.tail? stop
      let head := tag.length - 1
      return match indexOf? written behind with
        | some n => head + n + tag.length
        | none => cs.length
  else some 0

/-- The statements of `t`, of which `u` is left; the piece under way begins at byte `start`. -/
def statementsFrom (t : Text) (start offset skip : Nat) : Text → Option (List Statement)
  | [] => (t.slice? start offset).map (Statement.ofPiece start)
  | c :: cs =>
    if skip = 0 then
      if c = ';' then do
        let piece ← t.slice? start offset
        let later ← statementsFrom t (offset + 1) (offset + 1) 0 cs
        return Statement.ofPiece start piece ++ later
      else do
        let skip ← regionLength t offset c cs
        statementsFrom t start (offset + c.utf8Size) skip cs
    else statementsFrom t start (offset + c.utf8Size) (skip - 1) cs

/-- The statements of a source. -/
def statements (s : Source) : Option (List Statement) := statementsFrom s.text 0 0 0 s.text

end Checked

/-- A dollar tag stands right behind the first dollar sign. -/
theorem cons_eq_of_dollarTag? {cs tag : Text} (h : dollarTag? cs = some tag) :
    '$' :: cs = tag ++ cs.drop (tag.length - 1) := by
  unfold dollarTag? at h
  split at h
  · rename_i after hdrop
    rw [Option.some.injEq] at h
    subst h
    have hcs : cs = cs.takeWhile isTagChar ++ '$' :: after := by
      rw [← hdrop, List.takeWhile_append_dropWhile]
    generalize cs.takeWhile isTagChar = tag at hcs ⊢
    subst hcs
    simp
  · cases h

namespace Checked

theorem regionLength_eq {t before : Text} {c : Char} {cs : Text} (ht : t = before ++ c :: cs) :
    regionLength t (byteSize before) c cs = some (SchemaReview.regionLength c cs) := by
  unfold regionLength SchemaReview.regionLength
  split
  · rfl
  · split
    · rename_i hc
      subst hc
      cases htag : dollarTag? cs with
      | none => rfl
      | some tag =>
        have hcut : t = before ++ tag ++ cs.drop (tag.length - 1) := by
          rw [ht, cons_eq_of_dollarTag? htag, List.append_assoc]
        have hwritten : t.slice? (byteSize before) (byteSize before + byteSize tag) = some tag :=
          slice?_eq_some_iff.mpr ⟨before, _, hcut, rfl, rfl⟩
        have hbehind : t.tail? (byteSize before + byteSize tag) = some (cs.drop (tag.length - 1)) := by
          rw [← byteSize_append, hcut, tail?_append]
        simp only [hwritten, hbehind]
        rfl
    · rfl

theorem statementsFrom_eq {t before u : Text} (skip : Nat) (piece : Text)
    (ht : t = before ++ piece.reverse ++ u) :
    statementsFrom t (byteSize before) (byteSize before + byteSize piece.reverse) skip u =
      some (SchemaReview.statementsFrom (byteSize before) (byteSize before + byteSize piece.reverse) skip
        piece u) := by
  induction u generalizing before skip piece with
  | nil =>
    have hpiece := slice?_eq_some_iff.mpr ⟨before, [], ht, rfl, rfl⟩
    rw [statementsFrom, hpiece]
    rfl
  | cons c cs ih =>
    have hpiece : t.slice? (byteSize before) (byteSize before + byteSize piece.reverse) =
        some piece.reverse := slice?_eq_some_iff.mpr ⟨before, c :: cs, ht, rfl, rfl⟩
    have hkept : t = before ++ (c :: piece).reverse ++ cs := by simp [ht]
    have hsize : byteSize before + byteSize piece.reverse + c.utf8Size =
        byteSize before + byteSize (c :: piece).reverse := by
      rw [List.reverse_cons, byteSize_append, byteSize_cons, byteSize_nil]
      omega
    rw [statementsFrom, SchemaReview.statementsFrom, hsize]
    split
    · split
      · rename_i hc
        subst hc
        have hnext : byteSize before + byteSize piece.reverse + 1 =
            byteSize (before ++ piece.reverse ++ [';']) := by
          rw [byteSize_append, byteSize_append]
          rfl
        have hcut : t = before ++ piece.reverse ++ [';'] ++ [].reverse ++ cs := by simp [ht]
        have hlater := ih 0 [] hcut
        rw [List.reverse_nil, byteSize_nil, Nat.add_zero] at hlater
        rw [hpiece, hnext, hlater]
        rfl
      · have hregion := regionLength_eq ht
        rw [byteSize_append] at hregion
        rw [hregion]
        exact ih _ (c :: piece) hkept
    · exact ih _ (c :: piece) hkept

@[simp] theorem statements_eq (s : Source) : statements s = some s.statements :=
  @statementsFrom_eq s.text [] s.text 0 [] rfl

/-! ## Table scopes -/

section

variable (s : Source)

/-- The event for the item of the scope that ends at byte `stop`. -/
def itemEvents (scope : OpenScope) (stop : Nat) : Option (List ScopeEvent) :=
  match scope.itemStart with
  | none => some []
  | some start => do
    let raw ← s.text.slice? start.offset (max stop start.offset)
    let offset := start.offset + byteSize (raw.takeWhile isBlank)
    let text := trim raw
    return if text.isEmpty then [] else [.item scope.table ⟨s.lineOf offset, offset, text⟩]

/-- The events that close the scopes at byte `stop`, on the line of byte `last`, innermost first. -/
def closeEvents (stop last : Nat) (stack : List OpenScope) : Option (List ScopeEvent) :=
  stack.flatMapM fun scope => do
    let items ← itemEvents s scope stop
    return items ++ [.exit scope.table (s.lineOf last)]

/-- Opens the scope of a header. -/
def openScope (mode : ScopeMode) (header : TableHeader) (st : ScopeState) :
    Option (ScopeState × List ScopeEvent) := do
  let table : TableDecl := ⟨header.name, s.lineOf header.start, header.start⟩
  let scope : OpenScope := ⟨table, 0, none⟩
  -- the search for the next header goes on behind this one
  let _ ← s.text.tail? header.stop
  match mode with
  | .replace =>
    let events ← closeEvents s header.start header.start st.stack
    return (⟨[scope], st.quote⟩, events ++ [.enter table])
  | .nested =>
    match st.stack with
    | [] => return (⟨[scope], st.quote⟩, [.enter table])
    | outer :: rest =>
      let events ← itemEvents s outer header.start
      return (⟨scope :: { outer with itemStart := none } :: rest, st.quote⟩, events ++ [.enter table])

/-- Reads one character at byte `offset` that starts no header; `next` is the position after it. -/
def readChar (offset : Nat) (c : Char) (next : Cursor) (st : ScopeState) :
    Option (ScopeState × List ScopeEvent) :=
  match st.stack with
  | [] => some (st, [])
  | scope :: rest =>
    match st.quote with
    | some q => some (⟨st.stack, if c = q then none else some q⟩, [])
    | none =>
      if (isQuote c || c == '\x60') && decide (0 < scope.depth) then some (⟨st.stack, some c⟩, [])
      else if c = '(' then some (⟨scope.deepen next :: rest, none⟩, [])
      else if c = ')' ∧ 0 < scope.depth then
        if scope.depth = 1 then do
          let events ← itemEvents s scope offset
          return (⟨Source.resumeOuter next rest, none⟩, events ++ [.exit scope.table (s.lineOf offset)])
        else some (⟨{ scope with depth := scope.depth - 1 } :: rest, none⟩, [])
      else if c = ',' ∧ scope.depth = 1 then do
        let events ← itemEvents s scope offset
        return (⟨{ scope with itemStart := some next } :: rest, none⟩, events)
      else if c = ';' then do
        let events ← closeEvents s offset offset st.stack
        return (⟨[], none⟩, events)
      else some (st, [])

/-- The events of the text at the given position; the characters before byte `resume` belong to a header
that was read already. -/
def eventsFrom (mode : ScopeMode) (resume : Nat) (st : ScopeState) (before : Option Char)
    (offset : Nat) : Text → Option (List ScopeEvent)
  | [] => closeEvents s offset (offset - 1) st.stack
  | x :: xs =>
    let next := offset + x.utf8Size
    if offset < resume then eventsFrom mode resume st (some x) next xs
    else match (if st.quote.isNone then TableHeader.at? ⟨before, offset, x :: xs⟩ else none) with
      | some header => do
        let (st', events) ← openScope s mode header st
        let later ← eventsFrom mode header.stop st' (some x) next xs
        return events ++ later
      | none => do
        let (st', events) ← readChar s offset x ⟨some x, next, xs⟩ st
        let later ← eventsFrom mode resume st' (some x) next xs
        return events ++ later

/-- The scope events of the source. -/
def scopeEvents (mode : ScopeMode) : Option (List ScopeEvent) :=
  eventsFrom s mode 0 ⟨[], none⟩ none 0 s.text

end

section

variable {s : Source} {mode : ScopeMode} {p : Progress} {offset : Nat} {rest : Text}

theorem itemEvents_eq {top : OpenScope} (h : ItemInv s p offset rest top) :
    itemEvents s top offset = some (s.itemEvents top offset) := by
  unfold itemEvents Source.itemEvents
  cases hstart : top.itemStart with
  | none => rfl
  | some start =>
    obtain ⟨before, mid, htext, hbefore, hrest, hoffset, -⟩ := h.pending start hstart
    have hraw : takeBytes (offset - start.offset) start.rest = mid := by
      rw [hrest, hoffset, Nat.add_sub_cancel_left, takeBytes_append]
    have hslice : s.text.slice? start.offset (max offset start.offset) = some mid :=
      slice?_eq_some_iff.mpr ⟨before, rest, htext, hbefore, by omega⟩
    simp only [hslice, hraw]
    rfl

theorem closeEvents_eq {stack : List OpenScope} (h : StackInv s p offset rest stack) (last : Nat) :
    closeEvents s offset last stack = some (s.closeEvents offset last stack) := by
  have hitems : ∀ scope ∈ stack, itemEvents s scope offset = some (s.itemEvents scope offset) := by
    intro scope hscope
    cases stack with
    | nil => cases hscope
    | cons top below =>
      rcases List.mem_cons.mp hscope with rfl | hscope
      · exact itemEvents_eq h.1
      · rw [itemEvents, Source.itemEvents, h.2 scope hscope]
  refine flatMapM_eq_some fun scope hscope => ?_
  rw [hitems scope hscope]
  rfl

theorem openScope_eq {x : Char} {xs : Text} {st : ScopeState} {before : Option Char}
    {header : TableHeader} (h : ScanInv s mode p offset (x :: xs) st)
    (hin : Cursor.In s.text ⟨before, offset, x :: xs⟩)
    (hheader : TableHeader.at? ⟨before, offset, x :: xs⟩ = some header) :
    openScope s mode header st = some (s.openScope mode header st) := by
  have hstart : header.start = offset := TableHeader.start_of_at? hheader
  have htail : ∃ behind, s.text.tail? header.stop = some behind := by
    obtain ⟨m, hm, rfl⟩ := Option.map_eq_some_iff.mp hheader
    obtain ⟨-, w, hw, -⟩ := Pattern.matchAt_eq_some hm
    exact ⟨_, (hin.passes hw).tail?⟩
  obtain ⟨behind, htail⟩ := htail
  unfold openScope Source.openScope
  rw [htail, hstart]
  cases mode with
  | replace =>
    simp only [closeEvents_eq h.stack]
    rfl
  | nested =>
    have hstack := h.stack
    cases hst : st.stack with
    | nil => rfl
    | cons outer below =>
      rw [hst] at hstack
      simp only [itemEvents_eq hstack.1]
      rfl

theorem readChar_eq {x : Char} {xs : Text} {st : ScopeState} (h : ScanInv s mode p offset (x :: xs) st)
    (next : Cursor) : readChar s offset x next st = some (s.readChar offset x next st) := by
  obtain ⟨stack, quote⟩ := st
  have hstack := h.stack
  unfold readChar Source.readChar
  cases stack with
  | nil => rfl
  | cons top below =>
    cases quote with
    | some q => rfl
    | none =>
      simp only [itemEvents_eq hstack.1, closeEvents_eq hstack, OpenScope.deepen]
      split_ifs <;> rfl

theorem eventsFrom_eq {st : ScopeState} (h : ScanInv s mode p offset rest st) (resume : Nat)
    {before : Option Char} (hin : Cursor.In s.text ⟨before, offset, rest⟩) :
    eventsFrom s mode resume st before offset rest =
      some (s.eventsFrom mode resume st before offset rest) := by
  induction rest generalizing p offset st resume before with
  | nil => exact closeEvents_eq h.stack _
  | cons x xs ih =>
    have hnext : Cursor.In s.text ⟨some x, offset + x.utf8Size, xs⟩ := hin.passes (.past rfl)
    rw [eventsFrom, Source.eventsFrom]
    split
    · exact ih h.advance resume hnext
    · cases hheader : (if st.quote.isNone then TableHeader.at? ⟨before, offset, x :: xs⟩ else none) with
      | some header =>
        obtain ⟨hquote, hheader⟩ := quote_eq_none_of_header hheader
        have hstart : header.start = offset := TableHeader.start_of_at? hheader
        obtain ⟨q, -, hinv⟩ := openScope_run h hquote hstart
        simp only [openScope_eq h hin hheader, Option.bind_eq_bind, Option.bind_some,
          ih hinv header.stop hnext]
        rfl
      | none =>
        obtain ⟨q, -, hinv⟩ := readChar_run (some x) h
        simp only [readChar_eq h, Option.bind_eq_bind, Option.bind_some, ih hinv resume hnext]
        rfl

end

@[simp] theorem scopeEvents_eq (s : Source) (mode : ScopeMode) :
    scopeEvents s mode = some (s.scopeEvents mode) :=
  eventsFrom_eq (scanInv_start s mode) 0 ⟨[], .refl _⟩

end Checked

end SchemaReview
