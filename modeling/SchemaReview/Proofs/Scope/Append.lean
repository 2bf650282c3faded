import SchemaReview.Proofs.Pattern.Verbatim
import SchemaReview.Proofs.Scope.Events
import SchemaReview.Proofs.Source.Append

/-!
# Proofs.Scope.Append — the scopes of a script in front of another one

* `Source.scanFrom`: the events of a text together with the scopes that are open behind it.  At the end of
  the script these are closed: `Source.eventsFrom_eq`.
* `OpenScope.place`, `ScopeEvent.shift`: the same scope and the same event where the text stands further
  on.  `openScope_placed`, `readChar_placed`: each step of the scan does the same in both places.
* `eventsFrom_placed`: the scan of a text inside another one gives the events of the text, shifted, and
  goes on with the scopes that the text leaves open.
* `scopeEvents_append`: so a script that leaves nothing open hands nothing over to the one behind it.
-/

namespace SchemaReview

open Text

/-! ## The scopes behind a text -/

namespace Source

variable (s : Source)

/-- The open scopes behind the text, and the events up to there. -/
def scanFrom (mode : ScopeMode) (resume : Nat) (st : ScopeState) (before : Option Char)
    (offset : Nat) : Text → ScopeState × List ScopeEvent
  | [] => (st, [])
  | x :: xs =>
    let next := offset + x.utf8Size
    if offset < resume then scanFrom mode resume st (some x) next xs
    else match (if st.quote.isNone then TableHeader.at? ⟨before, offset, x :: xs⟩ else none) with
      | some header =>
        let step := s.openScope mode header st
        let rest := scanFrom mode header.stop step.1 (some x) next xs
        (rest.1, step.2 ++ rest.2)
      | none =>
        let step := s.readChar offset x ⟨some x, next, xs⟩ st
        let rest := scanFrom mode resume step.1 (some x) next xs
        (rest.1, step.2 ++ rest.2)

/-- The scan of the source up to its end. -/
def scan (mode : ScopeMode) : ScopeState × List ScopeEvent :=
  s.scanFrom mode 0 ⟨[], none⟩ none 0 s.text

/-- The scopes that are open behind the text are closed there. -/
theorem eventsFrom_eq (mode : ScopeMode) (resume : Nat) (st : ScopeState) (before : Option Char)
    (offset : Nat) (t : Text) :
    s.eventsFrom mode resume st before offset t =
      (s.scanFrom mode resume st before offset t).2 ++
        s.closeEvents (offset + byteSize t) (offset + byteSize t - 1)
          (s.scanFrom mode resume st before offset t).1.stack := by
  induction t generalizing resume st before offset with
  | nil => rfl
  | cons x xs ih =>
    rw [eventsFrom, scanFrom, byteSize_cons, ← Nat.add_assoc]
    by_cases hskip : offset < resume
    · rw [if_pos hskip, if_pos hskip]
      exact ih resume st (some x) _
    · rw [if_neg hskip, if_neg hskip]
      cases (if st.quote.isNone then TableHeader.at? ⟨before, offset, x :: xs⟩ else none) with
      | some header => simp only [ih, List.append_assoc]
      | none => simp only [ih, List.append_assoc]

theorem scopeEvents_eq (mode : ScopeMode) :
    s.scopeEvents mode =
      (s.scan mode).2 ++ s.closeEvents s.size (s.size - 1) (s.scan mode).1.stack := by
  rw [scopeEvents, eventsFrom_eq, Nat.zero_add]
  rfl

end Source

/-- The invariant holds behind the text. -/
theorem scanFrom_inv {s : Source} {mode : ScopeMode} {p : Progress} {offset : Nat} {t : Text}
    {st : ScopeState} (h : ScanInv s mode p offset t st) (resume : Nat) (before : Option Char) :
    ∃ q, ScanInv s mode q (offset + byteSize t) []
      (s.scanFrom mode resume st before offset t).1 := by
  induction t generalizing p offset st resume before with
  | nil => exact ⟨p, h⟩
  | cons x xs ih =>
    rw [Source.scanFrom, byteSize_cons, ← Nat.add_assoc]
    split
    · exact ih h.advance resume (some x)
    · split
      · rename_i header hheader
        obtain ⟨hquote, hheader⟩ := quote_eq_none_of_header hheader
        obtain ⟨q, -, hinv⟩ := openScope_run h hquote (TableHeader.start_of_at? hheader)
        exact ih hinv header.stop (some x)
      · obtain ⟨q, -, hinv⟩ := readChar_run (some x) h
        exact ih hinv resume (some x)

/-- The scan is inside the text as long as something is left of it. -/
theorem ScanInv.offset_lt_size {s : Source} {mode : ScopeMode} {p : Progress} {offset : Nat} {x : Char}
    {xs : Text} {st : ScopeState} (h : ScanInv s mode p offset (x :: xs) st) : offset < s.size := by
  obtain ⟨before, htext, hbefore⟩ := h.stands
  have hpos := x.utf8Size_pos
  rw [Source.size, htext, byteSize_append, byteSize_cons]
  omega

/-! ## Events and scopes in another place -/

def TableDecl.shift (d : Shift) (t : TableDecl) : TableDecl :=
  ⟨t.name, d.lines + t.line, d.bytes + t.offset⟩

def Piece.shift (d : Shift) (p : Piece) : Piece := ⟨d.lines + p.line, d.bytes + p.offset, p.text⟩

/-- The event where the text stands further on. -/
def ScopeEvent.shift (d : Shift) : ScopeEvent → ScopeEvent
  | .enter table => .enter (table.shift d)
  | .item table piece => .item (table.shift d) (piece.shift d)
  | .exit table line => .exit (table.shift d) (d.lines + line)

/-- A header where the text stands elsewhere. -/
def TableHeader.moved (start : Nat) (h : TableHeader) : TableHeader :=
  ⟨h.name, start + h.start, start + h.stop⟩

/-- The scope where the text stands further on, with `front` in front of it and `after` behind it. -/
def OpenScope.place (front : Option Char) (d : Shift) (after : Text) (scope : OpenScope) : OpenScope :=
  ⟨scope.table.shift d, scope.depth,
    scope.itemStart.map (Placement.verbatim front d.bytes after).cursor⟩

def ScopeState.place (front : Option Char) (d : Shift) (after : Text) (st : ScopeState) : ScopeState :=
  ⟨st.stack.map (OpenScope.place front d after), st.quote⟩

/-! ## The steps of the scan in both places -/

theorem resumeOuter_placed (front : Option Char) (d : Shift) (after : Text) (next : Cursor)
    (stack : List OpenScope) :
    Source.resumeOuter ((Placement.verbatim front d.bytes after).cursor next)
        (stack.map (.place front d after)) =
      (Source.resumeOuter next stack).map (.place front d after) := by
  cases stack with
  | nil => rfl
  | cons outer rest =>
    have hdepth : (outer.place front d after).depth = outer.depth := rfl
    rw [List.map_cons, Source.resumeOuter, Source.resumeOuter, List.map_cons, hdepth]
    by_cases hopen : 0 < outer.depth
    · rw [if_pos hopen, if_pos hopen]
      rfl
    · rw [if_neg hopen, if_neg hopen]

section

variable {s s' : Source} {mode : ScopeMode} {p : Progress} {offset : Nat} {rest : Text}
  {d : Shift} (hlines : ∀ o < s.size, s'.lineOf (d.bytes + o) = d.lines + s.lineOf o)
  (front : Option Char) (after : Text)

include hlines

theorem itemEvents_placed {top : OpenScope} (h : ItemInv s p offset rest top) :
    s'.itemEvents (top.place front d after) (d.bytes + offset) =
      (s.itemEvents top offset).map (.shift d) := by
  unfold Source.itemEvents OpenScope.place
  rcases hstart : top.itemStart with _ | start
  · rfl
  obtain ⟨before, mid, htext, hbefore, hrest, hoffset, -, -⟩ := h.pending start hstart
  have hraw : takeBytes (offset - start.offset) start.rest = mid := by
    rw [hrest, hoffset, Nat.add_sub_cancel_left, takeBytes_append]
  have hraw' : takeBytes (d.bytes + offset - (d.bytes + start.offset)) (start.rest ++ after) = mid := by
    have hbytes : d.bytes + offset - (d.bytes + start.offset) = byteSize mid := by omega
    rw [hbytes, hrest, List.append_assoc, takeBytes_append]
  simp only [Option.map_some, Placement.cursor, Placement.start_verbatim, Placement.text_verbatim,
    hraw, hraw']
  by_cases hempty : (trim mid).isEmpty = true
  · rw [if_pos hempty, if_pos hempty]
    rfl
  · -- the item has a first character, which stands inside the text
    have hinside : start.offset + byteSize (mid.takeWhile isBlank) < s.size := by
      obtain ⟨c, cs, hcons⟩ := List.exists_cons_of_ne_nil (show trim mid ≠ [] by simpa using hempty)
      have hpos := c.utf8Size_pos
      have hsplit := congrArg byteSize (trim_eq mid)
      rw [byteSize_append, byteSize_append, hcons, byteSize_cons] at hsplit
      rw [Source.size, htext, byteSize_append, byteSize_append]
      omega
    rw [if_neg hempty, if_neg hempty, Nat.add_assoc, hlines _ hinside]
    rfl

theorem closeEvents_placed {stack : List OpenScope} (h : StackInv s p offset rest stack) {last : Nat}
    (hlast : last < s.size) :
    s'.closeEvents (d.bytes + offset) (d.bytes + last) (stack.map (.place front d after)) =
      (s.closeEvents offset last stack).map (.shift d) := by
  have hitems : ∀ scope ∈ stack, s'.itemEvents (scope.place front d after) (d.bytes + offset) =
      (s.itemEvents scope offset).map (.shift d) := by
    intro scope hscope
    cases stack with
    | nil => cases hscope
    | cons top below =>
      rcases List.mem_cons.mp hscope with rfl | hbelow
      · exact itemEvents_placed hlines front after h.1
      · -- suspended scopes have no item under way
        have hnone := h.2 scope hbelow
        simp [Source.itemEvents, OpenScope.place, hnone]
  rw [Source.closeEvents, Source.closeEvents, List.flatMap_map, List.map_flatMap, hlines last hlast]
  refine List.flatMap_congr fun scope hscope => ?_
  rw [hitems scope hscope, List.map_append]
  rfl

theorem openScope_placed {x : Char} {xs : Text} {st : ScopeState} {header : TableHeader}
    (h : ScanInv s mode p offset (x :: xs) st) (hstart : header.start = offset) :
    s'.openScope mode (header.moved d.bytes) (st.place front d after) =
      ((s.openScope mode header st).1.place front d after,
        (s.openScope mode header st).2.map (.shift d)) := by
  have hinside : offset < s.size := h.offset_lt_size
  have hline := hlines offset hinside
  unfold Source.openScope TableHeader.moved
  rw [hstart]
  cases mode with
  | replace =>
    have hclose := closeEvents_placed hlines front after h.stack hinside
    simp only [ScopeState.place, hclose, hline, List.map_append]
    rfl
  | nested =>
    have hstack := h.stack
    rcases hst : st.stack with _ | ⟨outer, below⟩
    · simp only [ScopeState.place, hst, List.map_nil, hline]
      rfl
    · rw [hst] at hstack
      have hflush := itemEvents_placed hlines front after hstack.1
      simp only [ScopeState.place, hst, List.map_cons, hflush, hline, List.map_append]
      rfl

theorem readChar_placed (before : Option Char) {x : Char} {xs : Text} {st : ScopeState}
    (h : ScanInv s mode p offset (x :: xs) st) :
    s'.readChar (d.bytes + offset) x
        ((Placement.verbatim front d.bytes after).cursor ⟨before, offset + x.utf8Size, xs⟩)
        (st.place front d after) =
      ((s.readChar offset x ⟨before, offset + x.utf8Size, xs⟩ st).1.place front d after,
        (s.readChar offset x ⟨before, offset + x.utf8Size, xs⟩ st).2.map (.shift d)) := by
  have hinside : offset < s.size := h.offset_lt_size
  have hline := hlines offset hinside
  obtain ⟨stack, quote⟩ := st
  rcases stack with _ | ⟨top, below⟩
  · rfl
  have hstack : StackInv s p offset (x :: xs) (top :: below) := h.stack
  have hflush := itemEvents_placed hlines front after hstack.1
  have hclose := closeEvents_placed hlines front after hstack hinside
  rcases quote with _ | q
  · simp only [Source.readChar, ScopeState.place, List.map_cons]
    -- the two scans take the same branch
    have hdepth : (top.place front d after).depth = top.depth := rfl
    rw [hdepth]
    by_cases hopens : ((isQuote x || x == '\x60') && decide (0 < top.depth)) = true
    · rw [if_pos hopens, if_pos hopens]
      rfl
    rw [if_neg hopens, if_neg hopens]
    by_cases hparen : x = '('
    · rw [if_pos hparen, if_pos hparen]
      by_cases hzero : top.depth = 0
      · simp only [if_pos hzero]
        rfl
      · simp only [if_neg hzero]
        rfl
    rw [if_neg hparen, if_neg hparen]
    by_cases hends : x = ')' ∧ 0 < top.depth
    · rw [if_pos hends, if_pos hends]
      by_cases hone : top.depth = 1
      · rw [if_pos hone, if_pos hone, hflush, hline, resumeOuter_placed, List.map_append]
        rfl
      · rw [if_neg hone, if_neg hone]
        rfl
    rw [if_neg hends, if_neg hends]
    by_cases hcomma : x = ',' ∧ top.depth = 1
    · rw [if_pos hcomma, if_pos hcomma, hflush]
      rfl
    rw [if_neg hcomma, if_neg hcomma]
    by_cases hsemicolon : x = ';'
    · rw [if_pos hsemicolon, if_pos hsemicolon, ← List.map_cons, hclose]
      rfl
    · rw [if_neg hsemicolon, if_neg hsemicolon]
      rfl
  · rfl

/-! ## The scan of a text inside another one -/

omit hlines in
/-- Where the scan has come to the byte to resume at, that byte does not matter any more. -/
theorem eventsFrom_of_le {resume : Nat} (h : resume ≤ offset) (st : ScopeState) (before : Option Char)
    (t : Text) : s.eventsFrom mode resume st before offset t = s.eventsFrom mode 0 st before offset t := by
  induction t generalizing st before offset with
  | nil => rfl
  | cons x xs ih =>
    rw [Source.eventsFrom, Source.eventsFrom, if_neg (Nat.not_lt.mpr h), if_neg (Nat.not_lt_zero _)]
    split
    · rfl
    · exact congrArg _ (ih (by omega) _ _)

omit hlines in
/-- A header ends in the text it begins in. -/
theorem TableHeader.stop_le_of_at? {before : Option Char} {t : Text} {header : TableHeader}
    (h : TableHeader.at? ⟨before, offset, t⟩ = some header) : header.stop ≤ offset + byteSize t := by
  rw [TableHeader.at?, Option.map_eq_some_iff] at h
  obtain ⟨m, hm, rfl⟩ := h
  obtain ⟨-, w, hw, -⟩ := Pattern.matchAt_eq_some hm
  have hoffset : m.stop.offset = offset + byteSize w := hw.offset
  have hrest : t = w ++ m.stop.rest := hw.rest
  show m.stop.offset ≤ _
  rw [hoffset, hrest, byteSize_append]
  omega

/-- The scan of a text that stands further on, with `front` in front of it and `after` behind it, when
headers are read alike in both places. -/
theorem eventsFrom_placed {t : Text} {st : ScopeState} (h : ScanInv s mode p offset t st)
    (hheader : ∀ before offset x xs, x :: xs <:+ t →
      TableHeader.at? ((Placement.verbatim front d.bytes after).cursor ⟨before, offset, x :: xs⟩) =
        (TableHeader.at? ⟨before, offset, x :: xs⟩).map (.moved d.bytes))
    {resume : Nat} (hresume : resume ≤ offset + byteSize t) (before : Option Char) :
    s'.eventsFrom mode (d.bytes + resume) (st.place front d after) (before.or front)
        (d.bytes + offset) (t ++ after) =
      (s.scanFrom mode resume st before offset t).2.map (.shift d) ++
        s'.eventsFrom mode 0 ((s.scanFrom mode resume st before offset t).1.place front d after)
          ((t.getLast?.or before).or front) (d.bytes + (offset + byteSize t)) after := by
  induction t generalizing p offset st resume before with
  | nil => exact eventsFrom_of_le (Nat.add_le_add_left hresume _) _ _ _
  | cons x xs ih =>
    have hsuffix : ∀ before offset y ys, y :: ys <:+ xs →
        TableHeader.at? ((Placement.verbatim front d.bytes after).cursor ⟨before, offset, y :: ys⟩) =
          (TableHeader.at? ⟨before, offset, y :: ys⟩).map (.moved d.bytes) :=
      fun before offset y ys hys => hheader before offset y ys (hys.trans (List.suffix_cons x xs))
    have hhere := hheader before offset x xs (List.suffix_refl _)
    rw [Placement.cursor_verbatim, List.cons_append] at hhere
    rw [byteSize_cons, ← Nat.add_assoc] at hresume
    rw [List.cons_append, Source.eventsFrom, Source.scanFrom, getLast?_cons_or, byteSize_cons,
      ← Nat.add_assoc offset, Nat.add_assoc d.bytes offset x.utf8Size, hhere]
    have hskip : d.bytes + offset < d.bytes + resume ↔ offset < resume := by omega
    have hquote : (st.place front d after).quote = st.quote := rfl
    rw [hquote]
    by_cases hlt : offset < resume
    · rw [if_pos hlt, if_pos (hskip.mpr hlt)]
      exact ih h.advance hsuffix hresume (some x)
    rw [if_neg hlt, if_neg (mt hskip.mp hlt)]
    have hfind : (if st.quote.isNone then
        (TableHeader.at? ⟨before, offset, x :: xs⟩).map (TableHeader.moved d.bytes) else none) =
          (if st.quote.isNone then TableHeader.at? ⟨before, offset, x :: xs⟩ else none).map
            (TableHeader.moved d.bytes) := by
      split <;> rfl
    rw [hfind]
    cases hfound : (if st.quote.isNone then TableHeader.at? ⟨before, offset, x :: xs⟩ else none) with
    | some header =>
      obtain ⟨hnone, hfound⟩ := quote_eq_none_of_header hfound
      have hstart : header.start = offset := TableHeader.start_of_at? hfound
      have hstop : header.stop ≤ offset + x.utf8Size + byteSize xs := by
        rw [Nat.add_assoc]
        exact TableHeader.stop_le_of_at? hfound
      obtain ⟨r, -, hinv⟩ := openScope_run h hnone hstart
      have hopen := openScope_placed hlines front after h hstart
      simp only [Option.map_some, hopen, List.map_append, List.append_assoc]
      exact congrArg _ (ih hinv hsuffix hstop (some x))
    | none =>
      obtain ⟨r, -, hinv⟩ := readChar_run (some x) h
      have hread := readChar_placed hlines front after (some x) h
      rw [Placement.cursor_verbatim, Option.some_or] at hread
      simp only [Option.map_none, hread, List.map_append, List.append_assoc]
      exact congrArg _ (ih hinv hsuffix hresume (some x))

end

/-! ## A script behind another one -/

/-- Headers are read alike where the pattern is matched alike. -/
theorem TableHeader.at?_placed {front : Option Char} {start : Nat} {after : Text} {c : Cursor}
    (h : Pattern.createTable.matchAt ((Placement.verbatim front start after).cursor c) =
      (Pattern.createTable.matchAt c).map (Placement.verbatim front start after).hit) :
    TableHeader.at? ((Placement.verbatim front start after).cursor c) =
      (TableHeader.at? c).map (.moved start) := by
  rw [TableHeader.at?, TableHeader.at?, h, Option.map_map, Option.map_map]
  cases hm : Pattern.createTable.matchAt c with
  | none => rfl
  | some m =>
    have hname : ((Placement.verbatim front start after).hit m).groupString 1 = m.groupString 1 :=
      congrArg String.ofList (Placement.groupText_hit_verbatim hm 1)
    simp [TableHeader.ofMatch, TableHeader.moved, hname]

/-- A header ends in front of the semicolon, so that nothing behind the line is looked at. -/
theorem TableHeader.at?_placed_of_semicolon {front : Option Char} (hfront : front.any isWord = false)
    {start : Nat} {after t : Text} (ht : [';', '\n'] <:+ t) (before : Option Char) (offset : Nat)
    (x : Char) (xs : Text) (hxs : x :: xs <:+ t) :
    TableHeader.at? ((Placement.verbatim front start after).cursor ⟨before, offset, x :: xs⟩) =
      (TableHeader.at? ⟨before, offset, x :: xs⟩).map (.moved start) := by
  have hstops : Pattern.createTable.stopsAt ';' = true := by decide
  have htransfers : Pattern.createTable.Transfers (.verbatim front start after)
      ([';', '\n'] <:+ ·) ([';', '\n'] <:+ ·) := by
    refine Pattern.transfers_of_stopsAt_of_kept hstops hfront ?_ ?_
    · intro y ys hys hy
      rcases List.suffix_cons_iff.mp hys with heq | hrest
      · exact absurd (List.cons_eq_cons.mp heq).1.symm hy
      · exact hrest
    · intro hnil
      exact absurd (List.suffix_nil.mp hnil) (List.cons_ne_nil _ _)
  rcases List.suffix_or_suffix_of_suffix ht hxs with hin | hin
  · exact TableHeader.at?_placed (htransfers.matchAt hin)
  · rcases List.suffix_cons_iff.mp hin with heq | hlast
    · exact TableHeader.at?_placed (htransfers.matchAt (heq ▸ List.suffix_refl _))
    · -- only the line feed is left
      obtain ⟨rfl, rfl⟩ : x = '\n' ∧ xs = [] := by
        rcases List.suffix_cons_iff.mp hlast with heq | hnil
        · exact List.cons_eq_cons.mp heq
        · exact absurd (List.suffix_nil.mp hnil) (List.cons_ne_nil _ _)
      rw [Placement.cursor_verbatim, List.cons_append,
        TableHeader.at?_eq_none_of_not_holds rfl, TableHeader.at?_eq_none_of_not_holds rfl]
      rfl

/-- The scan of a script behind another text, when no scope is open there. -/
theorem eventsFrom_behind {s s' : Source} {d : Shift}
    (hlines : ∀ o < s.size, s'.lineOf (d.bytes + o) = d.lines + s.lineOf o) {front : Option Char}
    (hfront : front.any isWord = false) (mode : ScopeMode) :
    s'.eventsFrom mode 0 ⟨[], none⟩ front d.bytes s.text = (s.scopeEvents mode).map (.shift d) := by
  have hfloating : Pattern.createTable.floating = true := by decide
  have htransfers := Pattern.transfers_of_floating hfloating front hfront d.bytes
  have hplaced := eventsFrom_placed hlines front [] (scanInv_start s mode)
    (fun before offset x xs _ => TableHeader.at?_placed (htransfers.matchAt trivial))
    (Nat.zero_le _) none
  rw [List.append_nil, Nat.add_zero, Option.none_or, eventsFrom_of_le le_rfl, Nat.zero_add] at hplaced
  obtain ⟨q, hinv⟩ := scanFrom_inv (scanInv_start s mode) 0 none
  rw [Nat.zero_add] at hinv
  refine hplaced.trans ?_
  rw [Source.scopeEvents_eq, List.map_append]
  refine congrArg _ ?_
  -- the scopes that are open at the end are closed on the line of the last byte
  by_cases hempty : s.text = []
  · rw [Source.scan, hempty]
    rfl
  · obtain ⟨x, xs, hcons⟩ := List.exists_cons_of_ne_nil hempty
    have hpos : 0 < s.size := by
      have := x.utf8Size_pos
      rw [Source.size, hcons, byteSize_cons]
      omega
    have hlast : d.bytes + s.size - 1 = d.bytes + (s.size - 1) := by omega
    have hclose := closeEvents_placed hlines front [] hinv.stack (Nat.sub_lt hpos Nat.one_pos)
    rw [← Source.size] at hclose
    rw [Source.eventsFrom, ← Source.size, hlast]
    exact hclose

theorem ScopeEvent.shift_zero (event : ScopeEvent) : event.shift ⟨0, 0⟩ = event := by
  cases event <;> simp [ScopeEvent.shift, TableDecl.shift, Piece.shift]

/-- The scans of two comment-free texts. -/
theorem scopeEvents_ofMasked_append (mode : ScopeMode) {a : Text} (hend : [';', '\n'] <:+ a)
    (hclosed : ((Source.ofMasked a).scan mode).1.stack = []) (b : Text) :
    (Source.ofMasked (a ++ b)).scopeEvents mode = (Source.ofMasked a).scopeEvents mode ++
      ((Source.ofMasked b).scopeEvents mode).map (.shift (Source.shiftOf a)) := by
  have hlast : a.getLast? = some '\n' := by
    obtain ⟨u, rfl⟩ := hend
    rw [List.getLast?_append]
    rfl
  have hline : EndsLine a := by
    intro c hc
    rw [hlast] at hc
    exact (Option.some.inj hc).symm
  -- outside scopes there is no open quote
  have hstate : ((Source.ofMasked a).scan mode).1 = ⟨[], none⟩ := by
    obtain ⟨q, hinv⟩ := scanFrom_inv (scanInv_start (Source.ofMasked a) mode) 0 none
    have hquote : ((Source.ofMasked a).scan mode).1.quote = none := by
      by_contra hopen
      obtain ⟨top, below, hstack, -⟩ := hinv.quoted hopen
      rw [← Source.scan, hclosed] at hstack
      cases hstack
    rw [← hclosed, ← hquote]
  have hfirst : (Source.ofMasked a).scopeEvents mode = ((Source.ofMasked a).scan mode).2 := by
    rw [Source.scopeEvents_eq, hclosed]
    exact List.append_nil _
  have hstay : ∀ o < (Source.ofMasked a).size, (Source.ofMasked (a ++ b)).lineOf (0 + o) =
      0 + (Source.ofMasked a).lineOf o := by
    intro o ho
    rw [Nat.zero_add, Nat.zero_add, Source.lineOf_append_left hline ho]
  have hmove : ∀ o < (Source.ofMasked b).size,
      (Source.ofMasked (a ++ b)).lineOf ((Source.shiftOf a).bytes + o) =
        (Source.shiftOf a).lines + (Source.ofMasked b).lineOf o := by
    intro o ho
    refine Source.lineOf_append_right hline ?_ o
    rintro rfl
    exact absurd ho (Nat.not_lt_zero o)
  have hplaced := eventsFrom_placed (d := ⟨0, 0⟩) hstay none b (scanInv_start _ mode)
    (TableHeader.at?_placed_of_semicolon rfl hend) (Nat.zero_le _) none
  have hbehind := eventsFrom_behind hmove (show (some '\n').any isWord = false from rfl) mode
  have hunmoved : ScopeEvent.shift ⟨0, 0⟩ = id := funext ScopeEvent.shift_zero
  calc (Source.ofMasked (a ++ b)).scopeEvents mode
      = ((Source.ofMasked a).scan mode).2.map (ScopeEvent.shift ⟨0, 0⟩) ++
          (Source.ofMasked (a ++ b)).eventsFrom mode 0
            (((Source.ofMasked a).scan mode).1.place none ⟨0, 0⟩ b) ((a.getLast?.or none).or none)
            (0 + (0 + byteSize a)) b := hplaced
    _ = ((Source.ofMasked a).scan mode).2 ++
          (Source.ofMasked (a ++ b)).eventsFrom mode 0 ⟨[], none⟩ (some '\n') (byteSize a) b := by
        rw [hstate, hlast, hunmoved, List.map_id, Nat.zero_add, Nat.zero_add]
        rfl
    _ = (Source.ofMasked a).scopeEvents mode ++
          ((Source.ofMasked b).scopeEvents mode).map (.shift (Source.shiftOf a)) := by
        rw [hfirst]
        exact congrArg _ hbehind

/-- **Scanning is compositional.**  When a script ends with a semicolon and a line feed, outside quotes and
comments and with no scope open, the events of what stands behind it are those of the second script alone,
further on by the bytes and the lines of the first. -/
theorem scopeEvents_append (mode : ScopeMode) (a b : String)
    (hend : [';', '\n'] <:+ (Source.ofString a).text)
    (hcode : Lexical.code.after a.toList = .code)
    (hclosed : ((Source.ofString a).scan mode).1.stack = []) :
    (Source.ofString (a ++ b)).scopeEvents mode = (Source.ofString a).scopeEvents mode ++
      ((Source.ofString b).scopeEvents mode).map
        (.shift ⟨a.utf8ByteSize, (Source.ofString a).lineCount⟩) := by
  have hblanked : Blanked a.toList (maskComments a.toList) := blanked_maskFrom .code a.toList
  have hmasked : EndsLine (maskComments a.toList) := by
    obtain ⟨u, hu⟩ := hend
    intro c hc
    have htext : maskComments a.toList = u ++ [';', '\n'] := hu.symm
    rw [htext, Option.mem_def, List.getLast?_append] at hc
    exact (Option.some.inj hc).symm
  have hsource : Source.ofString (a ++ b) =
      Source.ofMasked (maskComments a.toList ++ maskComments b.toList) := by
    rw [Source.ofString, Source.ofText, String.toList_append,
      maskComments_append (endsLine_of_blanked hblanked hmasked) hcode]
  have hshift : Source.shiftOf (maskComments a.toList) =
      ⟨a.utf8ByteSize, (Source.ofString a).lineCount⟩ := by
    rw [Source.shiftOf, byteSize_eq_of_blanked hblanked, byteSize_toList]
    rfl
  rw [hsource, ← hshift]
  exact scopeEvents_ofMasked_append mode hend hclosed (maskComments b.toList)

/-- A comment and a table in front, and a table that is not closed behind. -/
theorem scopeEvents_append_comment :
    [';', '\n'] <:+ (Source.ofString "-- one\nCREATE TABLE a (x INT);\n").text ∧
    Lexical.code.after "-- one\nCREATE TABLE a (x INT);\n".toList = .code ∧
    ((Source.ofString "-- one\nCREATE TABLE a (x INT);\n").scan .nested).1.stack = [] ∧
    (Source.ofString ("-- one\nCREATE TABLE a (x INT);\n" ++ "CREATE TABLE b (y INT,")).scopeEvents
        .nested =
      (Source.ofString "-- one\nCREATE TABLE a (x INT);\n").scopeEvents .nested ++
        ((Source.ofString "CREATE TABLE b (y INT,").scopeEvents .nested).map (.shift ⟨31, 2⟩) := by
  have hend : [';', '\n'] <:+ (Source.ofString "-- one\nCREATE TABLE a (x INT);\n").text := by
    decide +kernel
  have hcode : Lexical.code.after "-- one\nCREATE TABLE a (x INT);\n".toList = .code := by
    decide +kernel
  have hclosed : ((Source.ofString "-- one\nCREATE TABLE a (x INT);\n").scan .nested).1.stack = [] := by
    decide +kernel
  exact ⟨hend, hcode, hclosed, scopeEvents_append .nested _ _ hend hcode hclosed⟩

end SchemaReview
