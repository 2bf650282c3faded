import SchemaReview.Proofs.Ddl.TableHeader
import SchemaReview.Proofs.Source.Line
import SchemaReview.Scope.Item

/-!
# Proofs.Scope.Events — the events of table scopes are well formed

* `WellFormedEvents s mode events`: what a reader of the events may rely on.  Tables open and close
  like brackets, items belong to the innermost table and are trimmed pieces of the text from left to
  right, lines do not go back.
* `ScopeEvent.Step` and `EventRun`: what one event, and a list of them, does to the open tables, to
  the bytes given out and to the line.  `EventRun.wellFormed` reads the properties off a run.
* `ScopeState.Inv`: the invariant of the scan.  Only the innermost scope has an item under way, and
  that item begins at an earlier position of the text.
* `readChar_run`, `openScope_run`, `closeEvents_run`: each step of the scan makes a run and keeps the
  invariant.  `eventsFrom_run`: so does the whole scan.
-/

namespace SchemaReview

open Text

/-! ## What well-formed events are -/

/-- The line of an event. -/
def ScopeEvent.line : ScopeEvent → Nat
  | .enter table => table.line
  | .item _ piece => piece.line
  | .exit _ line => line

/-- The tables that are open after the events, innermost first, when `tables` were open before.  An
item and an exit must be those of the innermost table. -/
def openTables : List TableDecl → List ScopeEvent → Option (List TableDecl)
  | tables, [] => some tables
  | tables, .enter table :: events => openTables (table :: tables) events
  | [], _ :: _ => none
  | table :: tables, .item owner _ :: events =>
    if owner = table then openTables (table :: tables) events else none
  | table :: tables, .exit owner _ :: events =>
    if owner = table then openTables tables events else none

/-- A piece of the source as items are: trimmed, not empty, and standing where it says. -/
structure Source.IsItem (s : Source) (piece : Piece) : Prop where
  ne_nil : piece.text ≠ []
  trimmed : Trimmed piece.text
  stands : ∃ before after, s.text = before ++ piece.text ++ after ∧ byteSize before = piece.offset
  line_eq : piece.line = s.lineOf piece.offset

/-- The first item ends before the second begins. -/
def TableItem.Precedes (a b : TableItem) : Prop :=
  a.piece.offset < b.piece.offset ∧ a.piece.offset + byteSize a.piece.text ≤ b.piece.offset

/-- The bytes that an event gives out: the first one of a header, or those of an item. -/
def ScopeEvent.range? : ScopeEvent → Option (Nat × Nat)
  | .enter table => some (table.offset, table.offset + 1)
  | .item _ piece => some (piece.offset, piece.offset + byteSize piece.text)
  | .exit .. => none

/-- What holds of the events of a scan. -/
structure WellFormedEvents (s : Source) (mode : ScopeMode) (events : List ScopeEvent) : Prop where
  /-- Every table that is entered is left, and an item or an exit is that of the innermost one. -/
  bracketed : openTables [] events = some []
  /-- Where tables replace each other, at most one is open at any time. -/
  single : mode = .replace → ∀ before after, events = before ++ after →
    ∃ tables, openTables [] before = some tables ∧ tables.length ≤ 1
  /-- No two tables are declared at the same byte. -/
  declared : (events.filterMap ScopeEvent.opened?).Pairwise fun a b => a.offset < b.offset
  ordered : (events.filterMap ScopeEvent.item?).Pairwise TableItem.Precedes
  items : ∀ item ∈ events.filterMap ScopeEvent.item?, s.IsItem item.piece
  lines : (events.map ScopeEvent.line).Pairwise (· ≤ ·)

/-! ## Runs of events -/

/-- What the events so far leave behind. -/
structure Progress where
  /-- The open tables, innermost first. -/
  tables : List TableDecl
  /-- Headers and items to come begin at this byte or later. -/
  settled : Nat
  /-- The line of the last event. -/
  line : Nat

/-- What an event may do. -/
inductive ScopeEvent.Step (s : Source) (mode : ScopeMode) : Progress → ScopeEvent → Progress → Prop
  | enter {p : Progress} {table : TableDecl} (hmode : mode = .replace → p.tables = [])
      (hsettled : p.settled ≤ table.offset) (hline : p.line ≤ table.line) :
      Step s mode p (.enter table) ⟨table :: p.tables, table.offset + 1, table.line⟩
  | item {p : Progress} {table : TableDecl} {tables : List TableDecl} {piece : Piece}
      (hopen : p.tables = table :: tables) (hitem : s.IsItem piece)
      (hsettled : p.settled ≤ piece.offset) (hline : p.line ≤ piece.line) :
      Step s mode p (.item table piece)
        ⟨p.tables, piece.offset + byteSize piece.text, piece.line⟩
  | exit {p : Progress} {table : TableDecl} {tables : List TableDecl} {line : Nat}
      (hopen : p.tables = table :: tables) (hline : p.line ≤ line) :
      Step s mode p (.exit table line) ⟨tables, p.settled, line⟩

/-- What a list of events may do. -/
inductive EventRun (s : Source) (mode : ScopeMode) : Progress → List ScopeEvent → Progress → Prop
  | nil {p : Progress} : EventRun s mode p [] p
  | cons {p q r : Progress} {event : ScopeEvent} {events : List ScopeEvent}
      (hstep : event.Step s mode p q) (hrun : EventRun s mode q events r) :
      EventRun s mode p (event :: events) r

namespace EventRun

variable {s : Source} {mode : ScopeMode} {p q r : Progress} {events events' : List ScopeEvent}

theorem append (h : EventRun s mode p events q) (h' : EventRun s mode q events' r) :
    EventRun s mode p (events ++ events') r := by
  induction h with
  | nil => exact h'
  | cons hstep _ ih => exact .cons hstep (ih h')

theorem single {event : ScopeEvent} (h : event.Step s mode p q) : EventRun s mode p [event] q :=
  .cons h .nil

theorem exists_of_append (h : EventRun s mode p (events ++ events') r) :
    ∃ q, EventRun s mode p events q ∧ EventRun s mode q events' r := by
  induction events generalizing p with
  | nil => exact ⟨p, .nil, h⟩
  | cons event events ih =>
    cases h with
    | cons hstep hrun =>
      obtain ⟨q, hq, hr⟩ := ih hrun
      exact ⟨q, .cons hstep hq, hr⟩

theorem openTables (h : EventRun s mode p events q) :
    SchemaReview.openTables p.tables events = some q.tables := by
  induction h with
  | nil => cases hp : Progress.tables _ <;> rfl
  | cons hstep _ ih =>
    cases hstep with
    | enter => exact ih
    | item hopen =>
      rw [hopen] at ih ⊢
      rw [SchemaReview.openTables, if_pos rfl]
      exact ih
    | exit hopen =>
      rw [hopen, SchemaReview.openTables, if_pos rfl]
      exact ih

/-- Where tables replace each other, one event leaves at most one open. -/
theorem length_tables_le (h : EventRun s .replace p events q) (hp : p.tables.length ≤ 1) :
    q.tables.length ≤ 1 := by
  induction h with
  | nil => exact hp
  | cons hstep _ ih =>
    refine ih ?_
    cases hstep with
    | enter hmode => simp [hmode rfl]
    | item => exact hp
    | exit hopen =>
      rw [hopen, List.length_cons] at hp
      exact (Nat.le_succ _).trans hp

theorem lines (h : EventRun s mode p events q) :
    (∀ event ∈ events, p.line ≤ event.line) ∧ (events.map ScopeEvent.line).Pairwise (· ≤ ·) := by
  induction h with
  | nil => simp
  | @cons p q r event events hstep _ ih =>
    have hevent : p.line ≤ event.line ∧ q.line = event.line := by
      cases hstep with
      | enter _ _ hline => exact ⟨hline, rfl⟩
      | item _ _ _ hline => exact ⟨hline, rfl⟩
      | exit _ hline => exact ⟨hline, rfl⟩
    refine ⟨fun e he => ?_, ?_⟩
    · rcases List.mem_cons.mp he with rfl | he
      · exact hevent.1
      · have := ih.1 e he
        omega
    · rw [List.map_cons, List.pairwise_cons]
      refine ⟨fun line hmem => ?_, ih.2⟩
      obtain ⟨e, he, rfl⟩ := List.mem_map.mp hmem
      exact hevent.2 ▸ ih.1 e he

/-- Bytes are given out from left to right. -/
theorem ranges (h : EventRun s mode p events q) :
    (∀ event ∈ events, ∀ range ∈ event.range?, p.settled ≤ range.1) ∧
      events.Pairwise fun a b => ∀ ra ∈ a.range?, ∀ rb ∈ b.range?, ra.2 ≤ rb.1 := by
  induction h with
  | nil => simp
  | @cons p q r event events hstep _ ih =>
    have hevent : (∀ range ∈ event.range?, p.settled ≤ range.1 ∧ range.2 = q.settled) ∧
        p.settled ≤ q.settled := by
      cases hstep with
      | enter _ hsettled => simpa [ScopeEvent.range?] using ⟨hsettled, Nat.le_succ_of_le hsettled⟩
      | item _ _ hsettled =>
        simpa [ScopeEvent.range?] using ⟨hsettled, Nat.le_add_right_of_le hsettled⟩
      | exit => simp [ScopeEvent.range?]
    refine ⟨fun e he range hrange => ?_, List.pairwise_cons.mpr ⟨fun e he ra hra rb hrb => ?_, ih.2⟩⟩
    · rcases List.mem_cons.mp he with rfl | he
      · exact (hevent.1 range hrange).1
      · exact hevent.2.trans (ih.1 e he range hrange)
    · rw [(hevent.1 ra hra).2]
      exact ih.1 e he rb hrb

theorem items (h : EventRun s mode p events q) :
    ∀ item ∈ events.filterMap ScopeEvent.item?, s.IsItem item.piece := by
  intro item hitem
  obtain ⟨event, hevent, hsome⟩ := List.mem_filterMap.mp hitem
  obtain ⟨before, after, rfl⟩ := List.append_of_mem hevent
  obtain ⟨r, -, hrest⟩ := exists_of_append h
  cases hrest with
  | cons hstep =>
    cases hstep with
    | enter => simp [ScopeEvent.item?] at hsome
    | exit => simp [ScopeEvent.item?] at hsome
    | item _ hpiece =>
      obtain rfl : _ = item := Option.some.inj hsome
      exact hpiece

/-- An item stands behind the header of its table. -/
theorem table_mem (h : EventRun s mode p events q) :
    ∀ item ∈ events.filterMap ScopeEvent.item?,
      item.table ∈ p.tables ∨ item.table ∈ events.filterMap ScopeEvent.opened? := by
  induction h with
  | nil => simp
  | @cons p q r event events hstep _ ih =>
    intro item hitem
    cases hstep with
    | enter =>
      rcases ih item hitem with h | h
      · rcases List.mem_cons.mp h with h | h
        · exact Or.inr (by simp [ScopeEvent.opened?, h])
        · exact Or.inl h
      · exact Or.inr (List.mem_cons_of_mem _ h)
    | item hopen =>
      rcases List.mem_cons.mp hitem with rfl | hitem
      · exact Or.inl (by simp [hopen])
      · exact ih item hitem
    | exit hopen =>
      rcases ih item hitem with h | h
      · exact Or.inl (by rw [hopen]; exact List.mem_cons_of_mem _ h)
      · exact Or.inr h

/-- A run from nothing to nothing is well formed. -/
theorem wellFormed (h : EventRun s mode p events q) (hp : p.tables = []) (hq : q.tables = []) :
    WellFormedEvents s mode events where
  bracketed := by
    have hopen := h.openTables
    rwa [hp, hq] at hopen
  single := by
    rintro rfl before after rfl
    obtain ⟨r, hr, -⟩ := exists_of_append h
    refine ⟨r.tables, ?_, hr.length_tables_le (by simp [hp])⟩
    rw [← hp]
    exact hr.openTables
  declared := by
    refine List.Pairwise.filterMap _ ?_ h.ranges.2
    intro a b hab ta hta tb htb
    cases a <;> cases hta
    cases b <;> cases htb
    exact hab _ rfl _ rfl
  ordered := by
    -- an item has at least one byte, so where it ends is behind where it begins
    have hpos : ∀ item ∈ events.filterMap ScopeEvent.item?, 0 < byteSize item.piece.text := by
      intro item hitem
      obtain ⟨c, cs, hcons⟩ := List.exists_cons_of_ne_nil (h.items item hitem).ne_nil
      have := c.utf8Size_pos
      rw [hcons, byteSize_cons]
      omega
    have hends : (events.filterMap ScopeEvent.item?).Pairwise fun a b =>
        a.piece.offset + byteSize a.piece.text ≤ b.piece.offset := by
      refine List.Pairwise.filterMap _ ?_ h.ranges.2
      intro a b hab ta hta tb htb
      cases a <;> cases hta
      cases b <;> cases htb
      exact hab _ rfl _ rfl
    refine hends.imp_of_mem fun {a b} ha hb hab => ⟨?_, hab⟩
    have := hpos a ha
    omega
  items := h.items
  lines := h.lines.2

end EventRun

/-! ## The invariant of the scan -/

/-- The innermost scope at byte `offset`, in front of `rest`: an item is under way exactly inside
parentheses, and it began behind everything that was given out. -/
structure ItemInv (s : Source) (p : Progress) (offset : Nat) (rest : Text) (top : OpenScope) :
    Prop where
  isSome_iff : top.itemStart.isSome = true ↔ 0 < top.depth
  pending : ∀ start ∈ top.itemStart, ∃ before mid, s.text = before ++ mid ++ rest ∧
    byteSize before = start.offset ∧ start.rest = mid ++ rest ∧
    offset = start.offset + byteSize mid ∧ p.settled ≤ start.offset ∧
    p.line ≤ s.lineOf start.offset

/-- The open scopes: only the innermost one has an item under way. -/
def StackInv (s : Source) (p : Progress) (offset : Nat) (rest : Text) : List OpenScope → Prop
  | [] => True
  | top :: below => ItemInv s p offset rest top ∧ ∀ scope ∈ below, scope.itemStart = none

/-- The invariant of the scan at byte `offset`, in front of `rest`, after events that left `p`. -/
structure ScanInv (s : Source) (mode : ScopeMode) (p : Progress) (offset : Nat) (rest : Text)
    (st : ScopeState) : Prop where
  stands : ∃ before, s.text = before ++ rest ∧ byteSize before = offset
  tables : p.tables = st.stack.map (·.table)
  settled : p.settled ≤ offset
  line : p.line ≤ s.lineOf (offset - 1)
  stack : StackInv s p offset rest st.stack
  quoted : st.quote ≠ none → ∃ top below, st.stack = top :: below ∧ 0 < top.depth
  single : mode = .replace → st.stack.length ≤ 1

variable {s : Source} {mode : ScopeMode} {p : Progress} {offset : Nat} {rest : Text}

theorem ItemInv.advance {x : Char} {xs : Text} {top : OpenScope}
    (h : ItemInv s p offset (x :: xs) top) : ItemInv s p (offset + x.utf8Size) xs top := by
  refine ⟨h.isSome_iff, fun start hstart => ?_⟩
  obtain ⟨before, mid, htext, hbefore, hrest, hoffset, hsettled, hline⟩ := h.pending start hstart
  refine ⟨before, mid ++ [x], by simp [htext], hbefore, by simp [hrest], ?_, hsettled, hline⟩
  rw [byteSize_append, byteSize_cons, byteSize_nil]
  omega

theorem StackInv.advance {x : Char} {xs : Text} {stack : List OpenScope}
    (h : StackInv s p offset (x :: xs) stack) : StackInv s p (offset + x.utf8Size) xs stack := by
  cases stack with
  | nil => trivial
  | cons top below => exact ⟨h.1.advance, h.2⟩

theorem stands_advance {x : Char} {xs : Text}
    (h : ∃ before, s.text = before ++ x :: xs ∧ byteSize before = offset) :
    ∃ before, s.text = before ++ xs ∧ byteSize before = offset + x.utf8Size := by
  obtain ⟨before, htext, hbefore⟩ := h
  exact ⟨before ++ [x], by simp [htext], by simp [hbefore]⟩

/-- Passing over a character keeps the invariant. -/
theorem ScanInv.advance {x : Char} {xs : Text} {st : ScopeState}
    (h : ScanInv s mode p offset (x :: xs) st) : ScanInv s mode p (offset + x.utf8Size) xs st where
  stands := stands_advance h.stands
  tables := h.tables
  settled := Nat.le_add_right_of_le h.settled
  line := h.line.trans (s.lineOf_mono (by omega))
  stack := h.stack.advance
  quoted := h.quoted
  single := h.single

/-- An item that begins right behind the character at hand. -/
theorem ItemInv.begins {x : Char} {xs : Text} {before : Option Char} {table : TableDecl}
    {depth : Nat} (hstands : ∃ front, s.text = front ++ x :: xs ∧ byteSize front = offset)
    (hdepth : 0 < depth) (hsettled : p.settled ≤ offset) (hline : p.line ≤ s.lineOf offset) :
    ItemInv s p (offset + x.utf8Size) xs
      ⟨table, depth, some ⟨before, offset + x.utf8Size, xs⟩⟩ := by
  refine ⟨by simpa using hdepth, fun start hstart => ?_⟩
  obtain rfl := Option.some.inj hstart
  obtain ⟨front, htext, hfront⟩ := stands_advance hstands
  exact ⟨front, [], by simpa using htext, hfront, rfl, rfl, Nat.le_add_right_of_le hsettled,
    hline.trans (s.lineOf_mono (Nat.le_add_right _ _))⟩

/-! ## Giving items out -/

/-- What is left behind when an item that ends at byte `offset` has been given out. -/
structure Flushed (s : Source) (offset : Nat) (p q : Progress) : Prop where
  tables : q.tables = p.tables
  settled : q.settled ≤ offset
  line : q.line ≤ s.lineOf (offset - 1)

theorem itemEvents_run (mode : ScopeMode) {top : OpenScope} {tables : List TableDecl}
    (h : ItemInv s p offset rest top) (htables : p.tables = top.table :: tables)
    (hsettled : p.settled ≤ offset) (hline : p.line ≤ s.lineOf (offset - 1)) :
    ∃ q, EventRun s mode p (s.itemEvents top offset) q ∧ Flushed s offset p q := by
  unfold Source.itemEvents
  rcases hstart : top.itemStart with _ | start
  · exact ⟨p, .nil, rfl, hsettled, hline⟩
  obtain ⟨before, mid, htext, hbefore, hrest, hoffset, hsettled', hline'⟩ := h.pending start hstart
  have hraw : takeBytes (offset - start.offset) start.rest = mid := by
    rw [hrest, hoffset, Nat.add_sub_cancel_left, takeBytes_append]
  simp only [hraw]
  by_cases hempty : (trim mid).isEmpty = true
  · rw [if_pos hempty]
    exact ⟨p, .nil, rfl, hsettled, hline⟩
  rw [if_neg hempty]
  have hne : trim mid ≠ [] := by simpa using hempty
  have hsplit := trim_eq mid
  have hsize : byteSize mid = byteSize (mid.takeWhile isBlank) + byteSize (trim mid) +
      byteSize (trailingBlanks (trimStart mid)) := by
    rw [← byteSize_append, ← byteSize_append, hsplit]
  have hpos : 0 < byteSize (trim mid) := by
    obtain ⟨c, cs, hcons⟩ := List.exists_cons_of_ne_nil hne
    have := c.utf8Size_pos
    rw [hcons, byteSize_cons]
    omega
  refine ⟨_, .single (.item htables ⟨hne, trimmed_trim mid, ?_, rfl⟩ ?_ ?_), rfl, ?_, ?_⟩
  · refine ⟨before ++ mid.takeWhile isBlank, trailingBlanks (trimStart mid) ++ rest, ?_, ?_⟩
    · calc s.text = before ++ mid ++ rest := htext
        _ = before ++ (mid.takeWhile isBlank ++ trim mid ++ trailingBlanks (trimStart mid)) ++
            rest := by rw [hsplit]
        _ = before ++ mid.takeWhile isBlank ++ trim mid ++
            (trailingBlanks (trimStart mid) ++ rest) := by simp
    · rw [byteSize_append, hbefore]
  · exact Nat.le_add_right_of_le hsettled'
  · exact hline'.trans (s.lineOf_mono (Nat.le_add_right _ _))
  · show start.offset + byteSize (mid.takeWhile isBlank) + byteSize (trim mid) ≤ offset
    omega
  · exact s.lineOf_mono (by omega)

/-- Suspended scopes are only left. -/
theorem suspended_run (mode : ScopeMode) (stop last : Nat) {stack : List OpenScope}
    (hsuspended : ∀ scope ∈ stack, scope.itemStart = none)
    (htables : p.tables = stack.map (·.table)) (hline : p.line ≤ s.lineOf last) :
    ∃ q, EventRun s mode p (s.closeEvents stop last stack) q ∧ q.tables = [] ∧
      q.settled = p.settled ∧ q.line ≤ s.lineOf last := by
  induction stack generalizing p with
  | nil => exact ⟨p, .nil, htables, rfl, hline⟩
  | cons top below ih =>
    have hnone : s.itemEvents top stop = [] := by
      rw [Source.itemEvents, hsuspended top List.mem_cons_self]
    obtain ⟨q, hq, hqtables, hqsettled, hqline⟩ :=
      ih (p := ⟨below.map (·.table), p.settled, s.lineOf last⟩)
        (fun scope hscope => hsuspended scope (List.mem_cons_of_mem _ hscope)) rfl le_rfl
    refine ⟨q, ?_, hqtables, hqsettled, hqline⟩
    rw [Source.closeEvents, List.flatMap_cons, hnone]
    exact .cons (.exit htables hline) hq

/-- Closing all scopes at byte `offset`, on the line of that byte or of the one before. -/
theorem closeEvents_run (mode : ScopeMode) {stack : List OpenScope} {last : Nat}
    (h : StackInv s p offset rest stack) (htables : p.tables = stack.map (·.table))
    (hsettled : p.settled ≤ offset) (hline : p.line ≤ s.lineOf (offset - 1))
    (hlast : offset - 1 ≤ last) :
    ∃ q, EventRun s mode p (s.closeEvents offset last stack) q ∧ q.tables = [] ∧
      q.settled ≤ offset ∧ q.line ≤ s.lineOf last := by
  cases stack with
  | nil => exact ⟨p, .nil, htables, hsettled, hline.trans (s.lineOf_mono hlast)⟩
  | cons top below =>
    obtain ⟨q, hq, hflush⟩ := itemEvents_run mode h.1 htables hsettled hline
    obtain ⟨r, hr, hrtables, hrsettled, hrline⟩ :=
      suspended_run (s := s) (p := ⟨below.map (·.table), q.settled, s.lineOf last⟩) mode offset last
        h.2 rfl le_rfl
    refine ⟨r, ?_, hrtables, hrsettled.trans_le hflush.settled, hrline⟩
    rw [Source.closeEvents, List.flatMap_cons]
    refine (hq.append (.single (.exit (hflush.tables.trans htables) ?_))).append hr
    exact hflush.line.trans (s.lineOf_mono hlast)

/-! ## The steps of the scan -/

/-- The invariant behind the character at hand, outside quotes. -/
theorem scanInv_next {x : Char} {xs : Text} {q : Progress} {stack : List OpenScope}
    (hstands : ∃ before, s.text = before ++ x :: xs ∧ byteSize before = offset)
    (htables : q.tables = stack.map (·.table)) (hsettled : q.settled ≤ offset + 1)
    (hline : q.line ≤ s.lineOf offset) (hstack : StackInv s q (offset + x.utf8Size) xs stack)
    (hsingle : mode = .replace → stack.length ≤ 1) :
    ScanInv s mode q (offset + x.utf8Size) xs ⟨stack, none⟩ := by
  have hpos := x.utf8Size_pos
  refine ⟨stands_advance hstands, htables, by omega, ?_, hstack, by simp, hsingle⟩
  exact hline.trans (s.lineOf_mono (by omega))

/-- Entering a table at the byte at hand. -/
theorem scanInv_enter {x : Char} {xs : Text} {q : Progress} {table : TableDecl}
    {below : List OpenScope}
    (hstands : ∃ before, s.text = before ++ x :: xs ∧ byteSize before = offset)
    (htable : table.offset = offset) (hline : table.line = s.lineOf offset)
    (hq : q.tables = below.map (·.table)) (hsuspended : ∀ scope ∈ below, scope.itemStart = none)
    (hsingle : mode = .replace → below = []) :
    ScanInv s mode ⟨table :: q.tables, table.offset + 1, table.line⟩ (offset + x.utf8Size) xs
      ⟨⟨table, 0, none⟩ :: below, none⟩ := by
  refine scanInv_next hstands (by rw [hq]; rfl) ?_ (le_of_eq hline) ⟨?_, hsuspended⟩ ?_
  · rw [htable]
  · exact ⟨by simp, by simp⟩
  · intro hmode
    simp [hsingle hmode]

/-- Headers are read outside quotes only. -/
theorem quote_eq_none_of_header {quote : Option Char} {c : Cursor} {header : TableHeader}
    (h : (if quote.isNone then TableHeader.at? c else none) = some header) :
    quote = none ∧ TableHeader.at? c = some header := by
  cases quote with
  | none => exact ⟨rfl, h⟩
  | some q => cases h

/-- A header at the byte at hand makes a run and keeps the invariant. -/
theorem openScope_run {x : Char} {xs : Text} {st : ScopeState} {header : TableHeader}
    (h : ScanInv s mode p offset (x :: xs) st) (hquote : st.quote = none)
    (hstart : header.start = offset) :
    ∃ q, EventRun s mode p (s.openScope mode header st).2 q ∧
      ScanInv s mode q (offset + x.utf8Size) xs (s.openScope mode header st).1 := by
  have hline : p.line ≤ s.lineOf offset := h.line.trans (s.lineOf_mono (Nat.sub_le _ _))
  unfold Source.openScope
  rw [hquote, hstart]
  cases mode with
  | replace =>
    obtain ⟨q, hq, hqtables, hqsettled, hqline⟩ :=
      closeEvents_run .replace h.stack h.tables h.settled h.line (Nat.sub_le offset 1)
    refine ⟨_, hq.append (.single (.enter (fun _ => hqtables) hqsettled hqline)), ?_⟩
    exact scanInv_enter h.stands rfl rfl hqtables (by simp) (fun _ => rfl)
  | nested =>
    have hstack := h.stack
    have htables := h.tables
    rcases hst : st.stack with _ | ⟨outer, below⟩
    · rw [hst] at htables
      refine ⟨_, .single (.enter nofun h.settled hline), ?_⟩
      exact scanInv_enter h.stands rfl rfl htables (by simp) nofun
    · rw [hst] at hstack htables
      obtain ⟨q, hq, hflush⟩ := itemEvents_run .nested hstack.1 htables h.settled h.line
      have hqline : q.line ≤ s.lineOf offset := hflush.line.trans (s.lineOf_mono (Nat.sub_le _ _))
      refine ⟨_, hq.append (.single (.enter nofun hflush.settled hqline)), ?_⟩
      refine scanInv_enter h.stands rfl rfl (hflush.tables.trans htables) ?_ nofun
      -- the outer scope is suspended from here on
      intro scope hscope
      rcases List.mem_cons.mp hscope with rfl | hscope
      · rfl
      · exact hstack.2 scope hscope

/-- Opening or closing a quote keeps the invariant. -/
theorem ScanInv.setQuote {st : ScopeState} (h : ScanInv s mode p offset rest st)
    {quote : Option Char}
    (hquote : quote ≠ none → ∃ top below, st.stack = top :: below ∧ 0 < top.depth) :
    ScanInv s mode p offset rest ⟨st.stack, quote⟩ :=
  ⟨h.stands, h.tables, h.settled, h.line, h.stack, hquote, h.single⟩

/-- The scope with one more parenthesis open; the first one begins an item. -/
def OpenScope.deepen (top : OpenScope) (next : Cursor) : OpenScope :=
  { top with
    depth := top.depth + 1
    itemStart := if top.depth = 0 then some next else top.itemStart }

/-- What a character outside quotes can do to the scopes. -/
theorem readChar_cases (s : Source) (offset : Nat) (x : Char) (next : Cursor) (top : OpenScope)
    (below : List OpenScope) :
    (0 < top.depth ∧ s.readChar offset x next ⟨top :: below, none⟩ = (⟨top :: below, some x⟩, [])) ∨
    (x = '(' ∧ s.readChar offset x next ⟨top :: below, none⟩ =
      (⟨top.deepen next :: below, none⟩, [])) ∨
    (x = ')' ∧ top.depth = 1 ∧ s.readChar offset x next ⟨top :: below, none⟩ =
      (⟨Source.resumeOuter next below, none⟩,
        s.itemEvents top offset ++ [.exit top.table (s.lineOf offset)])) ∨
    (x = ')' ∧ 1 < top.depth ∧ s.readChar offset x next ⟨top :: below, none⟩ =
      (⟨{ top with depth := top.depth - 1 } :: below, none⟩, [])) ∨
    (x = ',' ∧ top.depth = 1 ∧ s.readChar offset x next ⟨top :: below, none⟩ =
      (⟨{ top with itemStart := some next } :: below, none⟩, s.itemEvents top offset)) ∨
    (x = ';' ∧ s.readChar offset x next ⟨top :: below, none⟩ =
      (⟨[], none⟩, s.closeEvents offset offset (top :: below))) ∨
    s.readChar offset x next ⟨top :: below, none⟩ = (⟨top :: below, none⟩, []) := by
  unfold Source.readChar
  dsimp only
  by_cases hopens : ((isQuote x || x == '\x60') && decide (0 < top.depth)) = true
  · rw [Bool.and_eq_true, decide_eq_true_eq] at hopens
    simp [hopens]
  rw [if_neg hopens]
  by_cases hparen : x = '('
  · simp [hparen, OpenScope.deepen]
  rw [if_neg hparen]
  by_cases hclose : x = ')' ∧ 0 < top.depth
  · rw [if_pos hclose]
    by_cases hdepth : top.depth = 1
    · simp [hclose.1, hdepth]
    · have hlt : 1 < top.depth := by omega
      simp [hclose.1, hdepth, hlt]
  rw [if_neg hclose]
  by_cases hcomma : x = ',' ∧ top.depth = 1
  · simp [hcomma]
  rw [if_neg hcomma]
  by_cases hsemicolon : x = ';'
  · simp [hsemicolon]
  · simp [hsemicolon]

theorem ItemInv.deepen {x : Char} {xs : Text} {before : Option Char} {top : OpenScope}
    (h : ItemInv s p offset (x :: xs) top)
    (hstands : ∃ front, s.text = front ++ x :: xs ∧ byteSize front = offset)
    (hsettled : p.settled ≤ offset) (hline : p.line ≤ s.lineOf offset) :
    ItemInv s p (offset + x.utf8Size) xs (top.deepen ⟨before, offset + x.utf8Size, xs⟩) := by
  unfold OpenScope.deepen
  by_cases hdepth : top.depth = 0
  · rw [if_pos hdepth]
    exact .begins hstands (Nat.succ_pos _) hsettled hline
  · rw [if_neg hdepth]
    have hsome : top.itemStart.isSome = true := h.isSome_iff.mpr (Nat.pos_of_ne_zero hdepth)
    exact ⟨by simp [hsome], h.advance.pending⟩

/-- A closing parenthesis inside an item. -/
theorem ItemInv.lift {top : OpenScope} (h : ItemInv s p offset rest top) (hdepth : 1 < top.depth) :
    ItemInv s p offset rest { top with depth := top.depth - 1 } := by
  have hsome : top.itemStart.isSome = true := h.isSome_iff.mpr (by omega)
  refine ⟨?_, h.pending⟩
  simp only [hsome, true_iff]
  omega

/-- The enclosing scope goes on behind the character at hand. -/
theorem StackInv.resume {x : Char} {xs : Text} {before : Option Char} {below : List OpenScope}
    (hsuspended : ∀ scope ∈ below, scope.itemStart = none)
    (hstands : ∃ front, s.text = front ++ x :: xs ∧ byteSize front = offset)
    (hsettled : p.settled ≤ offset) (hline : p.line ≤ s.lineOf offset) :
    StackInv s p (offset + x.utf8Size) xs
      (Source.resumeOuter ⟨before, offset + x.utf8Size, xs⟩ below) := by
  cases below with
  | nil => trivial
  | cons outer below =>
    refine ⟨?_, fun scope hscope => hsuspended scope (List.mem_cons_of_mem _ hscope)⟩
    by_cases hdepth : 0 < outer.depth
    · rw [if_pos hdepth]
      exact .begins hstands hdepth hsettled hline
    · rw [if_neg hdepth]
      have hnone := hsuspended outer List.mem_cons_self
      exact ⟨by simp [hnone, hdepth], by simp [hnone]⟩

theorem map_table_resumeOuter (next : Cursor) (below : List OpenScope) :
    (Source.resumeOuter next below).map (·.table) = below.map (·.table) := by
  cases below with
  | nil => rfl
  | cons outer below =>
    simp only [Source.resumeOuter, List.map_cons]
    split <;> rfl

/-- A character that starts no header makes a run and keeps the invariant. -/
theorem readChar_run {x : Char} {xs : Text} (before : Option Char) {st : ScopeState}
    (h : ScanInv s mode p offset (x :: xs) st) :
    ∃ q, EventRun s mode p (s.readChar offset x ⟨before, offset + x.utf8Size, xs⟩ st).2 q ∧
      ScanInv s mode q (offset + x.utf8Size) xs
        (s.readChar offset x ⟨before, offset + x.utf8Size, xs⟩ st).1 := by
  have hline : p.line ≤ s.lineOf offset := h.line.trans (s.lineOf_mono (Nat.sub_le _ _))
  have hsettled : p.settled ≤ offset + 1 := Nat.le_succ_of_le h.settled
  obtain ⟨stack, quote⟩ := st
  rcases stack with _ | ⟨top, below⟩
  · exact ⟨p, .nil, h.advance⟩
  have hstack : StackInv s p offset (x :: xs) (top :: below) := h.stack
  have htables : p.tables = top.table :: below.map (·.table) := h.tables
  have hsingle : mode = .replace → (top :: below).length ≤ 1 := h.single
  rcases quote with _ | q
  · rcases readChar_cases s offset x ⟨before, offset + x.utf8Size, xs⟩ top below with
      ⟨hdepth, hread⟩ | ⟨-, hread⟩ | ⟨-, -, hread⟩ | ⟨-, hdepth, hread⟩ | ⟨-, hdepth, hread⟩ |
      ⟨-, hread⟩ | hread <;> rw [hread]
    · -- a quote opens
      exact ⟨p, .nil, h.advance.setQuote fun _ => ⟨top, below, rfl, hdepth⟩⟩
    · refine ⟨p, .nil, scanInv_next h.stands htables hsettled hline ⟨?_, hstack.2⟩ hsingle⟩
      exact hstack.1.deepen h.stands h.settled hline
    · -- the body ends
      obtain ⟨q, hq, hflush⟩ := itemEvents_run mode hstack.1 htables h.settled h.line
      have hqline : q.line ≤ s.lineOf offset := hflush.line.trans (s.lineOf_mono (Nat.sub_le _ _))
      refine ⟨_, hq.append (.single (.exit (hflush.tables.trans htables) hqline)), ?_⟩
      refine scanInv_next h.stands (map_table_resumeOuter _ below).symm
        (Nat.le_succ_of_le hflush.settled) le_rfl ?_ fun hmode => ?_
      · exact StackInv.resume hstack.2 h.stands hflush.settled le_rfl
      · have hlen := congrArg List.length
          (map_table_resumeOuter ⟨before, offset + x.utf8Size, xs⟩ below)
        have hone := hsingle hmode
        rw [List.length_map, List.length_map] at hlen
        rw [List.length_cons] at hone
        omega
    · refine ⟨p, .nil, scanInv_next h.stands htables hsettled hline ⟨?_, hstack.2⟩ hsingle⟩
      exact hstack.1.advance.lift hdepth
    · -- an item ends and the next one begins
      obtain ⟨q, hq, hflush⟩ := itemEvents_run mode hstack.1 htables h.settled h.line
      have hqline : q.line ≤ s.lineOf offset := hflush.line.trans (s.lineOf_mono (Nat.sub_le _ _))
      refine ⟨q, hq, scanInv_next h.stands (hflush.tables.trans htables)
        (Nat.le_succ_of_le hflush.settled) hqline ⟨?_, hstack.2⟩ hsingle⟩
      exact .begins h.stands (by omega) hflush.settled hqline
    · obtain ⟨q, hq, hqtables, hqsettled, hqline⟩ :=
        closeEvents_run mode hstack htables h.settled h.line (Nat.sub_le offset 1)
      exact ⟨q, hq, scanInv_next h.stands hqtables (Nat.le_succ_of_le hqsettled) hqline trivial
        (by simp)⟩
    · exact ⟨p, .nil, h.advance⟩
  · exact ⟨p, .nil, h.advance.setQuote fun _ => h.quoted (by simp)⟩

/-! ## The whole scan -/

theorem eventsFrom_run {st : ScopeState} (h : ScanInv s mode p offset rest st) (resume : Nat)
    (before : Option Char) :
    ∃ q, EventRun s mode p (s.eventsFrom mode resume st before offset rest) q ∧ q.tables = [] := by
  induction rest generalizing p offset st resume before with
  | nil =>
    obtain ⟨q, hq, hqtables, -, -⟩ :=
      closeEvents_run mode h.stack h.tables h.settled h.line (le_refl (offset - 1))
    exact ⟨q, hq, hqtables⟩
  | cons x xs ih =>
    rw [Source.eventsFrom]
    split
    · exact ih h.advance resume (some x)
    · split
      · rename_i header hheader
        obtain ⟨hquote, hheader⟩ := quote_eq_none_of_header hheader
        have hstart : header.start = offset := TableHeader.start_of_at? hheader
        obtain ⟨q, hq, hinv⟩ := openScope_run h hquote hstart
        obtain ⟨r, hr, hrtables⟩ := ih hinv header.stop (some x)
        exact ⟨r, hq.append hr, hrtables⟩
      · obtain ⟨q, hq, hinv⟩ := readChar_run (some x) h
        obtain ⟨r, hr, hrtables⟩ := ih hinv resume (some x)
        exact ⟨r, hq.append hr, hrtables⟩

theorem scanInv_start (s : Source) (mode : ScopeMode) :
    ScanInv s mode ⟨[], 0, 0⟩ 0 s.text ⟨[], none⟩ :=
  ⟨⟨[], rfl, rfl⟩, rfl, le_rfl, Nat.zero_le _, trivial, by simp, by simp⟩

theorem Source.isItem_of_mem_itemsIn (s : Source) {mode : ScopeMode} {item : TableItem}
    (h : item ∈ s.itemsIn mode) : s.IsItem item.piece := by
  obtain ⟨q, hq, -⟩ := eventsFrom_run (scanInv_start s mode) 0 none
  exact hq.items item h

theorem Source.pairwise_items (s : Source) : s.items.Pairwise TableItem.Precedes := by
  obtain ⟨q, hq, hqtables⟩ := eventsFrom_run (scanInv_start s .replace) 0 none
  exact (hq.wellFormed rfl hqtables).ordered

theorem Source.table_mem_tables (s : Source) {item : TableItem} (h : item ∈ s.items) :
    item.table ∈ s.tables := by
  obtain ⟨q, hq, -⟩ := eventsFrom_run (scanInv_start s .replace) 0 none
  rcases hq.table_mem item h with hopen | hopened
  · cases hopen
  · exact hopened

/-- **The events of a scan are well formed**, for every script and in both modes. -/
theorem scopeEvents_wellFormed (sql : String) (mode : ScopeMode) :
    WellFormedEvents (Source.ofString sql) mode ((Source.ofString sql).scopeEvents mode) := by
  obtain ⟨q, hq, hqtables⟩ := eventsFrom_run (scanInv_start (Source.ofString sql) mode) 0 none
  exact hq.wellFormed rfl hqtables

end SchemaReview
