import SchemaReview.Proofs.Checked.Scan
import SchemaReview.Proofs.Pattern.Extent
import SchemaReview.Proofs.Pattern.Seek
import SchemaReview.Proofs.Scope.Append

/-!
# Proofs.Scope.Loop — the scan as a loop over byte indices

The scan for table scopes reads one character after the other.  Here it is a loop over the bytes of the text,
which keeps the next header at hand and jumps to it where no table is open.

* `ScanLoop.step`: one iteration.  It fails where an index is out of bounds or a slice does not fit.
* `ScanLoop.Inv`: what holds at the head of the loop, and `ScanLoop.Agrees`: how far the loop and the scan
  have come together.
* `ScanLoop.Agrees.step`: an iteration succeeds, moves the index on and keeps them together.
* `scanLoop_invariant`: so the invariant holds at every iteration, and after at most as many iterations as the
  text has bytes the loop has given the events of the scan.
-/

namespace SchemaReview

open Text

/-! ## The next header -/

namespace TableHeader

variable {t : Text} {n : Nat}

/-- A header that was found from an earlier byte on is still the next one where it is not passed. -/
theorem find?_of_le {m : Nat} (hmn : m ≤ n) (h : ∀ header ∈ find? t m, n ≤ header.start) :
    find? t n = find? t m := by
  have hsearch := Pattern.searchFrom_seek (p := .createTable) (n := n) (Cursor.atByte t m) fun hit hhit =>
    h (ofMatch hit) (Option.mem_map_of_mem ofMatch hhit)
  rw [← Cursor.atByte_eq_seek hmn] at hsearch
  exact congrArg (Option.map ofMatch) hsearch

/-- The next header stands at the position that its start gives. -/
theorem at?_of_find? {header : TableHeader} (h : find? t n = some header) :
    at? (Cursor.atByte t header.start) = some header ∧
      (Cursor.atByte t header.start).offset = header.start ∧ (Cursor.atByte t n).offset ≤ header.start := by
  obtain ⟨m, hm, rfl⟩ := Option.map_eq_some_iff.mp h
  obtain ⟨w, hw, hmatch⟩ := Pattern.exists_passes_of_searchFrom hm
  have hin : Cursor.In t m.start := (Cursor.in_atByte t n).passes hw
  have hoffset : m.start.offset = (Cursor.atByte t n).offset + byteSize w := hw.offset
  have hstart : Cursor.atByte t m.start.offset = m.start := Cursor.atByte_offset hin
  refine ⟨?_, congrArg Cursor.offset hstart, ?_⟩
  · show at? (Cursor.atByte t m.start.offset) = _
    rw [hstart, at?, hmatch]
    rfl
  · show _ ≤ m.start.offset
    omega

/-- A header at the position sought is the next one. -/
theorem find?_of_at? {header : TableHeader} (h : at? (Cursor.atByte t n) = some header) :
    find? t n = some header := by
  obtain ⟨m, hm, rfl⟩ := Option.map_eq_some_iff.mp h
  have hsearch : Pattern.createTable.searchAt t n = some m := by
    rw [Pattern.searchAt]
    generalize Cursor.atByte t n = c at hm ⊢
    obtain ⟨before, offset, rest⟩ := c
    cases rest with
    | nil => exact hm
    | cons x xs =>
      show (Pattern.createTable.matchAt ⟨before, offset, x :: xs⟩).orElse _ = _
      rw [hm]
      rfl
  rw [find?, hsearch]
  rfl

/-- A header is not empty. -/
theorem start_lt_stop {c : Cursor} {header : TableHeader} (h : at? c = some header) :
    header.start < header.stop := by
  obtain ⟨m, hm, rfl⟩ := Option.map_eq_some_iff.mp h
  obtain ⟨hstart, htakes⟩ := Pattern.takes_of_matchAt hm
  have hleast := htakes.least_le
  have hpos : 0 < Pattern.createTable.least := by decide
  show m.start.offset < m.stop.offset
  rw [hstart]
  omega

end TableHeader

/-! ## The scan from a later position -/

namespace Source

variable (s : Source)

/-- The characters of a header that was read are passed over. -/
theorem eventsFrom_resume (mode : ScopeMode) (resume : Nat) (st : ScopeState) (before : Option Char)
    (offset : Nat) (t : Text) :
    s.eventsFrom mode resume st before offset t =
      s.eventsFrom mode 0 st (Cursor.seek resume before offset t).before
        (Cursor.seek resume before offset t).offset (Cursor.seek resume before offset t).rest := by
  induction t generalizing before offset with
  | nil => rfl
  | cons x xs ih =>
    by_cases hskip : offset < resume
    · rw [Cursor.seek_cons_of_lt hskip, eventsFrom, if_pos hskip]
      exact ih _ _
    · have hle : resume ≤ offset := Nat.not_lt.mp hskip
      rw [Cursor.seek_cons_of_le hle]
      exact eventsFrom_of_le hle st before (x :: xs)

/-- Where no table is open, nothing happens up to the next header. -/
theorem eventsFrom_idle (mode : ScopeMode) {n : Nat} (c : Cursor)
    (h : ∀ m ∈ Pattern.createTable.searchFrom c.before c.offset c.rest, n ≤ m.start.offset) :
    s.eventsFrom mode 0 ⟨[], none⟩ c.before c.offset c.rest =
      s.eventsFrom mode 0 ⟨[], none⟩ (Cursor.seek n c.before c.offset c.rest).before
        (Cursor.seek n c.before c.offset c.rest).offset (Cursor.seek n c.before c.offset c.rest).rest := by
  obtain ⟨before, offset, t⟩ := c
  dsimp only at h ⊢
  induction t generalizing before offset with
  | nil => rfl
  | cons x xs ih =>
    by_cases hn : n ≤ offset
    · rw [Cursor.seek_cons_of_le hn]
    rw [Pattern.searchFrom] at h
    cases hhere : Pattern.createTable.matchAt ⟨before, offset, x :: xs⟩ with
    | some m =>
      have hstart := h m (by rw [hhere]; rfl)
      rw [(Pattern.matchAt_eq_some hhere).1] at hstart
      exact absurd hstart hn
    | none =>
      rw [hhere] at h
      have hheader : TableHeader.at? ⟨before, offset, x :: xs⟩ = none := by
        rw [TableHeader.at?, hhere]
        rfl
      rw [Cursor.seek_cons_of_lt (Nat.not_le.mp hn), eventsFrom, if_neg (Nat.not_lt_zero _), hheader]
      exact ih _ _ h

end Source

theorem ScanInv.seek {s : Source} {mode : ScopeMode} {p : Progress} {offset : Nat} {t : Text}
    {st : ScopeState} (h : ScanInv s mode p offset t st) (n : Nat) (before : Option Char) :
    ScanInv s mode p (Cursor.seek n before offset t).offset (Cursor.seek n before offset t).rest st := by
  induction t generalizing offset before with
  | nil => exact h
  | cons x xs ih =>
    by_cases hn : n ≤ offset
    · rwa [Cursor.seek_cons_of_le hn]
    · rw [Cursor.seek_cons_of_lt (Nat.not_le.mp hn)]
      exact ih h.advance (some x)

/-! ## What bytes do to scopes -/

/-- No item begins behind byte `n`, and what hides the text is a character of ASCII. -/
structure ScopeState.Within (n : Nat) (st : ScopeState) : Prop where
  start_le : ∀ scope ∈ st.stack, ∀ start ∈ scope.itemStart, start.offset ≤ n
  quote_ascii : ∀ q ∈ st.quote, q.utf8Size = 1

namespace ScopeState.Within

variable {n m : Nat} {st : ScopeState}

theorem mono (h : st.Within n) (hnm : n ≤ m) : st.Within m :=
  ⟨fun scope hscope start hstart => (h.start_le scope hscope start hstart).trans hnm, h.quote_ascii⟩

theorem openScope (h : st.Within n) (s : Source) (mode : ScopeMode) (header : TableHeader) :
    (s.openScope mode header st).1.Within n := by
  obtain ⟨stack, quote⟩ := st
  cases mode with
  | replace => exact ⟨by simp [Source.openScope], h.quote_ascii⟩
  | nested =>
    cases stack with
    | nil => exact ⟨by simp [Source.openScope], h.quote_ascii⟩
    | cons outer below =>
      refine ⟨?_, h.quote_ascii⟩
      -- the new scope and the one around it have no item under way
      show ∀ scope ∈ _ :: { outer with itemStart := none } :: below, _
      simp only [List.forall_mem_cons, Option.mem_def, reduceCtorEq, false_implies, implies_true, true_and]
      exact fun scope hscope => h.start_le scope (List.mem_cons_of_mem _ hscope)

/-- A character of ASCII in front of the position `next`. -/
theorem readChar (h : st.Within n) (s : Source) (offset : Nat) {x : Char} (hx : x.utf8Size = 1)
    (next : Cursor) (hn : n ≤ next.offset) : (s.readChar offset x next st).1.Within next.offset := by
  have hlater := h.mono hn
  obtain ⟨stack, quote⟩ := st
  rcases stack with _ | ⟨top, below⟩
  · exact hlater
  have htop : ∀ start ∈ top.itemStart, start.offset ≤ next.offset :=
    hlater.start_le top List.mem_cons_self
  have hbelow : ∀ scope ∈ below, ∀ start ∈ scope.itemStart, start.offset ≤ next.offset :=
    fun scope hscope => hlater.start_le scope (List.mem_cons_of_mem _ hscope)
  have hnext : ∀ start ∈ some next, start.offset ≤ next.offset := by simp
  -- outside quotes it is enough to look at the innermost scope
  have houtside : ∀ {scope : OpenScope}, (∀ start ∈ scope.itemStart, start.offset ≤ next.offset) →
      Within next.offset ⟨scope :: below, none⟩ := fun hscope =>
    ⟨List.forall_mem_cons.mpr ⟨hscope, hbelow⟩, by simp⟩
  rcases quote with _ | q
  · rcases readChar_cases s offset x next top below with
      ⟨-, hread⟩ | ⟨-, hread⟩ | ⟨-, -, hread⟩ | ⟨-, -, hread⟩ | ⟨-, -, hread⟩ | ⟨-, hread⟩ | hread <;>
      rw [hread]
    · exact ⟨hlater.start_le, by simpa using hx⟩
    · refine houtside ?_
      unfold OpenScope.deepen
      split
      · exact hnext
      · exact htop
    · -- the enclosing scope goes on
      cases below with
      | nil => exact ⟨by simp [Source.resumeOuter], by simp⟩
      | cons outer below =>
        rw [List.forall_mem_cons] at hbelow
        refine ⟨List.forall_mem_cons.mpr ⟨?_, hbelow.2⟩, by simp⟩
        split
        · exact hnext
        · exact hbelow.1
    · exact houtside htop
    · exact houtside hnext
    · exact ⟨by simp, by simp⟩
    · exact hlater
  · refine ⟨hlater.start_le, fun q' hq' => ?_⟩
    have hq : some q' = if x = q then none else some q := hq'.symm
    split at hq
    · cases hq
    · exact h.quote_ascii q' hq.symm

/-- A character beyond ASCII does nothing. -/
theorem checked_readChar (h : st.Within n) {c : Char} (hc : c.utf8Size ≠ 1) (s : Source) (offset : Nat)
    (next : Cursor) : Checked.readChar s offset c next st = some (st, []) := by
  have hne : ∀ d : Char, d.utf8Size = 1 → c ≠ d := by
    rintro d hd rfl
    exact hc hd
  obtain ⟨stack, quote⟩ := st
  cases stack with
  | nil => rfl
  | cons top below =>
    cases quote with
    | some q =>
      show some (_, _) = _
      rw [if_neg (hne q (h.quote_ascii q rfl))]
    | none =>
      have hdelimiters : c ≠ '\x27' ∧ c ≠ '"' ∧ c ≠ '\x60' ∧ c ≠ '(' ∧ c ≠ ')' ∧ c ≠ ',' ∧ c ≠ ';' :=
        ⟨hne _ rfl, hne _ rfl, hne _ rfl, hne _ rfl, hne _ rfl, hne _ rfl, hne _ rfl⟩
      obtain ⟨h1, h2, h3, h4, h5, h6, h7⟩ := hdelimiters
      simp [Checked.readChar, isQuote, h1, h2, h3, h4, h5, h6, h7]

end ScopeState.Within

/-! ## The loop -/

/-- What the loop keeps from one iteration to the next. -/
structure ScanLoop where
  /-- The byte at hand. -/
  index : Nat
  scopes : ScopeState
  /-- The next header, as far as it was searched for. -/
  header : Option TableHeader
  events : List ScopeEvent
deriving DecidableEq, Repr

namespace ScanLoop

variable (s : Source) (mode : ScopeMode)

def start : ScanLoop := ⟨0, ⟨[], none⟩, TableHeader.find? s.text 0, []⟩

/-- The next header, searched for again when the index has passed the one at hand. -/
def nextHeader (st : ScanLoop) : Option TableHeader :=
  if st.header.any (·.start < st.index) then TableHeader.find? s.text st.index else st.header

/-- One iteration.  There is none when it reads behind the end of the text, or cuts a slice that does not
fit. -/
def step (st : ScanLoop) : Option ScanLoop :=
  let next := st.nextHeader s
  match (if st.scopes.quote.isNone then next.filter (·.start = st.index) else none) with
  | some header => do
    let (scopes, events) ← Checked.openScope s mode header st.scopes
    return ⟨header.stop, scopes, TableHeader.find? s.text header.stop, st.events ++ events⟩
  | none =>
    -- nothing to track between tables
    if st.scopes.stack.isEmpty then
      some ⟨next.elim s.size (·.start), st.scopes, next, st.events⟩
    else do
      let b ← s.text.bytes[st.index]?
      let (scopes, events) ← Checked.readChar s st.index (Char.ofUInt8 b)
        (Cursor.atByte s.text (st.index + 1)) st.scopes
      return ⟨st.index + 1, scopes, next, st.events ++ events⟩

/-- At most `n` iterations, and the events once the index has come to the end of the text. -/
def run (n : Nat) (st : ScanLoop) : Option (List ScopeEvent) :=
  if st.index < s.size then
    match n with
    | 0 => none
    | n + 1 => (st.step s mode).bind (run n)
  else do
    let events ← Checked.closeEvents s s.size (s.size - 1) st.scopes.stack
    return st.events ++ events

/-- The states at the head of the loop. -/
inductive Reachable : ScanLoop → Prop
  | start : Reachable (start s)
  | step {st st' : ScanLoop} (h : Reachable st) (hindex : st.index < s.size)
      (hstep : st.step s mode = some st') : Reachable st'

/-- The invariant of the loop. -/
structure Inv (st : ScanLoop) : Prop where
  index_le : st.index ≤ s.size
  /-- A quote is open only inside the parentheses of the innermost table. -/
  quoted : st.scopes.quote ≠ none → ∃ top below, st.scopes.stack = top :: below ∧ 0 < top.depth
  /-- The innermost table has an item under way exactly inside its parentheses. -/
  pending : ∀ top ∈ st.scopes.stack.head?, top.itemStart.isSome = true ↔ 0 < top.depth
  /-- What is cut at the index begins there or before. -/
  start_le : ∀ scope ∈ st.scopes.stack, ∀ start ∈ scope.itemStart, start.offset ≤ st.index
  /-- The tables around it have none. -/
  suspended : ∀ scope ∈ st.scopes.stack.tail, scope.itemStart = none
  single : mode = .replace → st.scopes.stack.length ≤ 1
  /-- The header at hand, searched for again if need be, is the first one that has not been passed. -/
  header_eq : st.nextHeader s = TableHeader.find? s.text st.index
  le_header : ∀ header ∈ st.nextHeader s, st.index ≤ header.start

/-- The position of the loop in the text. -/
def cursor (st : ScanLoop) : Cursor := Cursor.atByte s.text st.index

/-- The loop and the scan have come to the same scopes, and have the same events before them. -/
structure Agrees (st : ScanLoop) : Prop where
  index_le : st.index ≤ s.size
  scan : ∃ p, ScanInv s mode p (st.cursor s).offset (st.cursor s).rest st.scopes
  within : st.scopes.Within st.index
  searched : ∃ n ≤ st.index, st.header = TableHeader.find? s.text n
  events : st.events ++ s.eventsFrom mode 0 st.scopes (st.cursor s).before (st.cursor s).offset
    (st.cursor s).rest = s.scopeEvents mode

/-- No table is entered at the index. -/
def EntersNone (st : ScanLoop) : Prop :=
  st.scopes.quote = none → ∀ header ∈ TableHeader.find? s.text st.index, header.start ≠ st.index

variable {s : Source} {mode : ScopeMode} {st : ScanLoop}

theorem nextHeader_eq {n : Nat} (hn : n ≤ st.index) (h : st.header = TableHeader.find? s.text n) :
    st.nextHeader s = TableHeader.find? s.text st.index := by
  unfold nextHeader
  split
  · rfl
  · rename_i hpassed
    rw [h]
    refine (TableHeader.find?_of_le hn fun header hheader => ?_).symm
    rw [h] at hpassed
    simpa [Option.mem_def.mp hheader] using hpassed

namespace Agrees

theorem nextHeader (h : st.Agrees s mode) : st.nextHeader s = TableHeader.find? s.text st.index := by
  obtain ⟨n, hn, hsearched⟩ := h.searched
  exact nextHeader_eq hn hsearched

theorem index_le_cursor (h : st.Agrees s mode) : st.index ≤ (st.cursor s).offset :=
  Cursor.le_offset_atByte h.index_le

/-- Whatever the loop and the scan agree on satisfies the invariant. -/
theorem inv (h : st.Agrees s mode) : st.Inv s mode := by
  obtain ⟨p, hscan⟩ := h.scan
  have hstack := hscan.stack
  refine ⟨h.index_le, hscan.quoted, ?_, h.within.start_le, ?_, hscan.single, h.nextHeader, ?_⟩
  · intro top htop
    cases hst : st.scopes.stack with
    | nil =>
      rw [hst] at htop
      cases htop
    | cons top' below =>
      rw [hst] at htop hstack
      obtain rfl : top' = top := Option.some.inj htop
      exact hstack.1.isSome_iff
  · cases hst : st.scopes.stack with
    | nil => simp
    | cons top below =>
      rw [hst] at hstack
      exact hstack.2
  · intro header hheader
    rw [h.nextHeader] at hheader
    exact h.index_le_cursor.trans (TableHeader.at?_of_find? hheader).2.2

theorem start (s : Source) (mode : ScopeMode) : (start s).Agrees s mode := by
  have hcursor : (ScanLoop.start s).cursor s = ⟨none, 0, s.text⟩ :=
    Cursor.seek_of_le (c := ⟨none, 0, s.text⟩) le_rfl
  refine ⟨Nat.zero_le _, ⟨⟨[], 0, 0⟩, ?_⟩, ⟨by simp [ScanLoop.start], by simp [ScanLoop.start]⟩,
    ⟨0, le_rfl, rfl⟩, ?_⟩
  · rw [hcursor]
    exact scanInv_start s mode
  · rw [hcursor]
    rfl

/-- The iteration enters a table: the index goes behind the header. -/
theorem enter (h : st.Agrees s mode) (hquote : st.scopes.quote = none) {header : TableHeader}
    (hheader : TableHeader.find? s.text st.index = some header) (hstart : header.start = st.index)
    (hlt : st.index < s.size) :
    Checked.openScope s mode header st.scopes = some (s.openScope mode header st.scopes) ∧
      st.index < header.stop ∧
      Agrees s mode ⟨header.stop, (s.openScope mode header st.scopes).1,
        TableHeader.find? s.text header.stop, st.events ++ (s.openScope mode header st.scopes).2⟩ := by
  obtain ⟨p, hscan⟩ := h.scan
  have hevents := h.events
  obtain ⟨hat, hoffset, -⟩ := TableHeader.at?_of_find? hheader
  rw [hstart] at hat hoffset
  have hin : Cursor.In s.text (st.cursor s) := Cursor.in_atByte s.text st.index
  have hsize := hin.offset_add_byteSize
  cases hc : st.cursor s with
  | mk before offset rest =>
  rw [hc] at hscan hevents hin hsize
  rw [show Cursor.atByte s.text st.index = ⟨before, offset, rest⟩ from hc] at hat hoffset
  obtain rfl : offset = st.index := hoffset
  cases rest with
  | nil => exact absurd hsize (Nat.ne_of_lt hlt)
  | cons x xs =>
    have hstop : st.index < header.stop := hstart ▸ TableHeader.start_lt_stop hat
    have hseek : Cursor.atByte s.text header.stop =
        Cursor.seek header.stop (some x) (st.index + x.utf8Size) xs := by
      rw [Cursor.atByte_eq_seek hstop.le, show Cursor.atByte s.text st.index = _ from hc,
        Cursor.seek_cons_of_lt hstop]
    obtain ⟨q, -, hinv⟩ := openScope_run hscan hquote hstart
    refine ⟨Checked.openScope_eq hscan hin hat, hstop, ?_, ⟨q, ?_⟩,
      (h.within.openScope s mode header).mono hstop.le, ⟨_, le_rfl, rfl⟩, ?_⟩
    · exact (TableHeader.stop_le_of_at? hat).trans_eq hsize
    · rw [cursor, hseek]
      exact hinv.seek header.stop (some x)
    · rw [cursor, hseek, ← Source.eventsFrom_resume, List.append_assoc, ← hevents, Source.eventsFrom,
        if_neg (Nat.not_lt_zero _), hquote, hat]
      rfl

/-- The next header, or the end of the text, is behind the index. -/
theorem exists_target (h : st.Agrees s mode)
    (hnone : ∀ header ∈ TableHeader.find? s.text st.index, header.start ≠ st.index)
    (hlt : st.index < s.size) :
    ∃ target, (TableHeader.find? s.text st.index).elim s.size (·.start) = target ∧
      st.index < target ∧ target ≤ s.size ∧
      ∀ header ∈ TableHeader.find? s.text st.index, target = header.start := by
  cases hfind : TableHeader.find? s.text st.index with
  | none => exact ⟨s.size, rfl, hlt, le_rfl, nofun⟩
  | some header =>
    obtain ⟨-, hoffset, hle⟩ := TableHeader.at?_of_find? hfind
    have hsize : header.start + _ = s.size :=
      hoffset ▸ (Cursor.in_atByte s.text header.start).offset_add_byteSize
    have hafter : st.index ≤ header.start := h.index_le_cursor.trans hle
    refine ⟨header.start, rfl, hafter.lt_of_ne (hnone header hfind).symm, by omega, ?_⟩
    intro header' hheader'
    exact congrArg TableHeader.start (Option.some.inj hheader')

/-- No table is open: the index goes to the next header, or to the end of the text. -/
theorem skip (h : st.Agrees s mode) (hstack : st.scopes.stack = []) (hnone : st.EntersNone s)
    (hlt : st.index < s.size) :
    st.index < (TableHeader.find? s.text st.index).elim s.size (·.start) ∧
      Agrees s mode ⟨(TableHeader.find? s.text st.index).elim s.size (·.start), st.scopes,
        TableHeader.find? s.text st.index, st.events⟩ := by
  obtain ⟨p, hscan⟩ := h.scan
  have hquote : st.scopes.quote = none := by
    by_contra hopen
    obtain ⟨top, below, hcons, -⟩ := hscan.quoted hopen
    rw [hstack] at hcons
    cases hcons
  have hscopes : st.scopes = ⟨[], none⟩ := by rw [← hstack, ← hquote]
  obtain ⟨target, heq, hafter, hsize, hstart⟩ := h.exists_target (hnone hquote) hlt
  rw [heq]
  have hseek : Cursor.atByte s.text target =
      Cursor.seek target (st.cursor s).before (st.cursor s).offset (st.cursor s).rest :=
    Cursor.atByte_eq_seek hafter.le
  have hidle := s.eventsFrom_idle mode (n := target) (st.cursor s) fun m hm =>
    (hstart (.ofMatch m) (Option.mem_map_of_mem TableHeader.ofMatch hm)).le
  refine ⟨hafter, hsize, ⟨p, ?_⟩, h.within.mono hafter.le, ⟨st.index, hafter.le, rfl⟩, ?_⟩
  · rw [cursor, hseek]
    exact hscan.seek target _
  · have hevents := h.events
    rw [hscopes, hidle, ← hseek] at hevents
    rw [cursor, hscopes]
    exact hevents

/-- No header starts at the position of the loop. -/
theorem at?_cursor_eq_none {before : Option Char} {rest : Text}
    (hnone : ∀ header ∈ TableHeader.find? s.text st.index, header.start ≠ st.index)
    (hc : st.cursor s = ⟨before, st.index, rest⟩) : TableHeader.at? ⟨before, st.index, rest⟩ = none := by
  by_contra hsome
  obtain ⟨header, hheader⟩ := Option.ne_none_iff_exists'.mp hsome
  have hfind : TableHeader.find? s.text st.index = some header :=
    TableHeader.find?_of_at? (by rw [← hheader, ← hc, cursor])
  exact hnone header hfind (TableHeader.start_of_at? hheader)

/-- The character at the index is read, and its later bytes will be. -/
theorem pass (h : st.Agrees s mode) (hnone : st.EntersNone s) {before : Option Char} {x : Char}
    {xs : Text} (hc : st.cursor s = ⟨before, st.index, x :: xs⟩)
    {scopes : ScopeState} {events : List ScopeEvent}
    (hread : s.readChar st.index x (Cursor.atByte s.text (st.index + 1)) st.scopes = (scopes, events))
    (hwithin : scopes.Within (st.index + 1)) :
    Agrees s mode ⟨st.index + 1, scopes, TableHeader.find? s.text st.index, st.events ++ events⟩ := by
  obtain ⟨p, hscan⟩ := h.scan
  have hevents := h.events
  have hsize : st.index + byteSize (x :: xs) = s.size := by
    have hin := (Cursor.in_atByte s.text st.index).offset_add_byteSize
    rwa [show Cursor.atByte s.text st.index = _ from hc] at hin
  have hnext : Cursor.atByte s.text (st.index + 1) = ⟨some x, st.index + x.utf8Size, xs⟩ :=
    Cursor.atByte_succ hc
  rw [hc] at hscan hevents
  rw [hnext] at hread
  obtain ⟨q, -, hinv⟩ := readChar_run (some x) hscan
  rw [hread] at hinv
  refine ⟨?_, ⟨q, ?_⟩, hwithin, ⟨st.index, Nat.le_succ _, rfl⟩, ?_⟩
  · have hpos := x.utf8Size_pos
    rw [byteSize_cons] at hsize
    show st.index + 1 ≤ s.size
    omega
  · rw [cursor, hnext]
    exact hinv
  · have hheader : (if st.scopes.quote.isNone then TableHeader.at? ⟨before, st.index, x :: xs⟩ else none) =
        none := by
      split
      · rename_i hquote
        exact at?_cursor_eq_none (hnone (Option.isNone_iff_eq_none.mp hquote)) hc
      · rfl
    rw [Source.eventsFrom, if_neg (Nat.not_lt_zero _), hheader, hread] at hevents
    rw [cursor, hnext, List.append_assoc]
    exact hevents

/-- A byte is read that starts no header. -/
theorem read (h : st.Agrees s mode) (hnone : st.EntersNone s) (hlt : st.index < s.size) :
    ∃ b scopes events, s.text.bytes[st.index]? = some b ∧
      Checked.readChar s st.index (Char.ofUInt8 b) (Cursor.atByte s.text (st.index + 1)) st.scopes =
        some (scopes, events) ∧
      Agrees s mode ⟨st.index + 1, scopes, TableHeader.find? s.text st.index, st.events ++ events⟩ := by
  obtain ⟨p, hscan⟩ := h.scan
  obtain ⟨b, hb, hbyte⟩ := exists_byteAt hlt
  have hlater := h.within.mono (Nat.le_succ st.index)
  refine ⟨b, ?_⟩
  generalize hc : Cursor.atByte s.text st.index = c at hbyte
  rw [cursor, hc] at hscan
  cases hbyte with
  | @ascii before x xs hx hchar =>
    rw [hchar, Checked.readChar_eq hscan]
    refine ⟨_, _, hb, rfl, h.pass hnone hc rfl ?_⟩
    have hoffset : (Cursor.atByte s.text (st.index + 1)).offset = st.index + 1 := by
      rw [Cursor.atByte_succ hc, hx]
    have hwithin := h.within.readChar s st.index hx (Cursor.atByte s.text (st.index + 1)) (by omega)
    rwa [hoffset] at hwithin
  | @lead before x xs hx hchar =>
    have hread := h.within.checked_readChar hx s st.index (Cursor.atByte s.text (st.index + 1))
    rw [Checked.readChar_eq hscan] at hread
    exact ⟨_, _, hb, h.within.checked_readChar hchar s _ _, h.pass hnone hc (Option.some.inj hread) hlater⟩
  | inside hn hchar =>
    -- the position stays where it is
    rw [← hc] at hn hscan
    have hsame := Cursor.atByte_succ_of_lt hn
    refine ⟨_, _, hb, h.within.checked_readChar hchar s _ _, hlt, ⟨p, ?_⟩, hlater,
      ⟨st.index, Nat.le_succ _, rfl⟩, ?_⟩
    · rw [cursor, hsame]
      exact hscan
    · rw [cursor, hsame, List.append_nil]
      exact h.events

/-- An iteration succeeds, moves the index on, and keeps the loop and the scan together. -/
theorem step (h : st.Agrees s mode) (hlt : st.index < s.size) :
    ∃ st', st.step s mode = some st' ∧ st.index < st'.index ∧ st'.Agrees s mode := by
  unfold ScanLoop.step
  rw [h.nextHeader]
  dsimp only
  split
  · -- a header starts at the index
    rename_i header hheader
    have hquote : st.scopes.quote = none ∧
        (TableHeader.find? s.text st.index).filter (·.start = st.index) = some header := by
      cases hq : st.scopes.quote with
      | none => rw [hq] at hheader; exact ⟨rfl, hheader⟩
      | some q => rw [hq] at hheader; cases hheader
    obtain ⟨hfind, hstart⟩ := Option.filter_eq_some_iff.mp hquote.2
    obtain ⟨hopen, hstop, hagrees⟩ := h.enter hquote.1 hfind (of_decide_eq_true hstart) hlt
    rw [hopen]
    exact ⟨_, rfl, hstop, hagrees⟩
  · rename_i hheader
    have hnone : st.EntersNone s := by
      intro hquote header hfind hstart
      rw [hquote, Option.mem_def.mp hfind] at hheader
      simp [hstart] at hheader
    split
    · rename_i hstack
      obtain ⟨hafter, hagrees⟩ := h.skip (List.isEmpty_iff.mp hstack) hnone hlt
      exact ⟨_, rfl, hafter, hagrees⟩
    · obtain ⟨b, scopes, events, hb, hread, hagrees⟩ := h.read hnone hlt
      simp only [hb, hread, Option.bind_eq_bind, Option.bind_some]
      exact ⟨_, rfl, Nat.lt_succ_self _, hagrees⟩

/-- At the end of the text the open scopes are closed. -/
theorem close (h : st.Agrees s mode) (hend : ¬ st.index < s.size) (n : Nat) :
    ScanLoop.run s mode n st = some (s.scopeEvents mode) := by
  have hindex : st.index = byteSize s.text := Nat.le_antisymm h.index_le (Nat.not_lt.mp hend)
  obtain ⟨hoffset, hrest⟩ := Cursor.atByte_byteSize s.text
  obtain ⟨p, hscan⟩ := h.scan
  have hevents := h.events
  rw [cursor, hindex, hoffset, hrest] at hscan hevents
  have hclose : Checked.closeEvents s s.size (s.size - 1) st.scopes.stack = _ :=
    Checked.closeEvents_eq hscan.stack (s.size - 1)
  rw [ScanLoop.run.eq_def, if_neg hend, hclose, ← hevents]
  rfl

/-- Every iteration brings the index on, so as many as there are bytes left are enough. -/
theorem run {n : Nat} (h : st.Agrees s mode) (hn : s.size - st.index ≤ n) :
    ScanLoop.run s mode n st = some (s.scopeEvents mode) := by
  induction n generalizing st with
  | zero => exact h.close (by omega) 0
  | succ n ih =>
    by_cases hlt : st.index < s.size
    · obtain ⟨st', hstep, hindex, hagrees⟩ := h.step hlt
      rw [ScanLoop.run, if_pos hlt, hstep]
      exact ih hagrees (by omega)
    · exact h.close hlt (n + 1)

end Agrees

/-- The loop and the scan stay together. -/
theorem Reachable.agrees (h : Reachable s mode st) : st.Agrees s mode := by
  induction h with
  | start => exact .start s mode
  | step _ hindex hstep ih =>
    obtain ⟨st', hstep', -, hagrees⟩ := ih.step hindex
    rw [hstep] at hstep'
    exact Option.some.inj hstep' ▸ hagrees

end ScanLoop

/-- **The loop keeps its invariant and ends**, for every text and in both modes: the invariant holds whenever an
iteration begins, every iteration succeeds, slices included, and moves the index on, and after at most as many
iterations as the text has bytes the loop has given the events of the scan.  Items are cut at the index, so none of
them begins behind its end. -/
theorem scanLoop_invariant (s : Source) (mode : ScopeMode) :
    (∀ st, ScanLoop.Reachable s mode st → st.Inv s mode ∧
      (st.index < s.size → ∃ st', st.step s mode = some st' ∧ st.index < st'.index)) ∧
      ScanLoop.run s mode s.size (.start s) = some (s.scopeEvents mode) := by
  refine ⟨fun st hst => ⟨hst.agrees.inv, fun hlt => ?_⟩, ?_⟩
  · obtain ⟨st', hstep, hindex, -⟩ := hst.agrees.step hlt
    exact ⟨st', hstep, hindex⟩
  · exact (ScanLoop.Agrees.start s mode).run (Nat.sub_le _ _)

end SchemaReview
