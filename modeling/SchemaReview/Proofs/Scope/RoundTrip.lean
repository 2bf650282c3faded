import SchemaReview.Proofs.Ddl.TableHeader
import SchemaReview.Proofs.Source.Balanced
import SchemaReview.Scope.Item

/-!
# Proofs.Scope.RoundTrip — scanning undoes rendering

A script is rendered from tables, each a name and the texts of its items.  Scanning the script gives
the tables and their items back, each item at the byte where it was rendered: `scan_render`.

* `ItemText` and `TableText` carry what is asked of items and names; a text that is none of them cannot
  be rendered.
* `Reads s after offset st t st' events`: reading the characters of `t` one by one takes the scan from
  `st` to `st'` and gives `events`.  Where no header starts, that is what the scan does:
  `eventsFrom_of_reads`.
* `Balanced.reads`: the scan passes a balanced text without an event.  `reads_items`, `reads_body`: so
  the body of a rendered table gives its items, by induction on them.
* `eventsFrom_render`, `eventsFrom_renderScript`: a rendered table gives its events and leaves no scope
  open, and so the script gives the events of its tables one after the other.
-/

namespace SchemaReview

open Text

/-! ## Tables as they are written -/

/-- The text of an item: what may stand between two commas of a table body. -/
structure ItemText where
  text : Text
  ne_nil : text ≠ []
  trimmed : Trimmed text
  commentFree : CommentFree text
  no_backtick : '\x60' ∉ text
  no_header : TableHeader.find? text 0 = none
  balanced : Balanced false text

/-- A table to be written: its name, a word, and its items. -/
structure TableText where
  name : Text
  items : List ItemText
  name_ne_nil : name ≠ []
  isWord_name : ∀ c ∈ name, isWord c = true
  items_ne_nil : items ≠ []

/-- The items with commas between them. -/
def renderItems (items : List ItemText) : Text := [',', ' '].intercalate (items.map ItemText.text)

/-- The statement that declares the table. -/
def TableText.render (t : TableText) : Text :=
  "CREATE TABLE ".toList ++ t.name ++ " (".toList ++ renderItems t.items ++ ");\n".toList

/-- The statements one after the other. -/
def renderScript (tables : List TableText) : Text := tables.flatMap TableText.render

/-- The texts of the items, each with the byte where it is written when the first one is at
`offset`. -/
def itemPlaces (offset : Nat) : List ItemText → List (Text × Nat)
  | [] => []
  | item :: items => (item.text, offset) :: itemPlaces (offset + byteSize item.text + 2) items

/-- The byte where the first item is written when the statement begins at `offset`. -/
def TableText.bodyOffset (t : TableText) (offset : Nat) : Nat :=
  offset + byteSize ("CREATE TABLE ".toList ++ t.name ++ " (".toList)

/-- Where an item stands: the name of its table, its text and its byte. -/
def TableItem.place (item : TableItem) : String × Text × Nat :=
  (item.table.name, item.piece.text, item.piece.offset)

/-- Where the items of a script stand that begins at `offset`. -/
def scriptPlaces (offset : Nat) : List TableText → List (String × Text × Nat)
  | [] => []
  | t :: tables =>
    (itemPlaces (t.bodyOffset offset) t.items).map (String.ofList t.name, ·) ++
      scriptPlaces (offset + byteSize t.render) tables

/-! ## Reading text without headers -/

/-- Reading the characters of `t` one by one, with `after` behind them, takes the scan from `st` to
`st'` and gives the events. -/
inductive Reads (s : Source) (after : Text) :
    Nat → ScopeState → Text → ScopeState → List ScopeEvent → Prop
  | nil {offset : Nat} {st : ScopeState} : Reads s after offset st [] st []
  | cons {offset : Nat} {x : Char} {xs : Text} {st st' st'' : ScopeState}
      {events events' : List ScopeEvent}
      (hstep : s.readChar offset x ⟨some x, offset + x.utf8Size, xs ++ after⟩ st = (st', events))
      (h : Reads s after (offset + x.utf8Size) st' xs st'' events') :
      Reads s after offset st (x :: xs) st'' (events ++ events')

namespace Reads

variable {s : Source} {after : Text} {offset : Nat} {st st' st'' : ScopeState}
  {events events' : List ScopeEvent}

theorem append {t u : Text} (h : Reads s (u ++ after) offset st t st' events)
    (h' : Reads s after (offset + byteSize t) st' u st'' events') :
    Reads s after offset st (t ++ u) st'' (events ++ events') := by
  induction h with
  | nil => exact h'
  | cons hstep _ ih =>
    rw [List.append_assoc, List.cons_append]
    rw [← List.append_assoc] at hstep
    rw [byteSize_cons, ← Nat.add_assoc] at h'
    exact .cons hstep (ih h')

theorem single {x : Char}
    (hstep : s.readChar offset x ⟨some x, offset + x.utf8Size, after⟩ st = (st', events)) :
    Reads s after offset st [x] st' events := by
  rw [← List.append_nil events]
  exact .cons hstep .nil

/-- A character without an event. -/
theorem quiet {x : Char} {xs : Text}
    (hstep : s.readChar offset x ⟨some x, offset + x.utf8Size, xs ++ after⟩ st = (st', []))
    (h : Reads s after (offset + x.utf8Size) st' xs st'' events) :
    Reads s after offset st (x :: xs) st'' events :=
  .cons hstep h

end Reads

/-- Where no header starts, the scan reads character after character. -/
theorem eventsFrom_of_reads {s : Source} {mode : ScopeMode} {resume offset : Nat} {t after : Text}
    {before : Option Char} {st st' : ScopeState} {events : List ScopeEvent}
    (hresume : resume ≤ offset) (hnone : Headerless after before offset t)
    (h : Reads s after offset st t st' events) :
    s.eventsFrom mode resume st before offset (t ++ after) =
      events ++ s.eventsFrom mode resume st' (t.getLast?.or before) (offset + byteSize t) after := by
  induction h generalizing before with
  | nil => rfl
  | @cons offset x xs st st' st'' events events' hstep _ ih =>
    have hheader : (if st.quote.isNone then TableHeader.at? ⟨before, offset, x :: (xs ++ after)⟩
        else none) = none := by
      rw [hnone.1, ite_self]
    rw [List.cons_append, Source.eventsFrom, if_neg (by omega), hheader]
    dsimp only
    rw [hstep, ih (by omega) hnone.2, getLast?_cons_or, byteSize_cons, List.append_assoc,
      Nat.add_assoc]

/-! ## Items are passed without an event -/

section Passing

variable {s : Source} {scope : OpenScope} {below : List OpenScope}

theorem readChar_plain {c : Char} (hquote : isQuote c = false) (hback : c ≠ '\x60')
    (hmark : c ∉ ['(', ')', ';']) (hcomma : c = ',' → 1 < scope.depth) (offset : Nat)
    (next : Cursor) :
    s.readChar offset c next ⟨scope :: below, none⟩ = (⟨scope :: below, none⟩, []) := by
  simp only [List.mem_cons, List.not_mem_nil, or_false, not_or] at hmark
  have hdepth' : ¬ (c = ',' ∧ scope.depth = 1) := by
    rintro ⟨hc, hone⟩
    have := hcomma hc
    omega
  unfold Source.readChar
  simp [hquote, hback, hmark, hdepth']

theorem readChar_opening {q : Char} (hdepth : 0 < scope.depth) (hquote : isQuote q = true)
    (offset : Nat) (next : Cursor) :
    s.readChar offset q next ⟨scope :: below, none⟩ = (⟨scope :: below, some q⟩, []) := by
  unfold Source.readChar
  simp [hquote, hdepth]

theorem readChar_quoted (c q : Char) (offset : Nat) (next : Cursor) :
    s.readChar offset c next ⟨scope :: below, some q⟩ =
      (⟨scope :: below, if c = q then none else some q⟩, []) := rfl

/-- Inside quotes nothing counts but the closing quote. -/
theorem reads_quoted {q : Char} {body : Text} (h : q ∉ body) (after : Text) (offset : Nat) :
    Reads s after offset ⟨scope :: below, some q⟩ body ⟨scope :: below, some q⟩ [] := by
  induction body generalizing offset with
  | nil => exact .nil
  | cons c cs ih =>
    rw [List.mem_cons, not_or] at h
    refine .quiet ?_ (ih h.2 _)
    rw [readChar_quoted, if_neg (Ne.symm h.1)]

/-- The scan passes a balanced text inside a table body without an event, and is then where it was.
The induction goes one parenthesis deeper for what stands in parentheses. -/
theorem Balanced.reads {commas : Bool} {t : Text} (h : Balanced commas t) (hback : '\x60' ∉ t)
    (hdepth : 0 < scope.depth) (hcommas : commas = true → 1 < scope.depth) (after : Text)
    (offset : Nat) : Reads s after offset ⟨scope :: below, none⟩ t ⟨scope :: below, none⟩ [] := by
  induction h generalizing scope after offset with
  | nil => exact .nil
  | char hquote hmark hcomma _ ih =>
    rw [List.mem_cons, not_or] at hback
    refine .quiet ?_ (ih hback.2 hdepth hcommas _ _)
    exact readChar_plain hquote (Ne.symm hback.1) hmark (fun hc => hcommas (hcomma hc)) _ _
  | @quoted commas q body t hquote hbody _ ih =>
    simp only [List.mem_cons, List.mem_append, not_or] at hback
    have hclose : Reads s after (offset + q.utf8Size + byteSize body) ⟨scope :: below, some q⟩
        (q :: t) ⟨scope :: below, none⟩ [] := by
      have hstep : ∀ o next, s.readChar o q next ⟨scope :: below, some q⟩ =
          (⟨scope :: below, none⟩, []) := by
        intro o next
        rw [readChar_quoted, if_pos rfl]
      exact .cons (hstep _ _) (ih hback.2.2.2 hdepth hcommas _ _)
    exact .cons (readChar_opening hdepth hquote _ _) ((reads_quoted hbody _ _).append hclose)
  | @paren commas inner t _ _ ihinner ih =>
    simp only [List.mem_cons, List.mem_append, not_or] at hback
    have hne : scope.depth ≠ 0 := by omega
    have hopen : ∀ o next, s.readChar o '(' next ⟨scope :: below, none⟩ =
        (⟨{ scope with depth := scope.depth + 1 } :: below, none⟩, []) := by
      intro o next
      simp [Source.readChar, isQuote, hne]
    have hclose : ∀ o next,
        s.readChar o ')' next ⟨{ scope with depth := scope.depth + 1 } :: below, none⟩ =
          (⟨scope :: below, none⟩, []) := by
      intro o next
      simp [Source.readChar, isQuote, hne]
    have hinner : Reads s (')' :: t ++ after) (offset + '('.utf8Size)
        ⟨{ scope with depth := scope.depth + 1 } :: below, none⟩ inner
        ⟨{ scope with depth := scope.depth + 1 } :: below, none⟩ [] := by
      refine ihinner hback.2.1 ?_ ?_ _ _
      · exact Nat.succ_pos _
      · intro _
        exact Nat.succ_lt_succ hdepth
    have hrest : Reads s after (offset + '('.utf8Size + byteSize inner)
        ⟨{ scope with depth := scope.depth + 1 } :: below, none⟩ (')' :: t)
        ⟨scope :: below, none⟩ [] := .cons (hclose _ _) (ih hback.2.2.2 hdepth hcommas _ _)
    exact .cons (hopen _ _) (hinner.append hrest)

end Passing

/-! ## The body of a table -/

/-- The event of an item that is written at a byte. -/
def Source.itemEvent (s : Source) (table : TableDecl) (place : Text × Nat) : ScopeEvent :=
  .item table ⟨s.lineOf place.2, place.2, place.1⟩

/-- What stands between the character that begins an item and its text: a space behind a comma,
nothing behind the opening parenthesis. -/
def IsLead (lead : Text) : Prop := lead = [] ∨ lead = [' ']

theorem IsLead.isBlank {lead : Text} (h : IsLead lead) : ∀ c ∈ lead, isBlank c = true := by
  intro c hc
  rcases h with rfl | rfl
  · cases hc
  · rw [List.mem_singleton] at hc
    rw [hc]
    rfl

section Body

variable {s : Source} {table : TableDecl} {before : Option Char} {lead : Text}

theorem reads_lead (item : ItemText) (hlead : IsLead lead) (start : Option Cursor) (after : Text)
    (offset : Nat) :
    Reads s after offset ⟨[⟨table, 1, start⟩], none⟩ (lead ++ item.text)
      ⟨[⟨table, 1, start⟩], none⟩ [] := by
  have hbalanced : Balanced false (lead ++ item.text) := by
    rcases hlead with rfl | rfl
    · exact item.balanced
    · exact .char rfl (by decide) (by decide) item.balanced
  have hback : '\x60' ∉ lead ++ item.text := by
    rcases hlead with rfl | rfl
    · exact item.no_backtick
    · simp [item.no_backtick]
  exact hbalanced.reads hback Nat.one_pos (by simp) after offset

theorem headerless_lead (item : ItemText) (hlead : IsLead lead) (hbefore : before.any isWord = false)
    {x : Char} (hx : x = ',' ∨ x = ')') (after : Text) (offset : Nat) :
    Headerless (x :: after) before offset (lead ++ item.text) := by
  rcases hlead with rfl | rfl
  · exact .of_find? item.no_header hx after hbefore offset
  · refine ⟨TableHeader.at?_eq_none_of_not_holds rfl _ _ _, ?_⟩
    exact .of_find? item.no_header hx after rfl _

/-- The item that ends behind its text is given out without the blanks in front of it. -/
theorem itemEvents_lead {text : Text} (hne : text ≠ []) (htrimmed : Trimmed text)
    (hlead : ∀ c ∈ lead, isBlank c = true) (depth offset : Nat) (after : Text) :
    s.itemEvents ⟨table, depth, some ⟨before, offset, lead ++ text ++ after⟩⟩ (offset + byteSize (lead ++ text)) =
      [s.itemEvent table (text, offset + byteSize lead)] := by
  have hraw : takeBytes (offset + byteSize (lead ++ text) - offset) (lead ++ text ++ after) = lead ++ text := by
    rw [Nat.add_sub_cancel_left, takeBytes_append]
  have htrim : trim (lead ++ text) = text := trim_append hlead htrimmed
  have hblanks : (lead ++ text).takeWhile isBlank = lead := takeWhile_isBlank_append hlead htrimmed
  have hempty : text.isEmpty = false := by
    simpa using hne
  unfold Source.itemEvents
  dsimp only
  rw [hraw, htrim, hblanks, hempty]
  rfl

theorem renderItems_singleton (item : ItemText) : renderItems [item] = item.text := by
  simp [renderItems]

theorem renderItems_cons_cons (item item' : ItemText) (items : List ItemText) :
    renderItems (item :: item' :: items) =
      item.text ++ ',' :: ([' '] ++ renderItems (item' :: items)) := by
  simp [renderItems, List.intercalate_cons_cons]

theorem readChar_comma (start : Option Cursor) (offset : Nat) (next : Cursor) :
    s.readChar offset ',' next ⟨[⟨table, 1, start⟩], none⟩ =
      (⟨[⟨table, 1, some next⟩], none⟩, s.itemEvents ⟨table, 1, start⟩ offset) := by
  simp [Source.readChar, isQuote]

theorem readChar_close (start : Option Cursor) (offset : Nat) (next : Cursor) :
    s.readChar offset ')' next ⟨[⟨table, 1, start⟩], none⟩ =
      (⟨[], none⟩, s.itemEvents ⟨table, 1, start⟩ offset ++ [.exit table (s.lineOf offset)]) := by
  simp [Source.readChar, isQuote, Source.resumeOuter]

/-- The items of a body, read from the character that begins the first one to the closing
parenthesis: each comma gives out the item in front of it, the parenthesis the last one. -/
theorem reads_items {items : List ItemText} (hne : items ≠ []) (hlead : IsLead lead) (offset : Nat)
    (after : Text) :
    Reads s after offset
      ⟨[⟨table, 1, some ⟨before, offset, lead ++ (renderItems items ++ ')' :: after)⟩⟩], none⟩
      (lead ++ (renderItems items ++ [')'])) ⟨[], none⟩
      ((itemPlaces (offset + byteSize lead) items).map (s.itemEvent table) ++
        [.exit table (s.lineOf (offset + byteSize (lead ++ renderItems items)))]) := by
  induction items generalizing before lead offset with
  | nil => exact absurd rfl hne
  | cons item items ih =>
    cases items with
    | nil =>
      rw [renderItems_singleton, ← List.append_assoc, ← List.append_assoc]
      refine (reads_lead item hlead _ _ _).append (.single ?_)
      rw [readChar_close, itemEvents_lead item.ne_nil item.trimmed hlead.isBlank]
      rfl
    | cons item' items =>
      have htext : ∀ u : Text, lead ++ (renderItems (item :: item' :: items) ++ u) =
          lead ++ item.text ++ ',' :: ([' '] ++ (renderItems (item' :: items) ++ u)) := by
        intro u
        simp [renderItems_cons_cons]
      have hplaces : itemPlaces (offset + byteSize lead) (item :: item' :: items) =
          (item.text, offset + byteSize lead) ::
            itemPlaces (offset + byteSize (lead ++ item.text) + ','.utf8Size + byteSize [' '])
              (item' :: items) := by
        rw [itemPlaces, byteSize_append, Nat.add_assoc offset]
        rfl
      have hstop : offset + byteSize (lead ++ renderItems (item :: item' :: items)) =
          offset + byteSize (lead ++ item.text) + ','.utf8Size +
            byteSize ([' '] ++ renderItems (item' :: items)) := by
        rw [renderItems_cons_cons]
        simp only [byteSize_append, byteSize_cons]
        omega
      have hcomma : s.readChar (offset + byteSize (lead ++ item.text)) ','
          ⟨some ',', offset + byteSize (lead ++ item.text) + ','.utf8Size,
            [' '] ++ (renderItems (item' :: items) ++ [')']) ++ after⟩
          ⟨[⟨table, 1, some ⟨before, offset, lead ++ item.text ++
            ',' :: ([' '] ++ (renderItems (item' :: items) ++ ')' :: after))⟩⟩], none⟩ =
          (⟨[⟨table, 1, some ⟨some ',', offset + byteSize (lead ++ item.text) + ','.utf8Size,
            [' '] ++ (renderItems (item' :: items) ++ ')' :: after)⟩⟩], none⟩,
            [s.itemEvent table (item.text, offset + byteSize lead)]) := by
        rw [readChar_comma, itemEvents_lead item.ne_nil item.trimmed hlead.isBlank, List.append_assoc,
          List.append_assoc]
        rfl
      rw [htext, htext, hplaces, hstop]
      exact (reads_lead item hlead _ _ _).append (.cons hcomma (ih (by simp) (Or.inr rfl) _))

theorem headerless_items {items : List ItemText} (hne : items ≠ []) (hlead : IsLead lead)
    (hbefore : before.any isWord = false) (offset : Nat) (after : Text) :
    Headerless after before offset (lead ++ (renderItems items ++ [')'])) := by
  induction items generalizing before lead offset with
  | nil => exact absurd rfl hne
  | cons item items ih =>
    cases items with
    | nil =>
      rw [renderItems_singleton, ← List.append_assoc]
      refine (headerless_lead item hlead hbefore (Or.inr rfl) after offset).append ?_
      exact ⟨TableHeader.at?_eq_none_of_not_holds rfl _ _ _, trivial⟩
    | cons item' items =>
      have htext : lead ++ (renderItems (item :: item' :: items) ++ [')']) =
          lead ++ item.text ++ ',' :: ([' '] ++ (renderItems (item' :: items) ++ [')'])) := by
        simp [renderItems_cons_cons]
      rw [htext]
      refine (headerless_lead item hlead hbefore (Or.inl rfl) _ offset).append ?_
      exact ⟨TableHeader.at?_eq_none_of_not_holds rfl _ _ _, ih (by simp) (Or.inr rfl) rfl _⟩

/-- What is written behind the name of a table. -/
def renderBody (items : List ItemText) : Text :=
  ' ' :: '(' :: (renderItems items ++ [')'] ++ [';', '\n'])

theorem reads_body {items : List ItemText} (hne : items ≠ []) (offset : Nat) (after : Text) :
    Reads s after offset ⟨[⟨table, 0, none⟩], none⟩ (renderBody items) ⟨[], none⟩
      ((itemPlaces (offset + 2) items).map (s.itemEvent table) ++
        [.exit table (s.lineOf (offset + 2 + byteSize (renderItems items)))]) := by
  have hspace : ∀ o next, s.readChar o ' ' next ⟨[⟨table, 0, none⟩], none⟩ =
      (⟨[⟨table, 0, none⟩], none⟩, []) := by
    intro o next
    simp [Source.readChar, isQuote]
  have hopen : ∀ o next, s.readChar o '(' next ⟨[⟨table, 0, none⟩], none⟩ =
      (⟨[⟨table, 1, some next⟩], none⟩, []) := by
    intro o next
    simp [Source.readChar, isQuote]
  -- behind the closing parenthesis no table is open
  have hend : ∀ o, Reads s after o ⟨[], none⟩ [';', '\n'] ⟨[], none⟩ [] :=
    fun o => .quiet rfl (.quiet rfl .nil)
  have hitems : Reads s ([';', '\n'] ++ after) (offset + 2)
      ⟨[⟨table, 1, some ⟨some '(', offset + 2, renderItems items ++ ')' :: ([';', '\n'] ++ after)⟩⟩],
        none⟩ (renderItems items ++ [')']) ⟨[], none⟩ _ :=
    reads_items hne (Or.inl rfl) (offset + 2) ([';', '\n'] ++ after)
  have hbody := hitems.append (hend _)
  rw [List.append_nil] at hbody
  refine .quiet (hspace _ _) (.quiet (hopen _ _) ?_)
  rw [List.append_assoc, List.append_assoc]
  exact hbody

theorem headerless_body {items : List ItemText} (hne : items ≠ []) (offset : Nat) (after : Text) :
    Headerless after before offset (renderBody items) := by
  have hend : ∀ before o, Headerless after before o [';', '\n'] := fun before o =>
    ⟨TableHeader.at?_eq_none_of_not_holds rfl _ _ _,
      TableHeader.at?_eq_none_of_not_holds rfl _ _ _, trivial⟩
  refine ⟨TableHeader.at?_eq_none_of_not_holds rfl _ _ _,
    TableHeader.at?_eq_none_of_not_holds rfl _ _ _, ?_⟩
  exact (headerless_items hne (Or.inl rfl) rfl _ _).append (hend _ _)

end Body

/-! ## Tables and scripts -/

/-- The characters of a header that was read already are passed over. -/
theorem eventsFrom_skip {s : Source} {mode : ScopeMode} {resume : Nat} {st : ScopeState} {t : Text}
    (before : Option Char) (offset : Nat) (hresume : offset + byteSize t ≤ resume) (after : Text) :
    s.eventsFrom mode resume st before offset (t ++ after) =
      s.eventsFrom mode resume st (t.getLast?.or before) (offset + byteSize t) after := by
  induction t generalizing before offset with
  | nil => rfl
  | cons x xs ih =>
    have hsize := x.utf8Size_pos
    rw [byteSize_cons] at hresume
    rw [List.cons_append, Source.eventsFrom, if_pos (by omega), ih _ _ (by omega),
      getLast?_cons_or, byteSize_cons, Nat.add_assoc]

/-- The header opens the scope of the table, and its characters are passed over. -/
theorem eventsFrom_header (s : Source) {name : Text} (hne : name ≠ []) (hword : ∀ c ∈ name, isWord c = true)
    {resume offset : Nat} (hresume : resume ≤ offset) {before : Option Char} (hbefore : before.any isWord = false)
    (rest : Text) :
    s.eventsFrom .replace resume ⟨[], none⟩ before offset ("CREATE TABLE ".toList ++ (name ++ ' ' :: '(' :: rest)) =
      .enter ⟨String.ofList name, s.lineOf offset, offset⟩ ::
        s.eventsFrom .replace (offset + 13 + byteSize name)
          ⟨[⟨⟨String.ofList name, s.lineOf offset, offset⟩, 0, none⟩], none⟩
          (name.getLast?.or (some ' ')) (offset + 13 + byteSize name) (' ' :: '(' :: rest) := by
  have hheader := TableHeader.at?_createTable hne hword hbefore offset rest
  have htext : "CREATE TABLE ".toList ++ (name ++ ' ' :: '(' :: rest) =
      'C' :: ("REATE TABLE ".toList ++ (name ++ ' ' :: '(' :: rest)) := rfl
  rw [htext] at hheader ⊢
  rw [Source.eventsFrom, if_neg (by omega)]
  simp only [Option.isNone_none, if_true]
  rw [hheader]
  have hopen : s.openScope .replace ⟨String.ofList name, offset, offset + 13 + byteSize name⟩ ⟨[], none⟩ =
      (⟨[⟨⟨String.ofList name, s.lineOf offset, offset⟩, 0, none⟩], none⟩,
        [.enter ⟨String.ofList name, s.lineOf offset, offset⟩]) := rfl
  have hcreate : byteSize "REATE TABLE ".toList = 12 := rfl
  have hone : 'C'.utf8Size = 1 := rfl
  have hoffset : offset + 1 + 12 = offset + 13 := rfl
  dsimp only
  rw [hopen, hone, eventsFrom_skip _ _ (by omega), hcreate, hoffset, eventsFrom_skip _ _ (by omega)]
  rfl

/-- The declaration that a rendered table makes. -/
def TableText.decl (s : Source) (offset : Nat) (t : TableText) : TableDecl :=
  ⟨String.ofList t.name, s.lineOf offset, offset⟩

/-- The events of a rendered table. -/
def TableText.events (s : Source) (offset : Nat) (t : TableText) : List ScopeEvent :=
  .enter (t.decl s offset) ::
    ((itemPlaces (t.bodyOffset offset) t.items).map (s.itemEvent (t.decl s offset)) ++
      [.exit (t.decl s offset) (s.lineOf (t.bodyOffset offset + byteSize (renderItems t.items)))])

namespace TableText

variable (s : Source) (t : TableText)

theorem render_eq : t.render = "CREATE TABLE ".toList ++ (t.name ++ renderBody t.items) := by
  have hopen : " (".toList = [' ', '('] := rfl
  have hclose : ");\n".toList = [')'] ++ [';', '\n'] := rfl
  unfold render renderBody
  rw [hopen, hclose]
  simp only [List.append_assoc, List.cons_append, List.nil_append]

theorem bodyOffset_eq (offset : Nat) : t.bodyOffset offset = offset + 13 + byteSize t.name + 2 := by
  have hcreate : byteSize "CREATE TABLE ".toList = 13 := rfl
  have hopen : byteSize " (".toList = 2 := rfl
  rw [bodyOffset, byteSize_append, byteSize_append, hcreate, hopen]
  omega

theorem byteSize_render (offset : Nat) :
    offset + byteSize t.render = offset + 13 + byteSize t.name + byteSize (renderBody t.items) := by
  have hcreate : byteSize "CREATE TABLE ".toList = 13 := rfl
  rw [render_eq, byteSize_append, byteSize_append, hcreate]
  omega

/-- Behind a rendered table the scan is as it was in front of it. -/
theorem eventsFrom_render {resume offset : Nat} (hresume : resume ≤ offset) {before : Option Char}
    (hbefore : before.any isWord = false) (after : Text) :
    s.eventsFrom .replace resume ⟨[], none⟩ before offset (t.render ++ after) =
      t.events s offset ++
        s.eventsFrom .replace (offset + 13 + byteSize t.name) ⟨[], none⟩ (some '\n')
          (offset + byteSize t.render) after := by
  have htext : t.render ++ after = "CREATE TABLE ".toList ++ (t.name ++ ' ' :: '(' ::
      (renderItems t.items ++ [')'] ++ [';', '\n'] ++ after)) := by
    rw [render_eq, List.append_assoc, List.append_assoc]
    rfl
  have hbody : ' ' :: '(' :: (renderItems t.items ++ [')'] ++ [';', '\n'] ++ after) =
      renderBody t.items ++ after := rfl
  have hlast : ∀ before, (renderBody t.items).getLast?.or before = some '\n' := by
    intro before
    rw [renderBody, ← List.cons_append, ← List.cons_append, List.getLast?_append]
    rfl
  rw [htext, eventsFrom_header s t.name_ne_nil t.isWord_name hresume hbefore, hbody,
    eventsFrom_of_reads (Nat.le_refl _) (headerless_body t.items_ne_nil _ _)
      (reads_body t.items_ne_nil _ _), hlast, ← byteSize_render, ← bodyOffset_eq]
  rfl

end TableText

/-- The events of a script of rendered tables that begins at `offset`. -/
def scriptEvents (s : Source) (offset : Nat) : List TableText → List ScopeEvent
  | [] => []
  | t :: tables => t.events s offset ++ scriptEvents s (offset + byteSize t.render) tables

/-- The scan of a rendered script, by induction on the tables: between two tables none is open. -/
theorem eventsFrom_renderScript (s : Source) (tables : List TableText) {resume offset : Nat}
    (hresume : resume ≤ offset) {before : Option Char} (hbefore : before.any isWord = false) :
    s.eventsFrom .replace resume ⟨[], none⟩ before offset (renderScript tables) =
      scriptEvents s offset tables := by
  induction tables generalizing resume offset before with
  | nil => rfl
  | cons t tables ih =>
    have hstop : offset + 13 + byteSize t.name ≤ offset + byteSize t.render := by
      rw [t.byteSize_render]
      omega
    rw [renderScript, List.flatMap_cons, t.eventsFrom_render s hresume hbefore, scriptEvents]
    exact congrArg _ (ih hstop rfl)

theorem commentFree_renderItems (items : List ItemText) : CommentFree (renderItems items) := by
  induction items with
  | nil => exact .nil
  | cons item items ih =>
    cases items with
    | nil =>
      rw [renderItems_singleton]
      exact item.commentFree
    | cons item' items =>
      rw [renderItems_cons_cons]
      exact item.commentFree.append_cons (by decide) (.cons (by decide) ih)

theorem TableText.commentFree_header (t : TableText) :
    CommentFree ("CREATE TABLE ".toList ++ t.name) := by
  have hmark : ∀ x, isWord x = false → x ∉ "CREATE TABLE ".toList →
      x ∉ "CREATE TABLE ".toList ++ t.name := by
    intro x hword hcreate hmem
    rcases List.mem_append.mp hmem with h | h
    · exact hcreate h
    · rw [t.isWord_name x h] at hword
      cases hword
  exact .of_not_mem (hmark '-' rfl (by decide)) (hmark '/' rfl (by decide))

theorem commentFree_renderScript (tables : List TableText) : CommentFree (renderScript tables) := by
  induction tables with
  | nil => exact .nil
  | cons t tables ih =>
    have hitems : CommentFree (renderItems t.items ++ ')' :: ';' :: '\n' :: renderScript tables) :=
      (commentFree_renderItems t.items).append_cons (by decide)
        (.cons (by decide) (.cons (by decide) ih))
    have hscript : renderScript (t :: tables) = "CREATE TABLE ".toList ++ t.name ++
        ' ' :: '(' :: (renderItems t.items ++ ')' :: ';' :: '\n' :: renderScript tables) := by
      rw [renderScript, List.flatMap_cons, t.render_eq, renderBody]
      simp only [List.append_assoc, List.cons_append, List.nil_append]
      rfl
    rw [hscript]
    exact t.commentFree_header.append_cons (by decide) (.cons (by decide) hitems)

theorem scopeEvents_renderScript (tables : List TableText) :
    (Source.ofString (String.ofList (renderScript tables))).scopeEvents .replace =
      scriptEvents (Source.ofString (String.ofList (renderScript tables))) 0 tables := by
  have htext : (Source.ofString (String.ofList (renderScript tables))).text = renderScript tables := by
    show maskComments (String.ofList (renderScript tables)).toList = renderScript tables
    rw [String.toList_ofList, (commentFree_renderScript tables).maskComments_eq]
  rw [Source.scopeEvents, htext]
  exact eventsFrom_renderScript _ tables (Nat.le_refl 0) rfl

/-! ### Reading the events -/

theorem TableText.opened_events (s : Source) (offset : Nat) (t : TableText) :
    (t.events s offset).filterMap ScopeEvent.opened? = [t.decl s offset] := by
  have hitems : ∀ places : List (Text × Nat),
      (places.map (s.itemEvent (t.decl s offset))).filterMap ScopeEvent.opened? = [] := by
    intro places
    rw [List.filterMap_map, List.filterMap_eq_nil_iff]
    intro place _
    rfl
  have hopen : ScopeEvent.opened? (.enter (t.decl s offset)) = some (t.decl s offset) := rfl
  unfold TableText.events
  rw [List.filterMap_cons_some hopen, List.filterMap_append, hitems]
  rfl

theorem TableText.items_events (s : Source) (offset : Nat) (t : TableText) :
    ((t.events s offset).filterMap ScopeEvent.item?).map TableItem.place =
      (itemPlaces (t.bodyOffset offset) t.items).map (String.ofList t.name, ·) := by
  have hitems : ∀ places : List (Text × Nat),
      ((places.map (s.itemEvent (t.decl s offset))).filterMap ScopeEvent.item?).map TableItem.place =
      places.map (String.ofList t.name, ·) := by
    intro places
    induction places with
    | nil => rfl
    | cons place places ih => exact congrArg _ ih
  have hopen : ScopeEvent.item? (.enter (t.decl s offset)) = none := rfl
  unfold TableText.events
  rw [List.filterMap_cons_none hopen, List.filterMap_append, List.map_append, hitems]
  exact List.append_nil _

theorem opened_scriptEvents (s : Source) (offset : Nat) (tables : List TableText) :
    ((scriptEvents s offset tables).filterMap ScopeEvent.opened?).map TableDecl.name =
      tables.map (fun t => String.ofList t.name) := by
  induction tables generalizing offset with
  | nil => rfl
  | cons t tables ih =>
    rw [scriptEvents, List.filterMap_append, t.opened_events, List.map_append, ih]
    rfl

theorem items_scriptEvents (s : Source) (offset : Nat) (tables : List TableText) :
    ((scriptEvents s offset tables).filterMap ScopeEvent.item?).map TableItem.place =
      scriptPlaces offset tables := by
  induction tables generalizing offset with
  | nil => rfl
  | cons t tables ih =>
    rw [scriptEvents, List.filterMap_append, List.map_append, t.items_events, ih, scriptPlaces]

/-- **Scanning undoes rendering.**  The tables of a rendered script have the names that were written,
in order, and its items are the texts that were written, each under the name of its table and at the
byte where it stands. -/
theorem scan_render (tables : List TableText) :
    (Source.ofString (String.ofList (renderScript tables))).tables.map TableDecl.name =
        tables.map (fun t => String.ofList t.name) ∧
      (Source.ofString (String.ofList (renderScript tables))).items.map TableItem.place =
        scriptPlaces 0 tables := by
  rw [Source.tables, Source.items, Source.itemsIn, scopeEvents_renderScript]
  exact ⟨opened_scriptEvents _ 0 tables, items_scriptEvents _ 0 tables⟩

/-- Two tables; a comma and a semicolon of the second item stand in quotes, another comma in
parentheses. -/
def sampleTables : List TableText :=
  let key : ItemText :=
    { text := "id int".toList
      ne_nil := by decide
      trimmed := ⟨by rintro c ⟨⟩; rfl, by rintro c ⟨⟩; rfl⟩
      commentFree := ⟨by decide, by decide⟩
      no_backtick := by decide
      no_header := by decide +kernel
      balanced := by decide }
  let choice : ItemText :=
    { text := "b in(',;',a)".toList
      ne_nil := by decide
      trimmed := ⟨by rintro c ⟨⟩; rfl, by rintro c ⟨⟩; rfl⟩
      commentFree := ⟨by decide, by decide⟩
      no_backtick := by decide
      no_header := by decide +kernel
      balanced := by decide }
  [⟨"u".toList, [key, choice], by decide, List.all_eq_true.mp rfl, by simp⟩,
    ⟨"t1".toList, [key], by decide, List.all_eq_true.mp rfl, by simp⟩]

theorem scan_render_sampleTables :
    renderScript sampleTables =
        "CREATE TABLE u (id int, b in(',;',a));\nCREATE TABLE t1 (id int);\n".toList ∧
      (Source.ofString (String.ofList (renderScript sampleTables))).tables.map TableDecl.name =
        ["u", "t1"] ∧
      (Source.ofString (String.ofList (renderScript sampleTables))).items.map TableItem.place =
        [("u", "id int".toList, 16), ("u", "b in(',;',a)".toList, 24), ("t1", "id int".toList, 56)] :=
  ⟨by decide, scan_render sampleTables⟩

end SchemaReview
