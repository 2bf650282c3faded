import SchemaReview.Proofs.Scope.Events
import SchemaReview.Detector.MutualReference

/-!
# Proofs.Scope.Mode — when the two modes of the scan agree

The modes differ only where a header stands inside an open scope, and there two tables are open at once.  So the
scans run in lock step as long as that does not happen.

* `NeverTwoOpen`: after no part of the events are two tables open.
* `openScope_nested_eq`, `two_le_length_openScope_nested`: a header outside scopes is read alike in both modes, and one
  inside a scope leaves two tables open.
* `eventsFrom_nested_eq`: the two scans from the same state.
* `scopeModes_agree`: the events, the items, and the relations that are read off the items.
-/

namespace SchemaReview

/-- After no first part of the events are two tables open, when `tables` were open before. -/
def NeverTwoOpen (tables : List TableDecl) (events : List ScopeEvent) : Prop :=
  ∀ before after left, events = before ++ after → openTables tables before = some left → left.length ≤ 1

theorem openTables_append (tables : List TableDecl) (events events' : List ScopeEvent) :
    openTables tables (events ++ events') = (openTables tables events).bind (openTables · events') := by
  induction events generalizing tables with
  | nil => cases tables <;> rfl
  | cons event events ih =>
    cases event with
    | enter table => cases tables <;> exact ih _
    | item owner piece =>
      cases tables with
      | nil => rfl
      | cons table tables =>
        simp only [List.cons_append, openTables]
        split
        · exact ih _
        · rfl
    | exit owner line =>
      cases tables with
      | nil => rfl
      | cons table tables =>
        simp only [List.cons_append, openTables]
        split
        · exact ih _
        · rfl

namespace NeverTwoOpen

variable {tables left : List TableDecl} {events events' : List ScopeEvent}

theorem length_le (h : NeverTwoOpen tables (events ++ events')) (hleft : openTables tables events = some left) :
    left.length ≤ 1 :=
  h events events' left rfl hleft

theorem append_right (h : NeverTwoOpen tables (events ++ events'))
    (hleft : openTables tables events = some left) : NeverTwoOpen left events' := by
  intro before after left' hevents hopen
  refine h (events ++ before) after left' (by rw [hevents, List.append_assoc]) ?_
  rw [openTables_append, hleft, Option.bind_some, hopen]

end NeverTwoOpen

/-! ## Headers in the two modes -/

variable {s : Source} {p : Progress} {offset : Nat} {rest : Text} {st : ScopeState}

theorem openScope_nested_eq (s : Source) (header : TableHeader) (hstack : st.stack = []) :
    s.openScope .nested header st = s.openScope .replace header st := by
  unfold Source.openScope
  rw [hstack]
  rfl

/-- A header inside a scope leaves the table of that scope open. -/
theorem two_le_length_openScope_nested (s : Source) (header : TableHeader) (hstack : st.stack ≠ []) :
    2 ≤ (s.openScope .nested header st).1.stack.length := by
  obtain ⟨outer, below, hcons⟩ := List.exists_cons_of_ne_nil hstack
  unfold Source.openScope
  rw [hcons]
  simp

/-! ## The scans in lock step -/

/-- The two scans agree from a state on, when no two tables are open from there on in the nested one. -/
theorem eventsFrom_nested_eq (h : ScanInv s .nested p offset rest st) (resume : Nat) (before : Option Char)
    (hone : NeverTwoOpen p.tables (s.eventsFrom .nested resume st before offset rest)) :
    s.eventsFrom .nested resume st before offset rest = s.eventsFrom .replace resume st before offset rest := by
  induction rest generalizing p offset st resume before with
  | nil => rfl
  | cons x xs ih =>
    rw [Source.eventsFrom] at hone
    rw [Source.eventsFrom, Source.eventsFrom]
    split at hone
    · rename_i hresume
      rw [if_pos hresume, if_pos hresume]
      exact ih h.advance resume (some x) hone
    · rename_i hresume
      rw [if_neg hresume, if_neg hresume]
      split at hone
      · rename_i header hheader
        obtain ⟨hquote, hheader⟩ := quote_eq_none_of_header hheader
        obtain ⟨q, hq, hinv⟩ := openScope_run h hquote (TableHeader.start_of_at? hheader)
        -- an open scope would leave two tables open
        have hstack : st.stack = [] := by
          by_contra hopen
          have htwo := two_le_length_openScope_nested s header hopen
          have hle := hone.length_le hq.openTables
          rw [hinv.tables, List.length_map] at hle
          omega
        have hrest := ih hinv header.stop (some x) (hone.append_right hq.openTables)
        dsimp only
        rw [hrest, openScope_nested_eq s header hstack]
      · obtain ⟨q, hq, hinv⟩ := readChar_run (some x) h
        have hrest := ih hinv resume (some x) (hone.append_right hq.openTables)
        dsimp only
        rw [hrest]

theorem neverTwoOpen_replace (s : Source) : NeverTwoOpen [] (s.scopeEvents .replace) := by
  intro before after left hevents hleft
  obtain ⟨q, hq, hqtables⟩ := eventsFrom_run (scanInv_start s .replace) 0 none
  obtain ⟨tables, htables, hlength⟩ := (hq.wellFormed rfl hqtables).single rfl before after hevents
  rw [htables, Option.some.injEq] at hleft
  exact hleft ▸ hlength

theorem neverTwoOpen_nested_iff (s : Source) :
    NeverTwoOpen [] (s.scopeEvents .nested) ↔ s.scopeEvents .nested = s.scopeEvents .replace := by
  constructor
  · exact eventsFrom_nested_eq (scanInv_start s .nested) 0 none
  · intro h
    rw [h]
    exact neverTwoOpen_replace s

/-- **The modes agree without nesting.**  The events of the two scans are the same exactly when no two tables are ever
open at once in the nested one.  The relations between tables are then read from the items that all other findings are
read from. -/
theorem scopeModes_agree (sql : String) :
    (NeverTwoOpen [] ((Source.ofString sql).scopeEvents .nested) ↔
      (Source.ofString sql).scopeEvents .nested = (Source.ofString sql).scopeEvents .replace) ∧
    (NeverTwoOpen [] ((Source.ofString sql).scopeEvents .nested) →
      (Source.ofString sql).itemsIn .nested = (Source.ofString sql).items ∧
      (Source.ofString sql).relations =
        (Source.ofString sql).items.flatMap (relationsOf (Source.ofString sql))) := by
  refine ⟨neverTwoOpen_nested_iff _, fun h => ?_⟩
  have hitems : (Source.ofString sql).itemsIn .nested = (Source.ofString sql).items := by
    rw [Source.items, Source.itemsIn, Source.itemsIn, (neverTwoOpen_nested_iff _).mp h]
  exact ⟨hitems, by rw [Source.relations, hitems]⟩

/-- Two tables that reference each other, behind each other in the script. -/
theorem scopeModes_agree_two_tables :
    let sql := "CREATE TABLE a (x INT, FOREIGN KEY (x) REFERENCES b(y));\n" ++
      "CREATE TABLE b (y INT, FOREIGN KEY (y) REFERENCES a(x))"
    let s := Source.ofString sql
    NeverTwoOpen [] (s.scopeEvents .nested) ∧ s.itemsIn .nested = s.items ∧
      s.relations = s.items.flatMap (relationsOf s) ∧ s.relations.length = 2 := by
  intro sql s
  have hone : NeverTwoOpen [] (s.scopeEvents .nested) := (scopeModes_agree sql).1.mpr (by decide +kernel)
  obtain ⟨hitems, hrelations⟩ := (scopeModes_agree sql).2 hone
  exact ⟨hone, hitems, hrelations, by decide +kernel⟩

/-- A table inside another one, whose items the two modes give to different tables. -/
example : ¬ NeverTwoOpen [] ((Source.ofString "CREATE TABLE a (x INT, CREATE TABLE b (y INT), z INT)").scopeEvents
    .nested) := by
  rw [neverTwoOpen_nested_iff]
  decide +kernel

end SchemaReview
