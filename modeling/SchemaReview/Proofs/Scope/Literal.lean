import Mathlib.Data.Bool.AllAny
import SchemaReview.Proofs.Ddl.Literal
import SchemaReview.Proofs.Scope.RoundTrip

/-!
# Proofs.Scope.Literal — literals in a table body

Masking and the scan of table scopes both follow the quotes one by one, and a doubled quote leaves a literal and
enters it again.  In between nothing is read, so a literal is passed whatever it says: comment marks are kept
(`maskFrom_quotedLiteral`), and no header, parenthesis or comma in it counts (`eventsFrom_quotedLiteral`).

* `maskComments_tableScript`: a script with one table and one item that ends with a literal is masked as it is.
* `items_tableScript`: its only item is the one that was written.
-/

namespace SchemaReview

open Text

/-! ## Masking -/

/-- Without dashes, slashes and quotes there is nothing to mask. -/
theorem maskFrom_code_append {t : Text} (ht : ∀ c ∈ t, c ∉ ['-', '/', '\x27', '"']) (u : Text) :
    maskFrom .code (t ++ u) = t ++ maskFrom .code u := by
  induction t with
  | nil => rfl
  | cons c t ih =>
    rw [List.forall_mem_cons] at ht
    have hc := ht.1
    simp only [List.mem_cons, List.not_mem_nil, or_false, not_or] at hc
    have hcomment : ¬ OpensComment (c :: (t ++ u)) := by
      rintro (hopens | hopens)
      · exact hc.1 (List.cons_prefix_cons.mp hopens).1.symm
      · exact hc.2.1 (List.cons_prefix_cons.mp hopens).1.symm
    have hquote : isQuote c = false := by
      rw [← Bool.not_eq_true, isQuote_iff]
      exact not_or.mpr hc.2.2
    rw [List.cons_append, maskFrom_code_cons hcomment, hquote, if_neg Bool.false_ne_true, ih ht.2, List.cons_append]

theorem maskFrom_quoted_doubled (c : Char) (t : Text) :
    maskFrom (.quoted '\x27') (doubled c ++ t) = doubled c ++ maskFrom (.quoted '\x27') t := by
  by_cases hc : c = '\x27'
  · -- the first quote leaves the literal and the second one enters it again
    subst hc
    show maskFrom (.quoted '\x27') ('\x27' :: '\x27' :: t) = '\x27' :: '\x27' :: maskFrom (.quoted '\x27') t
    rw [maskFrom, if_pos rfl, maskFrom_code_cons (not_opensComment_of_isQuote rfl)]
    rfl
  · rw [doubled_of_ne hc, List.singleton_append, maskFrom, if_neg hc, List.singleton_append]

theorem maskFrom_doubleQuotes (v t : Text) :
    maskFrom (.quoted '\x27') (doubleQuotes v ++ t) = doubleQuotes v ++ maskFrom (.quoted '\x27') t := by
  induction v with
  | nil => rfl
  | cons c cs ih =>
    rw [doubleQuotes_cons, List.append_assoc, maskFrom_quoted_doubled, ih, List.append_assoc]

/-- A literal is masked as it is. -/
theorem maskFrom_quotedLiteral (v t : Text) :
    maskFrom .code (quotedLiteral v ++ t) = quotedLiteral v ++ maskFrom .code t := by
  rw [quotedLiteral_append, maskFrom_code_cons (not_opensComment_of_isQuote rfl)]
  show '\x27' :: maskFrom (.quoted '\x27') (doubleQuotes v ++ '\x27' :: t) = _
  rw [maskFrom_doubleQuotes, maskFrom, if_pos rfl, quotedLiteral_append]

/-! ## The scan -/

section Scan

variable {s : Source} {mode : ScopeMode} {scope : OpenScope} {below : List OpenScope} {resume offset : Nat}

/-- Between quotes no header is looked for. -/
theorem eventsFrom_quoted_cons (hresume : resume ≤ offset) (q c : Char) (before : Option Char) (t : Text) :
    s.eventsFrom mode resume ⟨scope :: below, some q⟩ before offset (c :: t) =
      s.eventsFrom mode resume ⟨scope :: below, if c = q then none else some q⟩ (some c) (offset + c.utf8Size) t := by
  rw [Source.eventsFrom, if_neg (by omega)]
  rfl

/-- A quote that stands in a table body opens a literal. -/
theorem eventsFrom_opening (hresume : resume ≤ offset) (hdepth : 0 < scope.depth) (before : Option Char) (t : Text) :
    s.eventsFrom mode resume ⟨scope :: below, none⟩ before offset ('\x27' :: t) =
      s.eventsFrom mode resume ⟨scope :: below, some '\x27'⟩ (some '\x27') (offset + 1) t := by
  have hnone : Headerless t before offset ['\x27'] := ⟨TableHeader.at?_eq_none_of_not_holds rfl _ _ _, trivial⟩
  exact eventsFrom_of_reads hresume hnone (.single (readChar_opening hdepth rfl _ _))

theorem eventsFrom_doubled (hresume : resume ≤ offset) (hdepth : 0 < scope.depth) (c : Char) (before : Option Char)
    (t : Text) :
    s.eventsFrom mode resume ⟨scope :: below, some '\x27'⟩ before offset (doubled c ++ t) =
      s.eventsFrom mode resume ⟨scope :: below, some '\x27'⟩ ((doubled c).getLast?.or before)
        (offset + byteSize (doubled c)) t := by
  by_cases hc : c = '\x27'
  · subst hc
    show s.eventsFrom mode resume ⟨scope :: below, some '\x27'⟩ before offset ('\x27' :: '\x27' :: t) = _
    rw [eventsFrom_quoted_cons hresume, if_pos rfl, eventsFrom_opening (by omega) hdepth]
    rfl
  · rw [doubled_of_ne hc, List.singleton_append, eventsFrom_quoted_cons hresume, if_neg hc]
    rfl

theorem eventsFrom_doubleQuotes (hresume : resume ≤ offset) (hdepth : 0 < scope.depth) (v : Text)
    (before : Option Char) (t : Text) :
    s.eventsFrom mode resume ⟨scope :: below, some '\x27'⟩ before offset (doubleQuotes v ++ t) =
      s.eventsFrom mode resume ⟨scope :: below, some '\x27'⟩ ((doubleQuotes v).getLast?.or before)
        (offset + byteSize (doubleQuotes v)) t := by
  induction v generalizing before offset with
  | nil => rfl
  | cons c cs ih =>
    rw [doubleQuotes_cons, List.append_assoc, eventsFrom_doubled hresume hdepth, ih (by omega), List.getLast?_append,
      Option.or_assoc, byteSize_append, Nat.add_assoc]

/-- A literal in a table body is passed without an event. -/
theorem eventsFrom_quotedLiteral (hresume : resume ≤ offset) (hdepth : 0 < scope.depth) (v : Text)
    (before : Option Char) (t : Text) :
    s.eventsFrom mode resume ⟨scope :: below, none⟩ before offset (quotedLiteral v ++ t) =
      s.eventsFrom mode resume ⟨scope :: below, none⟩ (some '\x27') (offset + byteSize (quotedLiteral v)) t := by
  have hsize : offset + 1 + byteSize (doubleQuotes v) + 1 = offset + byteSize (quotedLiteral v) := by
    have hquote : '\x27'.utf8Size = 1 ∧ byteSize ['\x27'] = 1 := by decide
    rw [quotedLiteral, byteSize_cons, byteSize_append]
    omega
  rw [quotedLiteral_append, eventsFrom_opening hresume hdepth, eventsFrom_doubleQuotes (by omega) hdepth,
    eventsFrom_quoted_cons (by omega), if_pos rfl, ← hsize]
  rfl

end Scan

/-! ## A table with one item -/

/-- A script that declares one table with one item. -/
def tableScript (name item : Text) : Text := "CREATE TABLE ".toList ++ (name ++ ' ' :: '(' :: (item ++ [')']))

theorem maskComments_tableScript {name w : Text} (hword : ∀ c ∈ name, isWord c = true)
    (hw : ∀ c ∈ w, c ∉ ['-', '/', '\x27', '"']) (v : Text) :
    maskComments (tableScript name (w ++ quotedLiteral v)) = tableScript name (w ++ quotedLiteral v) := by
  have hsplit : tableScript name (w ++ quotedLiteral v) =
      "CREATE TABLE ".toList ++ (name ++ ' ' :: '(' :: w) ++ (quotedLiteral v ++ [')']) := by
    refine Eq.trans ?_ (List.append_assoc _ _ _).symm
    unfold tableScript
    congr 1
    simp
  have hname : ∀ c ∈ name, c ∉ ['-', '/', '\x27', '"'] := fun c hc => not_mem_of_isWord rfl (hword c hc)
  have hopen : ∀ c ∈ ' ' :: '(' :: w, c ∉ ['-', '/', '\x27', '"'] :=
    List.forall_mem_cons.mpr ⟨by decide, List.forall_mem_cons.mpr ⟨by decide, hw⟩⟩
  have hplain : ∀ c ∈ "CREATE TABLE ".toList ++ (name ++ ' ' :: '(' :: w), c ∉ ['-', '/', '\x27', '"'] :=
    List.forall_mem_append.mpr ⟨List.all_iff_forall_prop.mp (by decide), List.forall_mem_append.mpr ⟨hname, hopen⟩⟩
  rw [hsplit, maskComments, maskFrom_code_append hplain, maskFrom_quotedLiteral]
  rfl

section Table

variable {s : Source} {table : TableDecl} {resume offset : Nat} {before : Option Char}

/-- The parenthesis behind the name begins the first item. -/
theorem eventsFrom_bodyStart (hresume : resume ≤ offset) (t : Text) :
    s.eventsFrom .replace resume ⟨[⟨table, 0, none⟩], none⟩ before offset (' ' :: '(' :: t) =
      s.eventsFrom .replace resume ⟨[⟨table, 1, some ⟨some '(', offset + 2, t⟩⟩], none⟩ (some '(') (offset + 2) t := by
  have hspace : ∀ o next, s.readChar o ' ' next ⟨[⟨table, 0, none⟩], none⟩ = (⟨[⟨table, 0, none⟩], none⟩, []) := by
    intro o next
    simp [Source.readChar, isQuote]
  have hopen : ∀ o next, s.readChar o '(' next ⟨[⟨table, 0, none⟩], none⟩ =
      (⟨[⟨table, 1, some next⟩], none⟩, []) := by
    intro o next
    simp [Source.readChar, isQuote]
  have hnone : Headerless t before offset [' ', '('] :=
    ⟨TableHeader.at?_eq_none_of_not_holds rfl _ _ _, TableHeader.at?_eq_none_of_not_holds rfl _ _ _, trivial⟩
  exact eventsFrom_of_reads hresume hnone (.quiet (hspace _ _) (.single (hopen _ _)))

/-- The parenthesis behind the only item gives it out and closes the scope. -/
theorem eventsFrom_bodyEnd (hresume : resume ≤ offset) (start : Option Cursor) :
    s.eventsFrom .replace resume ⟨[⟨table, 1, start⟩], none⟩ before offset [')'] =
      s.itemEvents ⟨table, 1, start⟩ offset ++ [.exit table (s.lineOf offset)] := by
  have hnone : Headerless [] before offset [')'] := ⟨TableHeader.at?_eq_none_of_not_holds rfl _ _ _, trivial⟩
  have hread : Reads s [] offset ⟨[⟨table, 1, start⟩], none⟩ [')'] ⟨[], none⟩
      (s.itemEvents ⟨table, 1, start⟩ offset ++ [.exit table (s.lineOf offset)]) := .single (readChar_close start _ _)
  refine (eventsFrom_of_reads hresume hnone hread).trans ?_
  exact List.append_nil _

/-- A text that ends with a literal is passed without an event. -/
theorem eventsFrom_literalItem {scope : OpenScope} {w : Text} (hresume : resume ≤ offset) (hdepth : 0 < scope.depth)
    (hbalanced : Balanced false w) (hback : '\x60' ∉ w)
    (hheader : ∀ after before offset, Headerless after before offset w) (v t : Text) :
    s.eventsFrom .replace resume ⟨[scope], none⟩ before offset (w ++ quotedLiteral v ++ t) =
      s.eventsFrom .replace resume ⟨[scope], none⟩ (some '\x27') (offset + byteSize (w ++ quotedLiteral v)) t := by
  have hreads : Reads s (quotedLiteral v ++ t) offset ⟨[scope], none⟩ w ⟨[scope], none⟩ [] :=
    hbalanced.reads hback hdepth (by simp) _ _
  rw [List.append_assoc, eventsFrom_of_reads hresume (hheader _ _ _) hreads, List.nil_append,
    eventsFrom_quotedLiteral (by omega) hdepth, byteSize_append, Nat.add_assoc]

/-- An item without blanks around it is given out as it stands. -/
theorem itemEvents_text {text : Text} (hne : text ≠ []) (htrimmed : Trimmed text) (depth : Nat) (after : Text) :
    s.itemEvents ⟨table, depth, some ⟨before, offset, text ++ after⟩⟩ (offset + byteSize text) =
      [s.itemEvent table (text, offset)] :=
  itemEvents_lead hne htrimmed (List.forall_mem_nil _) depth offset after

/-- The only item of a table whose body is a text without headers that ends with a literal. -/
theorem items_tableScript {name w v : Text} (hne : name ≠ []) (hword : ∀ c ∈ name, isWord c = true)
    (hbalanced : Balanced false w) (hback : '\x60' ∉ w)
    (hheader : ∀ after before offset, Headerless after before offset w)
    (htrimmed : Trimmed (w ++ quotedLiteral v)) (htext : s.text = tableScript name (w ++ quotedLiteral v)) :
    s.items = [⟨⟨String.ofList name, s.lineOf 0, 0⟩,
      ⟨s.lineOf (15 + byteSize name), 15 + byteSize name, w ++ quotedLiteral v⟩⟩] := by
  have hitem : w ++ quotedLiteral v ≠ [] := List.append_ne_nil_of_right_ne_nil _ (List.cons_ne_nil _ _)
  have hoffset : 0 + 13 + byteSize name + 2 = 15 + byteSize name := by omega
  have hscan : s.scopeEvents .replace = .enter ⟨String.ofList name, s.lineOf 0, 0⟩ ::
      s.eventsFrom .replace (0 + 13 + byteSize name) ⟨[⟨⟨String.ofList name, s.lineOf 0, 0⟩, 0, none⟩], none⟩
        (name.getLast?.or (some ' ')) (0 + 13 + byteSize name) (' ' :: '(' :: (w ++ quotedLiteral v ++ [')'])) := by
    rw [Source.scopeEvents, htext]
    exact eventsFrom_header s hne hword (le_refl 0) rfl _
  rw [Source.items, Source.itemsIn, hscan, eventsFrom_bodyStart le_rfl, hoffset,
    eventsFrom_literalItem (by omega) Nat.one_pos hbalanced hback hheader, eventsFrom_bodyEnd (by omega),
    itemEvents_text hitem htrimmed]
  rfl

end Table

end SchemaReview
