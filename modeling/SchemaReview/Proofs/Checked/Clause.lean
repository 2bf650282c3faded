import SchemaReview.Detector.DefaultConflict
import SchemaReview.Proofs.Detector.Positions

/-!
# Proofs.Checked.Clause — reading clauses with checked slices

The readers of clauses cut texts at offsets that they got from matches, and look captured pieces up by
number.  Here they do so with slices and look-ups that may be refused: `Checked.f x` is `none` as soon as one
of them is.  Each reader is followed by the theorem that this does not happen and that the result is that of
the reader without checks.
-/

namespace SchemaReview

open Text

/-! ## Lists of readings that all succeed -/

section

variable {α β : Type} {xs : List α}

theorem mapM_eq_some {f : α → Option β} {g : α → β} (h : ∀ x ∈ xs, f x = some (g x)) :
    xs.mapM f = some (xs.map g) := by
  induction xs with
  | nil => rfl
  | cons x xs ih =>
    rw [List.forall_mem_cons] at h
    rw [List.mapM_cons, h.1, ih h.2]
    rfl

theorem flatMapM_eq_some {f : α → Option (List β)} {g : α → List β}
    (h : ∀ x ∈ xs, f x = some (g x)) : xs.flatMapM f = some (xs.flatMap g) := by
  induction xs with
  | nil => rfl
  | cons x xs ih =>
    rw [List.forall_mem_cons] at h
    rw [List.flatMapM_cons, h.1, ih h.2]
    rfl

theorem filterMapM_eq_some {f : α → Option (Option β)} {g : α → Option β}
    (h : ∀ x ∈ xs, f x = some (g x)) : xs.filterMapM f = some (xs.filterMap g) := by
  induction xs with
  | nil => rfl
  | cons x xs ih =>
    rw [List.forall_mem_cons] at h
    rw [List.filterMapM_cons, h.1, ih h.2, List.filterMap_cons]
    cases g x with
    | none => rfl
    | some y => rfl

theorem findSomeM?_eq_some {f : α → Option (Option β)} {g : α → Option β}
    (h : ∀ x ∈ xs, f x = some (g x)) : xs.findSomeM? f = some (xs.findSome? g) := by
  induction xs with
  | nil => rfl
  | cons x xs ih =>
    rw [List.forall_mem_cons] at h
    rw [List.findSomeM?, h.1, List.findSome?_cons]
    cases g x with
    | none => exact ih h.2
    | some y => rfl

end

/-! ## Texts behind a position -/

/-- What follows a position of a text can be cut off. -/
theorem Cursor.In.tail? {t : Text} {c : Cursor} (h : Cursor.In t c) :
    Text.tail? t c.offset = some c.rest := by
  obtain ⟨w, hw⟩ := h
  have ht : t = w ++ c.rest := hw.rest
  have hoffset : c.offset = 0 + byteSize w := hw.offset
  rw [hoffset, Nat.zero_add, ht, tail?_append]

/-- What follows a match can be cut off. -/
theorem Pattern.tail?_stop {p : Pattern} {t : Text} {m : Match} (hin : Cursor.In t m.start)
    (hm : p.matchAt m.start = some m) : Text.tail? t m.stop.offset = some m.stop.rest := by
  obtain ⟨-, w, hw, -⟩ := matchAt_eq_some hm
  exact (hin.passes hw).tail?

theorem Match.groupText_eq {m : Match} {n : Nat} {c : Capture} (h : m.group? n = some c) :
    m.groupText n = c.text := by
  rw [groupText, h]
  rfl

namespace Checked

/-! ## References -/

/-- Reads a match of the foreign key pattern in `t`. -/
def foreignKey (t : Text) (m : Match) : Option ForeignKey := do
  let behind ← t.tail? m.stop.offset
  return { ForeignKey.ofMatch m with cascades := beginsWithCascade behind }

/-- The table-level foreign keys of a text. -/
def foreignKeys (t : Text) : Option (List ForeignKey) :=
  (Pattern.foreignKey.findAll t).mapM (foreignKey t)

@[simp] theorem foreignKeys_eq (t : Text) : foreignKeys t = some (SchemaReview.foreignKeys t) := by
  refine mapM_eq_some fun m hm => ?_
  obtain ⟨hin, hmatch⟩ := Pattern.matchAt_of_mem_findAll hm
  rw [foreignKey, Pattern.tail?_stop hin hmatch]
  rfl

/-- Reads a match of the reference pattern in `t`. -/
def reference (t : Text) (m : Match) : Option Reference := do
  let behind ← t.tail? m.stop.offset
  return { Reference.ofMatch m with cascades := beginsWithCascade behind }

theorem reference_eq {t : Text} {m : Match} (hin : Cursor.In t m.start)
    (hm : Pattern.reference.matchAt m.start = some m) : reference t m = some (Reference.ofMatch m) := by
  rw [reference, Pattern.tail?_stop hin hm]
  rfl

/-- Every `REFERENCES` clause of a text. -/
def references (t : Text) : Option (List Reference) := (Pattern.reference.findAll t).mapM (reference t)

@[simp] theorem references_eq (t : Text) : references t = some (SchemaReview.references t) := by
  refine mapM_eq_some fun m hm => ?_
  obtain ⟨hin, hmatch⟩ := Pattern.matchAt_of_mem_findAll hm
  exact reference_eq hin hmatch

/-- The first `REFERENCES` clause of a text. -/
def firstReference (t : Text) : Option (Option Reference) :=
  (Pattern.reference.search t).mapM (reference t)

@[simp] theorem firstReference_eq (t : Text) : firstReference t = some (firstReference? t) := by
  unfold firstReference firstReference?
  cases hm : Pattern.reference.search t with
  | none => rfl
  | some m =>
    obtain ⟨hin, hmatch⟩ := Pattern.matchAt_of_search hm
    rw [Option.mapM_some, reference_eq hin hmatch]
    rfl

/-! ## Columns -/

/-- The column that a text defines, with what stands behind its type cut out of the text. -/
def column (t : Text) : Option (Option Column) :=
  (Column.ofText? t).mapM fun c => do
    let rest ← t.tail? c.restOffset
    return { c with rest }

@[simp] theorem column_eq (t : Text) : column t = some (Column.ofText? t) := by
  unfold column
  cases hc : Column.ofText? t with
  | none => rfl
  | some c =>
    obtain ⟨before, ht, hbefore⟩ := Column.exists_rest hc
    have htail : t.tail? c.restOffset = some c.rest := by
      rw [← hbefore, ht, tail?_append]
    rw [Option.mapM_some, htail]
    rfl

/-- The inline foreign key of a column. -/
def inlineReference (c : Column) : Option (Option ForeignKey) := do
  let found ← firstReference c.rest
  return found.map fun r => ⟨[c.key], r.table, r.columns, r.cascades, c.restOffset + r.offset⟩

@[simp] theorem inlineReference_eq (c : Column) : inlineReference c = some c.reference? := by
  rw [inlineReference, firstReference_eq]
  rfl

/-- The text between the outer quotes, with doubled quotes written once. -/
def unquote (t : Text) : Option Text := (t.slice? 1 (byteSize t - 1)).map undoubleQuotes

theorem unquote_eq {t : Text} (h : isQuotedLiteral t = true) :
    unquote t = some (SchemaReview.unquote t) := by
  unfold isQuotedLiteral at h
  simp only [Bool.and_eq_true, decide_eq_true_eq, beq_iff_eq] at h
  obtain ⟨⟨hlength, hhead⟩, hlast⟩ := h
  obtain ⟨cs, rfl⟩ : ∃ cs, t = '\x27' :: cs := List.head?_eq_some_iff.mp hhead
  have hne : cs ≠ [] := by
    rintro rfl
    exact absurd hlength (by decide)
  rw [List.getLast?_cons_of_ne_nil hne] at hlast
  obtain ⟨mid, rfl⟩ := List.getLast?_eq_some_iff.mp hlast
  have hslice : slice? ('\x27' :: (mid ++ ['\x27'])) 1 (byteSize ('\x27' :: (mid ++ ['\x27'])) - 1) =
      some mid := by
    have hone : ('\x27' : Char).utf8Size = 1 := rfl
    refine slice?_eq_some_iff.mpr ⟨['\x27'], ['\x27'], by simp, rfl, ?_⟩
    simp only [byteSize_cons, byteSize_append, byteSize_nil, hone]
    omega
  rw [unquote, hslice, SchemaReview.unquote]
  simp

/-- What is wrong with the default value `raw` of a column.  A literal is judged without its quotes. -/
def defaultMisfit (type : DeclaredType) (raw : Text) : Option (Option (FindingKind × String)) := do
  if isQuotedLiteral raw then
    let _ ← unquote raw
  return defaultMisfit? type raw

@[simp] theorem defaultMisfit_eq (type : DeclaredType) (raw : Text) :
    defaultMisfit type raw = some (defaultMisfit? type raw) := by
  unfold defaultMisfit
  by_cases hquoted : isQuotedLiteral raw = true
  · rw [if_pos hquoted, unquote_eq hquoted]
    rfl
  · rw [if_neg hquoted]
    rfl

end Checked

/-! ## Checks -/

/-- The parenthesis that closes a group stands in the text that was searched. -/
theorem exists_append_of_closingParen? {depth : Nat} {quote : Option Char} {offset : Nat} {t : Text}
    {close : Nat} (h : closingParen? depth quote offset t = some close) :
    ∃ mid after, t = mid ++ ')' :: after ∧ offset + byteSize mid = close := by
  induction t generalizing depth quote offset with
  | nil => cases h
  | cons c cs ih =>
    have hlater : ∀ {depth : Nat} {quote : Option Char},
        closingParen? depth quote (offset + c.utf8Size) cs = some close →
        ∃ mid after, c :: cs = mid ++ ')' :: after ∧ offset + byteSize mid = close := by
      intro depth quote h
      obtain ⟨mid, after, rfl, hclose⟩ := ih h
      refine ⟨c :: mid, after, rfl, ?_⟩
      rw [byteSize_cons]
      omega
    unfold closingParen? at h
    dsimp only at h
    split at h
    · exact hlater h
    · split at h
      · exact hlater h
      · split at h
        · exact hlater h
        · split at h
          · rename_i hparen
            subst hparen
            split at h
            · cases h
            · exact ⟨[], cs, rfl, Option.some.inj h⟩
            · exact hlater h
          · exact hlater h

namespace Checked

/-- The checks of `t` that begin at byte `resume` or later, where the scan has come to byte `offset`. -/
def checksFrom (t : Text) (resume : Nat) (before : Option Char) (offset : Nat) :
    Text → Option (List Check)
  | [] => some []
  | x :: xs =>
    let next := offset + x.utf8Size
    if offset < resume then checksFrom t resume (some x) next xs
    else match Pattern.checkOpening.matchAt ⟨before, offset, x :: xs⟩ with
      | none => checksFrom t resume (some x) next xs
      | some m =>
        match closingParen? 1 none m.stop.offset m.stop.rest with
        | none => some []
        | some close => do
          let expression ← t.slice? m.stop.offset close
          -- the search goes on behind the parenthesis
          let _ ← t.tail? (close + 1)
          let later ← checksFrom t (close + 1) (some x) next xs
          return ⟨expression.trim, offset⟩ :: later

/-- The `CHECK` constraints of a text. -/
def checks (t : Text) : Option (List Check) := checksFrom t 0 none 0 t

theorem checksFrom_eq {t : Text} (resume : Nat) {before : Option Char} {offset : Nat} {u : Text}
    (hin : Cursor.In t ⟨before, offset, u⟩) :
    checksFrom t resume before offset u = some (SchemaReview.checksFrom resume before offset u) := by
  induction u generalizing resume before offset with
  | nil => rfl
  | cons x xs ih =>
    have hnext : Cursor.In t ⟨some x, offset + x.utf8Size, xs⟩ := hin.passes (.past rfl)
    rw [checksFrom, SchemaReview.checksFrom]
    split
    · exact ih resume hnext
    · cases hm : Pattern.checkOpening.matchAt ⟨before, offset, x :: xs⟩ with
      | none => exact ih resume hnext
      | some m =>
        dsimp only
        cases hclose : closingParen? 1 none m.stop.offset m.stop.rest with
        | none => rfl
        | some close =>
          obtain ⟨-, w, hw, -⟩ := Pattern.matchAt_eq_some hm
          obtain ⟨v, hv⟩ := hin.passes hw
          obtain ⟨mid, after, hrest, hsize⟩ := exists_append_of_closingParen? hclose
          have ht : t = v ++ m.stop.rest := hv.rest
          have hstop : m.stop.offset = 0 + byteSize v := hv.offset
          have hslice : t.slice? m.stop.offset close = some mid :=
            slice?_eq_some_iff.mpr ⟨v, ')' :: after, by simp [ht, hrest], by omega, by omega⟩
          have htail : t.tail? (close + 1) = some after := by
            have hparen : byteSize (v ++ mid ++ [')']) = close + 1 := by
              have hone : (')' : Char).utf8Size = 1 := rfl
              simp only [byteSize_append, byteSize_cons, byteSize_nil, hone]
              omega
            rw [← hparen, ht, hrest, show v ++ (mid ++ ')' :: after) = v ++ mid ++ [')'] ++ after by simp,
              tail?_append]
          have hmid : takeBytes (close - m.stop.offset) m.stop.rest = mid := by
            rw [hrest, ← hsize, Nat.add_sub_cancel_left, takeBytes_append]
          simp only [hslice, htail, ih (close + 1) hnext, hmid]
          rfl

@[simp] theorem checks_eq (t : Text) : checks t = some (SchemaReview.checks t) :=
  checksFrom_eq 0 ⟨[], .refl _⟩

/-- The first of the ranges whose two columns agree. -/
def agreeing : List Match → Option (Option Match)
  | [] => some none
  | m :: ms => do
    let first ← m.group? 1
    let second ← m.group? 3
    if equalsIgnoringCase first.text second.text then return some m else agreeing ms

/-- Classifies an expression. -/
def classify (expression : Text) : Option (Option CheckClass) :=
  let start := Cursor.atStart expression
  if (Pattern.singleValueIn.matchAt start).isSome then some (some .singleValueIn)
  else if (Pattern.nonNegative.matchAt start).isSome then some (some .nonRestrictive)
  else if (Pattern.tautology.matchAt start).isSome then some (some .tautology)
  else do
    let some m ← agreeing (Pattern.boundedRange.findRuns .word expression) | return none
    let column ← m.group? 1
    let above ← m.group? 2
    let below ← m.group? 4
    return do
      let upper ← natBelow? (Nat.pow 2 128) above.text
      let lower ← natBelow? (Nat.pow 2 128) below.text
      if upper < lower then some (.contradiction column.string upper lower) else none

theorem agreeing_eq {ms : List Match} (h : ∀ m ∈ ms, ∀ n ∈ [1, 3], (m.group? n).isSome = true) :
    agreeing ms = some (ms.find? fun m => equalsIgnoringCase (m.groupText 1) (m.groupText 3)) := by
  induction ms with
  | nil => rfl
  | cons m ms ih =>
    rw [List.forall_mem_cons] at h
    obtain ⟨first, hfirst⟩ := Option.isSome_iff_exists.mp (h.1 1 (by decide))
    obtain ⟨second, hsecond⟩ := Option.isSome_iff_exists.mp (h.1 3 (by decide))
    rw [agreeing, List.find?_cons, hfirst, hsecond, Match.groupText_eq hfirst, Match.groupText_eq hsecond]
    simp only [Option.bind_eq_bind, Option.bind_some]
    split
    · rename_i hagree
      rw [hagree]
      rfl
    · rename_i hdiffer
      rw [Bool.not_eq_true] at hdiffer
      rw [hdiffer]
      exact ih h.2

@[simp] theorem classify_eq (expression : Text) : classify expression = some (classifyCheck expression) := by
  -- a range has two columns and two bounds
  have hgroups : ∀ m ∈ Pattern.boundedRange.findRuns .word expression, ∀ n ∈ [1, 2, 3, 4],
      (m.group? n).isSome = true := by
    intro m hm n hn
    rw [Pattern.findRuns_eq_findAll Pattern.beginsWithRun_boundedRange] at hm
    have hkeeps : ∀ n ∈ [1, 2, 3, 4], Pattern.boundedRange.keeps n = true := by decide
    exact Pattern.isSome_group? (Pattern.matchAt_of_mem_findAll hm).2 (hkeeps n hn)
  have hcolumns : ∀ m ∈ Pattern.boundedRange.findRuns .word expression, ∀ n ∈ [1, 3],
      (m.group? n).isSome = true := by
    have hsub : ∀ n ∈ [1, 3], n ∈ [1, 2, 3, 4] := by decide
    exact fun m hm n hn => hgroups m hm n (hsub n hn)
  have hagreeing := agreeing_eq hcolumns
  unfold classify classifyCheck
  dsimp only
  split
  · rfl
  · split
    · rfl
    · split
      · rfl
      · rw [hagreeing]
        cases hfind : (Pattern.boundedRange.findRuns .word expression).find? fun m =>
            equalsIgnoringCase (m.groupText 1) (m.groupText 3) with
        | none => rfl
        | some m =>
          have hmem := List.mem_of_find?_eq_some hfind
          obtain ⟨column, hcolumn⟩ := Option.isSome_iff_exists.mp (hgroups m hmem 1 (by decide))
          obtain ⟨above, habove⟩ := Option.isSome_iff_exists.mp (hgroups m hmem 2 (by decide))
          obtain ⟨below, hbelow⟩ := Option.isSome_iff_exists.mp (hgroups m hmem 4 (by decide))
          simp only [Option.bind_eq_bind, Option.bind_some, hcolumn, habove, hbelow,
            Match.groupText_eq habove, Match.groupText_eq hbelow, Match.groupString,
            Match.groupText_eq hcolumn]
          rfl

end Checked

end SchemaReview
