import SchemaReview.Ddl.Column
import SchemaReview.Ddl.DefaultValue
import SchemaReview.Proofs.Pattern.Match

/-!
# Proofs.Ddl.Literal — text literals

A text is written as a literal with every single quote doubled and a quote at each end (`quotedLiteral`).

* `unquote_quotedLiteral`: the text is read back, and the literal is classified as that text
  (`defaultValue_quotedLiteral`).
* `Pattern.run_quotedText`: the pattern takes the literal whole when no quote stands behind it.  By induction
  on the text: a character of it is one repetition, and so are the two quotes of a doubled one.
* `Pattern.search_defaultValue`: so `DEFAULT` and a literal give the literal as the default value.
-/

namespace SchemaReview

open Text

/-! ## Writing and reading literals -/

/-- A character as it stands in a literal. -/
def doubled (c : Char) : Text := if c = '\x27' then ['\x27', '\x27'] else [c]

/-- Every single quote written twice. -/
def doubleQuotes (v : Text) : Text := v.flatMap doubled

/-- The literal for a text. -/
def quotedLiteral (v : Text) : Text := '\x27' :: (doubleQuotes v ++ ['\x27'])

theorem doubled_of_ne {c : Char} (hc : c ≠ '\x27') : doubled c = [c] := if_neg hc

theorem doubleQuotes_cons (c : Char) (cs : Text) : doubleQuotes (c :: cs) = doubled c ++ doubleQuotes cs := rfl

theorem quotedLiteral_append (v t : Text) : quotedLiteral v ++ t = '\x27' :: (doubleQuotes v ++ '\x27' :: t) := by
  simp [quotedLiteral]

theorem undoubleQuotes_doubleQuotes (v : Text) : undoubleQuotes (doubleQuotes v) = v := by
  induction v with
  | nil => rfl
  | cons c cs ih =>
    rw [doubleQuotes_cons]
    by_cases hc : c = '\x27'
    · subst hc
      show undoubleQuotes ('\x27' :: '\x27' :: doubleQuotes cs) = _
      rw [undoubleQuotes, ih]
    · rw [doubled_of_ne hc, List.singleton_append, undoubleQuotes, ih]
      rintro ds rfl
      exact absurd rfl hc

/-- A literal is read back as the text it was written for. -/
theorem unquote_quotedLiteral (v : Text) : unquote (quotedLiteral v) = v := by
  rw [unquote, quotedLiteral, List.drop_one, List.tail_cons, List.dropLast_concat, undoubleQuotes_doubleQuotes]

theorem isQuotedLiteral_quotedLiteral (v : Text) : isQuotedLiteral (quotedLiteral v) = true := by
  have hlast : (quotedLiteral v).getLast? = some '\x27' := by
    rw [quotedLiteral, ← List.cons_append, List.getLast?_concat]
  have hlength : 2 ≤ (quotedLiteral v).length := by
    rw [quotedLiteral, List.length_cons, List.length_append, List.length_singleton]
    omega
  rw [isQuotedLiteral, hlast, decide_eq_true hlength]
  rfl

/-- A literal is no null value, whatever it says. -/
theorem isNullWord_quotedLiteral (v : Text) : isNullWord (quotedLiteral v) = false := rfl

theorem defaultValue_quotedLiteral (v : Text) : DefaultValue.ofText (quotedLiteral v) = .literal (String.ofList v) := by
  rw [DefaultValue.ofText, if_pos (isQuotedLiteral_quotedLiteral v), unquote_quotedLiteral]

/-! ## The pattern on a literal -/

namespace Pattern

variable {α : Type} {k : Continue α} {g : Captures} {a : α}

/-- What is repeated between the quotes of a literal. -/
def quotedPart : Pattern := one (.except '\x27') <|> char '\x27' ++ char '\x27'

theorem run_quotedPart_quote (before : Option Char) (offset : Nat) (t : Text) :
    quotedPart.run ⟨before, offset, '\x27' :: t⟩ g k = (char '\x27').run ⟨some '\x27', offset + 1, t⟩ g k := rfl

/-- A character of the text is one repetition. -/
theorem run_quotedPart {c : Char} {before : Option Char} {offset : Nat} {t : Text}
    (h : k ⟨(doubled c).getLast?.or before, offset + byteSize (doubled c), t⟩ g = some a) :
    quotedPart.run ⟨before, offset, doubled c ++ t⟩ g k = some a := by
  by_cases hc : c = '\x27'
  · subst hc
    exact h
  · have hholds : (CharClass.except '\x27').holds c = true := by simpa [CharClass.holds] using hc
    rw [doubled_of_ne hc] at h ⊢
    show ((one (.except '\x27')).run ⟨before, offset, c :: t⟩ g k).orElse _ = some a
    rw [run_one_of_holds hholds]
    exact congrArg (Option.orElse · _) h

/-- The closing quote is none, when it is not doubled. -/
theorem run_quotedPart_closing {t : Text} (ht : ∀ x ∈ t.head?, x ≠ '\x27') (before : Option Char) (offset : Nat) :
    quotedPart.run ⟨before, offset, '\x27' :: t⟩ g k = none := by
  rw [run_quotedPart_quote]
  cases t with
  | nil => rfl
  | cons x xs => exact run_one_of_not_holds (by simpa [CharClass.holds] using ht x rfl) _ _ _ _ _

theorem byteSize_doubled_pos (c : Char) : 0 < byteSize (doubled c) := by
  have hpos := c.utf8Size_pos
  unfold doubled
  split
  · decide
  · rw [byteSize_cons]
    omega

theorem length_doubled_pos (c : Char) : 0 < (doubled c).length := by
  unfold doubled
  split <;> exact Nat.succ_pos _

/-- Everything up to the closing quote is repeated. -/
theorem runStar_quotedPart {v bound t : Text} (hbound : (doubleQuotes v).length ≤ bound.length)
    (ht : ∀ x ∈ t.head?, x ≠ '\x27') (before : Option Char) (offset : Nat)
    (h : k ⟨(doubleQuotes v).getLast?.or before, offset + byteSize (doubleQuotes v), '\x27' :: t⟩ g = some a) :
    runStar (fun c g k => quotedPart.run c g k) bound ⟨before, offset, doubleQuotes v ++ '\x27' :: t⟩ g k = some a := by
  induction v generalizing bound before offset with
  | nil =>
    cases bound with
    | nil => exact h
    | cons b bound =>
      show Option.orElse (quotedPart.run ⟨before, offset, '\x27' :: t⟩ g _) _ = some a
      rw [run_quotedPart_closing ht]
      exact h
  | cons c cs ih =>
    have hsize := byteSize_doubled_pos c
    have hlength := length_doubled_pos c
    rw [doubleQuotes_cons] at hbound h ⊢
    rw [List.length_append] at hbound
    rw [List.getLast?_append, Option.or_assoc, byteSize_append, ← Nat.add_assoc] at h
    cases bound with
    | nil =>
      rw [List.length_nil] at hbound
      omega
    | cons b bound =>
      rw [List.length_cons] at hbound
      have hstep : quotedPart.run ⟨before, offset, doubled c ++ (doubleQuotes cs ++ '\x27' :: t)⟩ g
          (fun d g' => if offset < d.offset then
            runStar (fun c g k => quotedPart.run c g k) bound d g' k else none) = some a := by
        refine run_quotedPart ?_
        dsimp only
        rw [if_pos (by omega)]
        refine ih ?_ _ _ h
        omega
      rw [List.append_assoc, runStar]
      exact congrArg (Option.orElse · _) hstep

/-- A literal is taken whole when no quote stands behind it. -/
theorem run_quotedText {v t : Text} (ht : ∀ x ∈ t.head?, x ≠ '\x27') {before : Option Char} {offset : Nat}
    (h : k ⟨some '\x27', offset + byteSize (quotedLiteral v), t⟩ g = some a) :
    quotedText.run ⟨before, offset, quotedLiteral v ++ t⟩ g k = some a := by
  have hsize : offset + byteSize (quotedLiteral v) = offset + 1 + byteSize (doubleQuotes v) + 1 := by
    have hquote : '\x27'.utf8Size = 1 ∧ byteSize ['\x27'] = 1 := by decide
    rw [quotedLiteral, byteSize_cons, byteSize_append]
    omega
  rw [hsize] at h
  rw [quotedLiteral_append]
  refine runStar_quotedPart (v := v) ?_ ht _ _ h
  show (doubleQuotes v).length ≤ (doubleQuotes v ++ '\x27' :: t).length
  rw [List.length_append]
  omega

/-- What is found behind a blank when `DEFAULT` and a literal stand there. -/
def defaultMatch (v : Text) : Match :=
  ⟨⟨some ' ', 1, "DEFAULT".toList ++ ' ' :: quotedLiteral v⟩, ⟨some '\x27', 9 + byteSize (quotedLiteral v), []⟩,
    [(1, ⟨9, 9 + byteSize (quotedLiteral v), quotedLiteral v⟩)]⟩

theorem groupText_defaultMatch (v : Text) : (defaultMatch v).groupText 1 = quotedLiteral v := by
  have hgroup : (defaultMatch v).group? 1 = some ⟨9, 9 + byteSize (quotedLiteral v), quotedLiteral v ++ []⟩ := by
    rw [List.append_nil]
    rfl
  exact Match.groupText_of_append hgroup

theorem matchAt_defaultValue (v : Text) :
    defaultValue.matchAt ⟨some ' ', 1, "DEFAULT".toList ++ ' ' :: quotedLiteral v⟩ = some (defaultMatch v) := by
  have hedge : ∀ k : Continue Match,
      wordEdge.run ⟨some ' ', 1, "DEFAULT".toList ++ ' ' :: quotedLiteral v⟩ [] k =
        k ⟨some ' ', 1, "DEFAULT".toList ++ ' ' :: quotedLiteral v⟩ [] := fun _ => rfl
  have hlead : ∀ x ∈ (quotedLiteral v).head?, isBlank x = false := forall_mem_head?_cons (by rfl) _
  have hvalue : ∀ k : Continue Match, ∀ m, k ⟨some '\x27', 9 + byteSize (quotedLiteral v), []⟩ [] = some m →
      (anyOf [quotedText, signedNumber, wordRun]).run ⟨some ' ', 9, quotedLiteral v⟩ [] k = some m := by
    intro k m h
    have hquoted : quotedText.run ⟨some ' ', 9, quotedLiteral v ++ []⟩ [] k = some m := run_quotedText (by simp) h
    rw [List.append_nil] at hquoted
    show Option.orElse (quotedText.run ⟨some ' ', 9, quotedLiteral v⟩ [] k) _ = some m
    rw [hquoted]
    rfl
  rw [matchAt, defaultValue, run_append, run_append, run_append, hedge, keyword, run_letters_append,
    run_gap_of_head rfl hlead]
  exact hvalue _ _ rfl

/-- `DEFAULT` and a literal give the literal as the default value. -/
theorem search_defaultValue (v : Text) :
    defaultValue.search (" DEFAULT ".toList ++ quotedLiteral v) = some (defaultMatch v) := by
  have hword : "DEFAULT".toList ++ ' ' :: quotedLiteral v = 'D' :: ("EFAULT".toList ++ ' ' :: quotedLiteral v) := rfl
  have htext : " DEFAULT ".toList ++ quotedLiteral v = ' ' :: 'D' :: ("EFAULT".toList ++ ' ' :: quotedLiteral v) := rfl
  -- no word begins in front of the blank
  have hblank : defaultValue.matchAt ⟨none, 0, ' ' :: 'D' :: ("EFAULT".toList ++ ' ' :: quotedLiteral v)⟩ = none := rfl
  have hmatch := matchAt_defaultValue v
  have hone : 0 + ' '.utf8Size = 1 := rfl
  rw [hword] at hmatch
  rw [htext, search, searchFrom, hblank, hone, searchFrom, hmatch]
  rfl

end Pattern

end SchemaReview
