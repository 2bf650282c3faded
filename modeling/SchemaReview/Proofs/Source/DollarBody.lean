import SchemaReview.Proofs.Source.Append
import SchemaReview.Proofs.Source.Separator

/-!
# Proofs.Source.DollarBody — when a dollar-quoted body is opaque

The splitting knows dollar tags and the masking does not: quotes and comment marks in a body count there.  So a
body is opaque to all that may follow it exactly when its quotes and comments end in it
(`dollarBody_opaque_iff`).

* `exists_segments_dollar`: a body without the tag, with its tags, is one region, or one region and a dollar
  sign behind it.
* `statements_doBlock`: the splitting alone takes the block as one statement, whatever follows.
* `maskComments_doBlock_append`: what masking makes of the block and of what follows.
-/

namespace SchemaReview

open Text

/-- The dollar tag without a word. -/
def dollars : Text := ['$', '$']

/-- A block with a dollar-quoted body. -/
def doText (body : Text) : Text := ['D', 'O', ' '] ++ (dollars ++ (body ++ dollars))

/-- The block with the semicolon that ends it. -/
def doBlock (body : Text) : Text := doText body ++ [';']

/-- The statement in a script that stands behind `n` other bytes. -/
def Statement.shift (n : Nat) (st : Statement) : Statement := ⟨n + st.offset, st.text⟩

/-- The block is one statement, without its semicolon, and the script behind it has its own statements. -/
def OpaqueBody (body script : Text) : Prop :=
  ∃ first : Statement, first.offset = 0 ∧ byteSize first.text + 1 = byteSize (doBlock body) ∧
    (Source.ofText (doBlock body ++ script)).statements =
      first :: (Source.ofText script).statements.map (Statement.shift (byteSize (doBlock body)))

/-! ## Splitting -/

theorem isDollarTag_dollars : IsDollarTag dollars := ⟨[], by simp, rfl⟩

theorem Segments.do_append {t : Text} {ls : List Segment} (h : Segments t ls) :
    Segments (['D', 'O', ' '] ++ t) ([.bare 'D', .bare 'O', .bare ' '] ++ ls) :=
  .bare (not_opensRegion rfl (by decide) _) (.bare (not_opensRegion rfl (by decide) _)
    (.bare (not_opensRegion rfl (by decide) _) h))

/-- A body without the tag between its tags.  When the body ends with a dollar sign, the region ends one
character earlier. -/
theorem exists_segments_dollar {body : Text} (h : ¬ dollars <:+: body) :
    ∃ ls, Segment.separator ∉ ls ∧ Segments (dollars ++ (body ++ dollars) ++ [';']) (ls ++ [Segment.separator]) := by
  have hsemicolon : Segments [';'] [Segment.separator] := .bare (not_opensRegion rfl (by decide) []) .nil
  by_cases hclosed : dollars <:+: body ++ ['$']
  · obtain ⟨front, rfl⟩ : ∃ front, body = front ++ ['$'] := by
      rcases List.infix_concat_iff.mp hclosed with ⟨front, hfront⟩ | hinside
      · rw [dollars, List.append_cons, List.append_left_inj] at hfront
        exact ⟨front, hfront.symm⟩
      · exact absurd hinside h
    have hbare : ¬ OpensRegion ['$', ';'] := by
      rintro (⟨q, hq, hquote⟩ | ⟨tag, ⟨w, hw, rfl⟩, hpre⟩)
      · obtain rfl : '$' = q := Option.some.inj hq
        exact absurd hquote (by decide)
      · have hrest := (List.cons_prefix_cons.mp hpre).2.subset (List.mem_append_right w List.mem_cons_self)
        exact absurd hrest (by decide)
    refine ⟨[.region (dollars ++ (front ++ dollars)), .bare '$'], by simp [Segment.separator], ?_⟩
    have hregion : Segments (dollars ++ (front ++ (dollars ++ ['$', ';']))) _ :=
      .dollar isDollarTag_dollars h (.bare hbare hsemicolon)
    simpa [dollars] using hregion
  · refine ⟨[.region (dollars ++ (body ++ dollars))], by simp [Segment.separator], ?_⟩
    have hregion : Segments (dollars ++ (body ++ (dollars ++ [';']))) _ :=
      .dollar isDollarTag_dollars hclosed hsemicolon
    simpa using hregion

/-- The splitting takes the block as one statement, whatever follows. -/
theorem statements_doBlock {body : Text} (h : ¬ dollars <:+: body) (rest : Text) :
    Text.statements (doBlock body ++ rest) =
      ⟨0, doText body⟩ :: (Text.statements rest).map (Statement.shift (byteSize (doBlock body))) := by
  obtain ⟨ls, hmem, hls⟩ := exists_segments_dollar h
  obtain ⟨ls', hls'⟩ := exists_segments rest
  have hblock : Segments (doBlock body) ([.bare 'D', .bare 'O', .bare ' '] ++ ls ++ [Segment.separator]) := by
    have hdo := hls.do_append
    simpa [doBlock, doText] using hdo
  have hfront : Segment.separator ∉ [.bare 'D', .bare 'O', .bare ' '] ++ ls := by
    rw [List.mem_append, not_or]
    exact ⟨by decide, hmem⟩
  have htext : segmentText ([.bare 'D', .bare 'O', .bare ' '] ++ ls) = doText body := by
    have hall := hblock.segmentText_eq
    rw [segmentText_append, doBlock] at hall
    exact List.append_cancel_right hall
  have hsize : 0 + byteSize (doText body) + 1 = byteSize (doBlock body) + 0 := by
    rw [doBlock, byteSize_append]
    show _ = byteSize (doText body) + 1 + 0
    omega
  have hblank : isBlankText (doText body) = false := rfl
  rw [(hblock.append hls').statements_eq, Segment.pieces_cut hfront, htext, hsize, Segment.pieces_add,
    List.filter_cons_of_pos (by rw [Statement.isBlank, hblank]; rfl), hls'.statements_eq, List.filter_map]
  rfl

/-! ## Masking -/

/-- Masking is in a quoted text only behind a quote. -/
theorem Lexical.isQuote_of_after {state : Lexical} {t : Text} {q : Char}
    (hstate : ∀ x, state = .quoted x → isQuote x = true) (h : state.after t = .quoted q) : isQuote q = true := by
  fun_induction Lexical.after state t with
  | case1 state => exact hstate q h
  | case2 cs ih | case3 cs ih => exact ih (by rintro x ⟨⟩) h
  | case4 c cs _ _ ih =>
    refine ih ?_ h
    intro x hx
    split at hx
    · obtain rfl := Lexical.quoted.inj hx
      assumption
    · cases hx
  | case5 p c cs ih =>
    refine ih ?_ h
    intro x hx
    split at hx
    · cases hx
    · obtain rfl := Lexical.quoted.inj hx
      exact hstate p rfl
  | case6 c cs ih => exact ih (by intro x hx; split at hx <;> cases hx) h
  | case7 cs ih | case8 c cs _ ih => exact ih (by rintro x ⟨⟩) h

theorem not_dollars_infix_maskComments {body : Text} (h : ¬ dollars <:+: body) :
    ¬ dollars <:+: maskComments body :=
  fun hmasked => h ((blanked_maskFrom .code body).infix_before (by decide) hmasked)

theorem byteSize_maskComments (t : Text) : byteSize (maskComments t) = byteSize t :=
  byteSize_eq_of_blanked (blanked_maskFrom .code t)

theorem byteSize_doBlock (body : Text) : byteSize (doBlock body) = byteSize body + 8 := by
  have hmarks : byteSize ['D', 'O', ' '] = 3 ∧ byteSize dollars = 2 ∧ byteSize [';'] = 1 := by decide
  simp only [doBlock, doText, byteSize_append]
  omega

/-- The block is masked like its body, and what follows the body in the state in which the body ends. -/
theorem maskComments_doBlock_append (body script : Text) :
    maskComments (doBlock body ++ script) = ['D', 'O', ' '] ++ (dollars ++ (maskComments body ++
      maskFrom (Lexical.code.after body) (dollars ++ ';' :: script))) := by
  have hsplit : doBlock body ++ script = ['D', 'O', ' ', '$', '$'] ++ (body ++ (dollars ++ ';' :: script)) := by
    simp [doBlock, doText, dollars]
  have hstart : Seam ['D', 'O', ' ', '$', '$'] (body ++ (dollars ++ ';' :: script)) := .of_getLast (by simp) _
  have hend : Seam body (dollars ++ ';' :: script) := .of_head (forall_mem_head?_cons (by decide) _) body
  have hcode : Lexical.code.after ['D', 'O', ' ', '$', '$'] = .code := by decide
  rw [hsplit, maskComments, maskFrom_append .code hstart, hcode, maskFrom_append .code hend]
  rfl

section

variable {body : Text}

theorem maskComments_doBlock_of_code (h : Lexical.code.after body = .code) (script : Text) :
    maskComments (doBlock body ++ script) = doBlock (maskComments body) ++ maskComments script := by
  have hrest : maskFrom .code (dollars ++ ';' :: script) = dollars ++ ';' :: maskComments script := rfl
  rw [maskComments_doBlock_append, h, hrest]
  simp [doBlock, doText]

/-- Behind an open quote nothing is blanked out before the next one. -/
theorem maskComments_doBlock_of_quoted {q : Char} (h : Lexical.code.after body = .quoted q) {script : Text}
    (hscript : q ∉ script) : maskComments (doBlock body ++ script) = doBlock (maskComments body) ++ script := by
  have hquote : isQuote q = true := Lexical.isQuote_of_after (by rintro x ⟨⟩) h
  have hmem : q ∉ dollars ++ ';' :: script := by
    have hmarks : q ≠ '$' ∧ q ≠ ';' := by
      rcases isQuote_iff.mp hquote with rfl | rfl <;> decide
    simp [dollars, hmarks, hscript]
  have hrest := maskFrom_quoted_append hmem []
  rw [List.append_nil, maskFrom, List.append_nil] at hrest
  rw [maskComments_doBlock_append, h, hrest]
  simp [doBlock, doText]

/-- An open comment takes the closing tag and the semicolon. -/
theorem maskComments_doBlock_of_comment
    (h : Lexical.code.after body = .lineComment ∨ Lexical.code.after body = .blockComment) :
    maskComments (doBlock body) =
      ['D', 'O', ' '] ++ (dollars ++ (maskComments body ++ [' ', ' ', ' '])) := by
  have hmasked := maskComments_doBlock_append body []
  rw [List.append_nil] at hmasked
  rcases h with h | h
  · rw [hmasked, h]
    rfl
  · rw [hmasked, h]
    rfl

/-! ## Opaque bodies -/

/-- When quotes and comments end in the body, nothing behind it is read differently. -/
theorem opaqueBody_of_code (hbody : ¬ dollars <:+: body) (h : Lexical.code.after body = .code) (script : Text) :
    OpaqueBody body script := by
  have hsize : byteSize (doBlock (maskComments body)) = byteSize (doBlock body) := by
    rw [byteSize_doBlock, byteSize_doBlock, byteSize_maskComments]
  refine ⟨⟨0, doText (maskComments body)⟩, rfl, ?_, ?_⟩
  · rw [← hsize, doBlock, byteSize_append]
    rfl
  · show Text.statements (maskComments (doBlock body ++ script)) = _
    rw [maskComments_doBlock_of_code h, statements_doBlock (not_dollars_infix_maskComments hbody), hsize]
    rfl

/-- An open quote hides the comment mark of a script with nothing but a comment. -/
theorem not_opaqueBody_of_quoted (hbody : ¬ dollars <:+: body) {q : Char}
    (h : Lexical.code.after body = .quoted q) : ¬ OpaqueBody body ['-', '-'] := by
  rintro ⟨first, -, -, hstatements⟩
  have hquote : isQuote q = true := Lexical.isQuote_of_after (by rintro x ⟨⟩) h
  have hscript : q ∉ ['-', '-'] := by
    rcases isQuote_iff.mp hquote with rfl | rfl <;> decide
  have hactual : (Source.ofText (doBlock body ++ ['-', '-'])).statements =
      Text.statements (maskComments (doBlock body ++ ['-', '-'])) := rfl
  rw [hactual, maskComments_doBlock_of_quoted h hscript,
    statements_doBlock (not_dollars_infix_maskComments hbody)] at hstatements
  -- two statements on one side, one on the other
  have hcount := congrArg List.length hstatements
  simp only [List.length_cons, List.length_map] at hcount
  revert hcount
  decide

theorem dollars_infix_of_append_space {t : Text} (h : dollars <:+: t ++ [' ']) : dollars <:+: t := by
  rcases List.infix_concat_iff.mp h with ⟨front, hfront⟩ | hinside
  · have hlast := congrArg List.getLast? hfront
    simp [dollars] at hlast
  · exact hinside

/-- An open comment takes the end of the block away, so the only statement runs to the end. -/
theorem not_opaqueBody_of_comment (hbody : ¬ dollars <:+: body)
    (h : Lexical.code.after body = .lineComment ∨ Lexical.code.after body = .blockComment) :
    ¬ OpaqueBody body [] := by
  rintro ⟨first, -, hsize, hstatements⟩
  have hopen : ¬ dollars <:+: maskComments body ++ [' ', ' ', ' '] := by
    intro hpart
    rw [List.append_cons, List.append_cons] at hpart
    exact not_dollars_infix_maskComments hbody (dollars_infix_of_append_space
      (dollars_infix_of_append_space (dollars_infix_of_append_space hpart)))
  have hsegments := (Segments.openDollar isDollarTag_dollars hopen).do_append
  rw [← maskComments_doBlock_of_comment h] at hsegments
  have htext := hsegments.segmentText_eq
  have hblank : isBlankText (maskComments (doBlock body)) = false := by
    rw [maskComments_doBlock_of_comment h]
    rfl
  have hactual : (Source.ofText (doBlock body ++ [])).statements = [⟨0, maskComments (doBlock body)⟩] := by
    rw [List.append_nil]
    show Text.statements (maskComments (doBlock body)) = _
    rw [hsegments.statements_eq, Segment.pieces_last (by simp [Segment.separator]), htext,
      List.filter_cons_of_pos (by rw [Statement.isBlank, hblank]; rfl)]
    rfl
  rw [hactual] at hstatements
  obtain ⟨rfl, -⟩ := List.cons.inj hstatements
  have hkept := byteSize_maskComments (doBlock body)
  dsimp only at hsize
  omega

end

/-- **A dollar-quoted body is opaque exactly when its quotes and comments end in it.** -/
theorem dollarBody_opaque_iff (body : Text) (hbody : ¬ dollars <:+: body) :
    (∀ script, OpaqueBody body script) ↔ Lexical.code.after body = .code := by
  constructor
  · intro h
    match hstate : Lexical.code.after body with
    | .code => rfl
    | .quoted q => exact absurd (h ['-', '-']) (not_opaqueBody_of_quoted hbody hstate)
    | .lineComment => exact absurd (h []) (not_opaqueBody_of_comment hbody (Or.inl hstate))
    | .blockComment => exact absurd (h []) (not_opaqueBody_of_comment hbody (Or.inr hstate))
  · exact fun h script => opaqueBody_of_code hbody h script

theorem dollarBody_opaque_iff_assignment : ¬ dollars <:+: "x := 'a;b'; -- c\n".toList ∧
    ∀ script, OpaqueBody "x := 'a;b'; -- c\n".toList script :=
  ⟨by decide, (dollarBody_opaque_iff _ (by decide)).mpr (by decide)⟩

/-- The apostrophe hides the comment behind the block. -/
theorem apostrophe_body_not_opaque : ¬ dollars <:+: " don't ".toList ∧
    ¬ OpaqueBody " don't ".toList " SELECT 1; -- end".toList := by
  refine ⟨by decide, ?_⟩
  rintro ⟨first, -, -, hstatements⟩
  have hcount := congrArg List.length hstatements
  rw [List.length_cons, List.length_map] at hcount
  revert hcount
  decide

end SchemaReview
