import SchemaReview.Proofs.Pattern.Verbatim
import SchemaReview.Proofs.Source.Balanced
import SchemaReview.Source.Statement

/-!
# Proofs.Source.Pieces — scripts made of plain statements

* `StatementText`: a statement without quotes, dollar signs and comments whose parentheses close.  Its
  `piece` ends with a semicolon and a line break, and `scriptOf` joins pieces.
* Nothing is blanked out in such a script (`text_ofText_scriptOf`).
* The statements of a script are those of its pieces, one after the other, but for a line break in
  front: `flatMap_statements_scriptOf`.
-/

namespace SchemaReview

open Text

/-- A statement without quotes, dollar signs and comments, whose parentheses are closed. -/
structure StatementText where
  text : Text
  plain : ∀ c ∈ text, c ∉ ['\x27', '"', '\x60', '$', ';']
  commentFree : CommentFree text
  balanced : Balanced true text

/-- The statement with the semicolon and the line break that end it. -/
def StatementText.piece (p : StatementText) : Text := p.text ++ [';', '\n']

/-- The statements, each one with its semicolon and line break. -/
def scriptOf (ps : List StatementText) : Text := ps.flatMap StatementText.piece

theorem scriptOf_cons (p : StatementText) (ps : List StatementText) :
    scriptOf (p :: ps) = p.piece ++ scriptOf ps := rfl

/-! ## Single pieces -/

/-- Where no quote hides it, every opening parenthesis of a balanced text is followed by a closing
one. -/
theorem Balanced.mem_of_eq_append {commas : Bool} {t : Text} (h : Balanced commas t)
    (hquote : ∀ c ∈ t, isQuote c = false) {v w : Text} (ht : t = v ++ '(' :: w) : ')' ∈ w := by
  induction h generalizing v with
  | nil => simp at ht
  | @char commas c t hc hmark hcomma _ ih =>
    cases v with
    | nil =>
      rw [List.nil_append, List.cons.injEq] at ht
      simp [ht.1] at hmark
    | cons y v =>
      rw [List.cons_append, List.cons.injEq] at ht
      exact ih (fun c hc => hquote c (List.mem_cons_of_mem _ hc)) ht.2
  | @quoted commas q body t hq =>
    rw [hquote q List.mem_cons_self] at hq
    cases hq
  | @paren commas inner t _ _ ihinner ih =>
    cases v with
    | nil =>
      rw [List.nil_append, List.cons.injEq] at ht
      simp [← ht.2]
    | cons y v =>
      rw [List.cons_append, List.cons.injEq] at ht
      -- the parenthesis at hand stands behind this group, or inside it
      rcases List.append_eq_append_iff.mp ht.2 with ⟨a, rfl, ha⟩ | ⟨a, rfl, ha⟩
      · cases a with
        | nil => simp at ha
        | cons z a =>
          rw [List.cons_append, List.cons.injEq] at ha
          exact ih (fun c hc => hquote c (by simp [hc])) ha.2
      · cases a with
        | nil => simp at ha
        | cons z a =>
          rw [List.cons_append, List.cons.injEq] at ha
          simp [ha.2]

namespace StatementText

variable (p : StatementText)

theorem isQuote_of_mem {c : Char} (hc : c ∈ p.text) : isQuote c = false := by
  have hplain := p.plain c hc
  simp only [List.mem_cons, List.not_mem_nil, or_false, not_or] at hplain
  simp [isQuote, hplain.1, hplain.2.1]

theorem semicolon_not_mem : ';' ∉ p.text := fun h => p.plain ';' h (by simp)

theorem inStatement_piece : InStatement p.piece :=
  ⟨p.text, rfl, p.semicolon_not_mem,
    fun _ _ h => p.balanced.mem_of_eq_append (fun _ hc => p.isQuote_of_mem hc) h⟩

end StatementText

/-! ## Comments -/

theorem commentFree_scriptOf (ps : List StatementText) : CommentFree (scriptOf ps) := by
  induction ps with
  | nil => exact .nil
  | cons p ps ih =>
    have hsplit : scriptOf (p :: ps) = p.text ++ ';' :: '\n' :: scriptOf ps := by
      simp [scriptOf_cons, StatementText.piece]
    rw [hsplit]
    exact p.commentFree.append_cons (by decide) (ih.cons (by decide))

theorem text_ofText_scriptOf (ps : List StatementText) :
    (Source.ofText (scriptOf ps)).text = scriptOf ps :=
  (commentFree_scriptOf ps).maskComments_eq

theorem text_ofText_piece (p : StatementText) : (Source.ofText p.piece).text = p.piece := by
  simpa [scriptOf] using text_ofText_scriptOf [p]

/-! ## Statements -/

/-- Without quotes and dollar signs, a statement ends at the next semicolon. -/
theorem statementsFrom_append {t : Text} (hquote : ∀ c ∈ t, isQuote c = false) (hdollar : '$' ∉ t)
    (hsemicolon : ';' ∉ t) (start offset : Nat) (piece rest : Text) :
    statementsFrom start offset 0 piece (t ++ ';' :: rest) =
      Statement.ofPiece start (piece.reverse ++ t) ++
        statementsFrom (offset + byteSize t + 1) (offset + byteSize t + 1) 0 [] rest := by
  induction t generalizing offset piece with
  | nil => simp [statementsFrom]
  | cons c t ih =>
    rw [List.mem_cons, not_or] at hdollar hsemicolon
    rw [List.forall_mem_cons] at hquote
    have hregion : ∀ cs, regionLength c cs = 0 := by
      intro cs
      simp [regionLength, hquote.1, Ne.symm hdollar.1]
    rw [List.cons_append, statementsFrom, if_pos rfl, if_neg (Ne.symm hsemicolon.1), hregion,
      ih hquote.2 hdollar.2 hsemicolon.2]
    simp [Nat.add_assoc]

theorem flatMap_ofPiece {β : Type} (f : Text → List β) (start : Nat) (t : Text) :
    (Statement.ofPiece start t).flatMap (fun statement => f statement.text) =
      if isBlankText t then [] else f t := by
  unfold Statement.ofPiece
  split <;> simp

section

variable {β : Type} {f : Text → List β} (hf : ∀ t, f ('\n' :: t) = f t)
include hf

/-- What is read from each statement is read from the pieces, when a line break in front does not
matter. -/
theorem flatMap_statementsFrom (ps : List StatementText) {lead : Text}
    (hlead : lead = [] ∨ lead = ['\n']) (start : Nat) :
    (statementsFrom start start 0 [] (lead ++ scriptOf ps)).flatMap (fun st => f st.text) =
      ps.flatMap fun p => if isBlankText p.text then [] else f p.text := by
  induction ps generalizing lead start with
  | nil => rcases hlead with rfl | rfl <;> rfl
  | cons p ps ih =>
    have hsplit : lead ++ scriptOf (p :: ps) = (lead ++ p.text) ++ ';' :: (['\n'] ++ scriptOf ps) := by
      simp [scriptOf_cons, StatementText.piece]
    have hlines : ∀ c ∈ lead, c = '\n' := by
      rcases hlead with rfl | rfl <;> simp
    have hquote : ∀ c ∈ lead ++ p.text, isQuote c = false := by
      intro c hc
      rcases List.mem_append.mp hc with hc | hc
      · rw [hlines c hc]
        rfl
      · exact p.isQuote_of_mem hc
    have hmark : ∀ x ∈ ['\x27', '"', '\x60', '$', ';'], x ∉ lead ++ p.text := by
      intro x hx hmem
      rcases List.mem_append.mp hmem with hmem | hmem
      · rw [hlines x hmem] at hx
        exact absurd hx (by decide)
      · exact p.plain x hmem hx
    have hhere : (if isBlankText (lead ++ p.text) then [] else f (lead ++ p.text)) =
        if isBlankText p.text then [] else f p.text := by
      rcases hlead with rfl | rfl
      · rfl
      · have hblank : isBlankText ('\n' :: p.text) = isBlankText p.text := rfl
        rw [List.singleton_append, hblank, hf]
    rw [hsplit, statementsFrom_append hquote (hmark '$' (by simp)) (hmark ';' (by simp)),
      List.flatMap_append, List.reverse_nil, List.nil_append, flatMap_ofPiece, hhere,
      ih (Or.inr rfl), List.flatMap_cons]

theorem flatMap_statements_scriptOf (ps : List StatementText) :
    (Source.ofText (scriptOf ps)).statements.flatMap (fun st => f st.text) =
      ps.flatMap fun p => (Source.ofText p.piece).statements.flatMap fun st => f st.text := by
  have hscript := flatMap_statementsFrom hf ps (Or.inl rfl) 0
  rw [Source.statements, text_ofText_scriptOf, statements]
  refine hscript.trans (List.flatMap_congr fun p _ => ?_)
  have hpiece := flatMap_statementsFrom hf [p] (Or.inl rfl) 0
  rw [List.flatMap_cons, List.flatMap_nil, List.append_nil] at hpiece
  rw [← hpiece, Source.statements, text_ofText_piece, statements]
  simp [scriptOf]

end

end SchemaReview
