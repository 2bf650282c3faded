import SchemaReview.Proofs.Source.Comment

/-!
# Proofs.Source.Balanced — texts with closed quotes and parentheses

`Balanced commas t` is given by rules; `closes` decides it by one pass over the text that counts the
open parentheses.  `balanced_iff` says that they agree, so a text can be checked by evaluation.
-/

namespace SchemaReview

/-- Quotes and parentheses are closed, and outside quotes there is no semicolon; commas outside quotes
stand in parentheses, or anywhere when `commas` holds. -/
inductive Balanced : Bool → Text → Prop
  | nil {commas : Bool} : Balanced commas []
  | char {commas : Bool} {c : Char} {t : Text} (hquote : isQuote c = false)
      (hmark : c ∉ ['(', ')', ';']) (hcomma : c = ',' → commas = true) (h : Balanced commas t) :
      Balanced commas (c :: t)
  | quoted {commas : Bool} {q : Char} {body t : Text} (hquote : isQuote q = true) (hbody : q ∉ body)
      (h : Balanced commas t) : Balanced commas (q :: (body ++ q :: t))
  | paren {commas : Bool} {inner t : Text} (hinner : Balanced true inner) (h : Balanced commas t) :
      Balanced commas ('(' :: (inner ++ ')' :: t))

/-- Commas may be allowed. -/
theorem Balanced.withCommas {commas : Bool} {t : Text} (h : Balanced commas t) : Balanced true t := by
  induction h with
  | nil => exact .nil
  | char hquote hmark _ _ ih => exact .char hquote hmark (fun _ => rfl) ih
  | quoted hquote hbody _ ih => exact .quoted hquote hbody ih
  | paren hinner _ _ ih => exact .paren hinner ih

/-- What is no quote, parenthesis, semicolon or comma may stand in front. -/
theorem Balanced.plain_append {commas : Bool} {t u : Text} (ht : ∀ c ∈ t, c ∉ ['\x27', '"', '(', ')', ';', ','])
    (hu : Balanced commas u) : Balanced commas (t ++ u) := by
  induction t with
  | nil => exact hu
  | cons c t ih =>
    rw [List.forall_mem_cons] at ht
    have hc := ht.1
    simp only [List.mem_cons, List.not_mem_nil, or_false, not_or] at hc
    refine .char ?_ (by simp [hc]) (fun hcomma => absurd hcomma hc.2.2.2.2.2) (ih ht.2)
    simp [isQuote, hc]

/-- The text closes its quotes and the `depth` parentheses open in front of it, with no semicolon
outside quotes and no comma outside quotes and parentheses; `quote` is the quote it begins in. -/
def closes (quote : Option Char) (depth : Nat) : Text → Bool
  | [] => quote.isNone && depth == 0
  | c :: cs =>
    match quote with
    | some q => closes (if c = q then none else some q) depth cs
    | none =>
      if isQuote c then closes (some c) depth cs
      else if c = '(' then closes none (depth + 1) cs
      else if c = ')' then decide (0 < depth) && closes none (depth - 1) cs
      else c != ';' && (c != ',' || decide (0 < depth)) && closes none depth cs

section

variable {c q : Char} {depth : Nat} {t : Text}

theorem closes_some_cons :
    closes (some q) depth (c :: t) = closes (if c = q then none else some q) depth t := rfl

theorem closes_quote_cons (hc : isQuote c = true) :
    closes none depth (c :: t) = closes (some c) depth t := by
  simp [closes, hc]

theorem closes_open_cons : closes none depth ('(' :: t) = closes none (depth + 1) t := by
  simp [closes, isQuote]

theorem closes_close_cons :
    closes none depth (')' :: t) = (decide (0 < depth) && closes none (depth - 1) t) := by
  simp [closes, isQuote]

theorem closes_plain_cons (hc : isQuote c = false) (hopen : c ≠ '(') (hclose : c ≠ ')') :
    closes none depth (c :: t) =
      (c != ';' && (c != ',' || decide (0 < depth)) && closes none depth t) := by
  simp [closes, hc, hopen, hclose]

end

/-! ### Balanced texts pass the check -/

theorem closes_quoted_append {q : Char} {body : Text} (h : q ∉ body) (depth : Nat) (t : Text) :
    closes (some q) depth (body ++ q :: t) = closes none depth t := by
  induction body with
  | nil => rw [List.nil_append, closes_some_cons, if_pos rfl]
  | cons c cs ih =>
    rw [List.mem_cons, not_or] at h
    rw [List.cons_append, closes_some_cons, if_neg (Ne.symm h.1), ih h.2]

/-- A balanced text does not change what is left to close. -/
theorem Balanced.closes_append {commas : Bool} {t : Text} (h : Balanced commas t) (depth : Nat)
    (hdepth : commas = true → 0 < depth) (u : Text) :
    closes none depth (t ++ u) = closes none depth u := by
  induction h generalizing depth u with
  | nil => rfl
  | @char commas c t hquote hmark hcomma _ ih =>
    simp only [List.mem_cons, List.not_mem_nil, or_false, not_or] at hmark
    have hcount : (c != ';' && (c != ',' || decide (0 < depth))) = true := by
      by_cases hc : c = ','
      · simp [hc, hdepth (hcomma hc)]
      · simp [hc, hmark]
    rw [List.cons_append, closes_plain_cons hquote hmark.1 hmark.2.1, hcount, Bool.true_and,
      ih _ hdepth]
  | @quoted commas q body t hquote hbody _ ih =>
    rw [List.cons_append, List.append_assoc, List.cons_append, closes_quote_cons hquote,
      closes_quoted_append hbody, ih _ hdepth]
  | @paren commas inner t _ _ ihinner ih =>
    rw [List.cons_append, List.append_assoc, closes_open_cons, ihinner _ fun _ => Nat.succ_pos depth,
      List.cons_append, closes_close_cons]
    simp [ih _ hdepth]

/-! ### Texts that pass the check are balanced -/

/-- The text is balanced but for `depth` closing parentheses. -/
def BalancedBut : Nat → Text → Prop
  | 0, t => Balanced false t
  | depth + 1, t => ∃ u v, t = u ++ ')' :: v ∧ Balanced true u ∧ BalancedBut depth v

/-- What may stand in front of every balanced text may also stand in front of such a text. -/
theorem BalancedBut.append {depth : Nat} {t w : Text} (h : BalancedBut depth t)
    (hw : ∀ u, Balanced (decide (0 < depth)) u → Balanced (decide (0 < depth)) (w ++ u)) :
    BalancedBut depth (w ++ t) := by
  cases depth with
  | zero => exact hw t h
  | succ depth =>
    obtain ⟨u, v, rfl, hu, hv⟩ := h
    refine ⟨w ++ u, v, ?_, hw u hu, hv⟩
    rw [List.append_assoc]

theorem BalancedBut.char {depth : Nat} {t : Text} {c : Char} (h : BalancedBut depth t)
    (hquote : isQuote c = false) (hmark : c ∉ ['(', ')', ';']) (hcomma : c = ',' → 0 < depth) :
    BalancedBut depth (c :: t) := by
  refine h.append (w := [c]) fun u hu => ?_
  refine .char hquote hmark (fun hc => ?_) hu
  rw [decide_eq_true_eq]
  exact hcomma hc

theorem BalancedBut.quoted {depth : Nat} {t body : Text} {q : Char} (h : BalancedBut depth t)
    (hquote : isQuote q = true) (hbody : q ∉ body) : BalancedBut depth (q :: (body ++ q :: t)) := by
  have hsplit : ∀ u : Text, q :: (body ++ q :: u) = q :: (body ++ [q]) ++ u := by
    intro u
    simp
  rw [hsplit]
  refine h.append fun u hu => ?_
  rw [← hsplit]
  exact .quoted hquote hbody hu

theorem BalancedBut.paren {depth : Nat} {t inner : Text} (h : BalancedBut depth t)
    (hinner : Balanced true inner) : BalancedBut depth ('(' :: (inner ++ ')' :: t)) := by
  have hsplit : ∀ u : Text, '(' :: (inner ++ ')' :: u) = '(' :: (inner ++ [')']) ++ u := by
    intro u
    simp
  rw [hsplit]
  refine h.append fun u hu => ?_
  rw [← hsplit]
  exact .paren hinner hu

/-- By induction on the text, for a text that begins inside or outside quotes. -/
theorem balancedBut_of_closes {t : Text} {depth : Nat} :
    (closes none depth t = true → BalancedBut depth t) ∧
      ∀ q, closes (some q) depth t = true →
        ∃ body u, t = body ++ q :: u ∧ q ∉ body ∧ BalancedBut depth u := by
  induction t generalizing depth with
  | nil =>
    refine ⟨fun h => ?_, fun q h => ?_⟩
    · simp only [closes, Option.isNone_none, Bool.true_and, beq_iff_eq] at h
      subst h
      exact Balanced.nil
    · simp [closes] at h
  | cons c t ih =>
    refine ⟨fun h => ?_, fun q h => ?_⟩
    · by_cases hquote : isQuote c = true
      · rw [closes_quote_cons hquote] at h
        obtain ⟨body, u, rfl, hbody, hu⟩ := ih.2 c h
        exact hu.quoted hquote hbody
      rw [Bool.not_eq_true] at hquote
      by_cases hopen : c = '('
      · subst hopen
        rw [closes_open_cons] at h
        -- one deeper, the text has the parenthesis that closes this one
        obtain ⟨inner, v, rfl, hinner, hv⟩ := ih.1 h
        exact hv.paren hinner
      by_cases hclose : c = ')'
      · subst hclose
        rw [closes_close_cons, Bool.and_eq_true, decide_eq_true_eq] at h
        cases depth with
        | zero => omega
        | succ depth => exact ⟨[], t, rfl, .nil, ih.1 h.2⟩
      · rw [closes_plain_cons hquote hopen hclose] at h
        simp only [Bool.and_eq_true, bne_iff_ne, ne_eq, Bool.or_eq_true, decide_eq_true_eq] at h
        obtain ⟨⟨hsemicolon, hcomma⟩, hrest⟩ := h
        refine (ih.1 hrest).char hquote (by simp [hopen, hclose, hsemicolon]) fun hc => ?_
        exact hcomma.resolve_left (not_not_intro hc)
    · rw [closes_some_cons] at h
      by_cases hc : c = q
      · subst hc
        rw [if_pos rfl] at h
        exact ⟨[], t, rfl, by simp, ih.1 h⟩
      · rw [if_neg hc] at h
        obtain ⟨body, u, rfl, hbody, hu⟩ := ih.2 q h
        exact ⟨c :: body, u, rfl, by simp [hbody, Ne.symm hc], hu⟩

/-- The check decides the rules. -/
theorem balanced_iff (t : Text) : Balanced false t ↔ closes none 0 t = true := by
  constructor
  · intro h
    have hclosed := h.closes_append 0 (by simp) []
    rw [List.append_nil] at hclosed
    rw [hclosed]
    rfl
  · exact balancedBut_of_closes.1

instance (t : Text) : Decidable (Balanced false t) := decidable_of_iff _ (balanced_iff t).symm

end SchemaReview
