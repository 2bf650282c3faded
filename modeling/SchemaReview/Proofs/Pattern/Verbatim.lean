import SchemaReview.Ddl.Name
import SchemaReview.Proofs.Pattern.Placement

/-!
# Proofs.Pattern.Verbatim — matching one statement of a script

A statement stands in a script as it is, behind a line break and in front of the next statement.

* `Pattern.refuses x p`: the pattern fails at once in front of `x`.  This is decided by looking at the
  pattern, and such a pattern does not match the empty text either.
* `Pattern.skipsPadding p`: the pattern does not ask where the text begins and does not begin with white
  space, so it finds the same behind white space: `search_padding`, `findAll_padding`.
* `InStatement t`: a text that runs up to the semicolon and the line break that end its statement.
  A pattern that stops at the semicolon does not see what follows (`transfers_of_stopsAt`), and nor does
  a parenthesized list, which ends in the statement it begins in (`transfers_parenthesized`).
-/

namespace SchemaReview

open Text

/-! ## Texts as they are in another place -/

/-- The text as it is. -/
def Placement.verbatim (front : Option Char) (start : Nat) (after : Text) : Placement :=
  ⟨id, fun _ => rfl, front, start, after⟩

namespace Placement

variable {front : Option Char} {start : Nat} {after : Text}

@[simp] theorem text_verbatim (t : Text) : (verbatim front start after).text t = t ++ after := by
  simp [text, verbatim]

@[simp] theorem before_verbatim (b : Option Char) :
    (verbatim front start after).before b = b.or front := by
  simp [before, verbatim]

@[simp] theorem char_verbatim (x : Char) : (verbatim front start after).char x = x := rfl

@[simp] theorem start_verbatim : (verbatim front start after).start = start := rfl

@[simp] theorem after_verbatim : (verbatim front start after).after = after := rfl

theorem cursor_verbatim (b : Option Char) (offset : Nat) (t : Text) :
    (verbatim front start after).cursor ⟨b, offset, t⟩ =
      ⟨b.or front, start + offset, t ++ after⟩ := by
  simp [cursor]

/-- What a match captured is the same text in the other place. -/
theorem groupText_hit_verbatim {p : Pattern} {c : Cursor} {m : Match} (h : p.matchAt c = some m)
    (n : Nat) : ((verbatim front start after).hit m).groupText n = m.groupText n := by
  rw [Match.groupText, Match.groupText, group?_hit]
  cases hgroup : m.group? n with
  | none => rfl
  | some capture =>
    obtain ⟨earlier, later, hcaptures, -⟩ := List.lookup_eq_some_iff.mp hgroup
    have hfits : capture.Fits := Pattern.fits_of_matchAt h (n, capture) (by simp [hcaptures])
    have hsize : start + capture.stop - (start + capture.start) = capture.stop - capture.start := by
      omega
    simp only [Option.map_some, Option.getD_some, Capture.text, Placement.capture, start_verbatim,
      text_verbatim, hsize]
    exact takeBytes_append_of_le hfits after

end Placement

namespace Pattern

/-! ## Patterns that fail at once -/

/-- The pattern takes no character. -/
def passive : Pattern → Bool
  | .empty | .wordEdge | .textStart | .textEnd => true
  | _ => false

/-- The pattern needs a first character other than `x`. -/
def refuses (x : Char) : Pattern → Bool
  | .one cls => !cls.holds x
  | .seq p q => p.refuses x || (p.passive && q.refuses x)
  | .alt p q => p.refuses x && q.refuses x
  | .group _ p => p.refuses x
  | _ => false

theorem run_of_passive {α : Type} {p : Pattern} (hp : p.passive = true) (c : Cursor) (g : Captures)
    (k : Continue α) : p.run c g k = none ∨ p.run c g k = k c g := by
  have htest : ∀ test : Bool, (if test then k c g else none) = none ∨
      (if test then k c g else none) = k c g := by
    intro test
    cases test <;> simp
  cases p with
  | empty => exact Or.inr rfl
  | wordEdge | textStart | textEnd => exact htest _
  | one | seq | alt | many | star | group => cases hp

theorem run_eq_none_of_refuses {α : Type} {p : Pattern} {x : Char} (hp : p.refuses x = true)
    {c : Cursor} (hc : ∀ y ∈ c.rest.head?, y = x) (g : Captures) (k : Continue α) :
    p.run c g k = none := by
  induction p generalizing g k with
  | one cls =>
    obtain ⟨before, offset, rest⟩ := c
    cases rest with
    | nil => rfl
    | cons y ys =>
      obtain rfl : y = x := hc y rfl
      rw [refuses, Bool.not_eq_true'] at hp
      exact run_one_of_not_holds hp before offset ys g k
  | seq p q ihp ihq =>
    rw [refuses, Bool.or_eq_true, Bool.and_eq_true] at hp
    rw [run_seq]
    rcases hp with hp | ⟨hp, hq⟩
    · exact ihp hp g _
    · rcases run_of_passive hp c g fun c' g' => q.run c' g' k with hnone | hnext
      · exact hnone
      · rw [hnext, ihq hq]
  | alt p q ihp ihq =>
    rw [refuses, Bool.and_eq_true] at hp
    rw [run_alt, ihp hp.1, ihq hp.2]
    rfl
  | group n p ih => exact ih hp g _
  | empty | many | star | wordEdge | textStart | textEnd => cases hp

theorem matchAt_eq_none_of_refuses {p : Pattern} {x : Char} (hp : p.refuses x = true)
    {c : Cursor} (hc : ∀ y ∈ c.rest.head?, y = x) : p.matchAt c = none :=
  run_eq_none_of_refuses hp hc _ _

/-! ## Behind white space -/

/-- The pattern does not ask where the text begins. -/
def floating : Pattern → Bool
  | .textStart => false
  | .seq p q | .alt p q => p.floating && q.floating
  | .star p | .group _ p => p.floating
  | _ => true

theorem transfers_of_floating {p : Pattern} (h : p.floating = true) (front : Option Char)
    (hfront : front.any isWord = false) (start : Nat) :
    p.Transfers (.verbatim front start []) (fun _ => True) fun _ => True := by
  have hclass : ∀ cls : CharClass,
      cls.Transfers (.verbatim front start []) (fun _ => True) fun _ => True := by
    intro cls
    refine ⟨fun _ _ _ => rfl, fun _ _ _ _ => trivial, ?_⟩
    intro _ x hx
    cases hx
  induction p with
  | empty => exact .empty
  | one cls => exact .one (hclass cls)
  | many cls => exact .many (hclass cls)
  | seq p q ihp ihq =>
    rw [floating, Bool.and_eq_true] at h
    exact .seq (ihp h.1) (ihq h.2)
  | alt p q ihp ihq =>
    rw [floating, Bool.and_eq_true] at h
    exact .alt (ihp h.1) (ihq h.2)
  | star p ih => exact .star rfl (ih h)
  | group n p ih => exact .group n (ih h)
  | wordEdge => exact .wordEdge (fun _ => rfl) hfront fun _ => rfl
  | textStart => cases h
  | textEnd => exact .textEnd rfl

/-- The pattern matches nothing that begins with a space, a tab or a line feed. -/
def skipsPadding (p : Pattern) : Bool := p.floating && [' ', '\t', '\n'].all p.refuses

end Pattern

/-- Spaces, tabs and line feeds. -/
def IsPadding (w : Text) : Prop := ∀ c ∈ w, c ∈ [' ', '\t', '\n']

namespace IsPadding

variable {w : Text} (h : IsPadding w)

theorem tail {c : Char} (h : IsPadding (c :: w)) : IsPadding w :=
  fun d hd => h d (List.mem_cons_of_mem c hd)

include h

/-- What holds of a space, a tab and a line feed holds of padding. -/
theorem holds {p : Char → Bool} (hp : [' ', '\t', '\n'].all p = true) {c : Char} (hc : c ∈ w) :
    p c = true := List.all_eq_true.mp hp c (h c hc)

theorem isBlank {c : Char} (hc : c ∈ w) : SchemaReview.isBlank c = true := h.holds (by decide) hc

/-- No word goes on behind padding. -/
theorem getLast?_any_isWord : w.getLast?.any isWord = false := by
  cases hlast : w.getLast? with
  | none => rfl
  | some c =>
    have hword : (!isWord c) = true :=
      h.holds (p := fun c => !isWord c) (by decide) (List.mem_of_getLast? hlast)
    simpa using hword

end IsPadding

namespace Pattern

/-- A match as it is behind the text `w`. -/
def behind (w : Text) : Match → Match := (Placement.verbatim w.getLast? (byteSize w) []).hit

theorem groupText_behind (w : Text) {p : Pattern} {c : Cursor} {m : Match} (h : p.matchAt c = some m)
    (n : Nat) : (behind w m).groupText n = m.groupText n :=
  Placement.groupText_hit_verbatim h n

theorem groupString_behind (w : Text) {p : Pattern} {c : Cursor} {m : Match}
    (h : p.matchAt c = some m) (n : Nat) : (behind w m).groupString n = m.groupString n :=
  congrArg String.ofList (groupText_behind w h n)

@[simp] theorem rest_stop_behind (w : Text) (m : Match) : (behind w m).stop.rest = m.stop.rest := by
  simp [behind, Placement.hit, Placement.cursor]

@[simp] theorem offset_start_behind (w : Text) (m : Match) :
    (behind w m).start.offset = byteSize w + m.start.offset := rfl

section

variable {p : Pattern} (hp : p.skipsPadding = true) {w : Text} (hw : IsPadding w) (t : Text)
include hp

theorem floating_of_skipsPadding : p.floating = true := by
  rw [skipsPadding, Bool.and_eq_true] at hp
  exact hp.1

include hw

theorem matchAt_eq_none_of_padding {x : Char} (hx : x ∈ w) (before : Option Char) (offset : Nat)
    (xs : Text) : p.matchAt ⟨before, offset, x :: xs⟩ = none := by
  rw [skipsPadding, Bool.and_eq_true, List.all_eq_true] at hp
  exact matchAt_eq_none_of_refuses (hp.2 x (hw x hx)) (by simp)

theorem searchFrom_padding (before : Option Char) (offset : Nat) :
    p.searchFrom before offset (w ++ t) =
      p.searchFrom (w.getLast?.or before) (offset + byteSize w) t := by
  induction w generalizing before offset with
  | nil => rfl
  | cons x w ih =>
    rw [List.cons_append, searchFrom, matchAt_eq_none_of_padding hp hw List.mem_cons_self,
      getLast?_cons_or, byteSize_cons, ← Nat.add_assoc]
    exact ih hw.tail (some x) _

/-- Padding in front does not matter to a search. -/
theorem search_padding : p.search (w ++ t) = (p.search t).map (behind w) := by
  have htransfers := transfers_of_floating (floating_of_skipsPadding hp) w.getLast?
    hw.getLast?_any_isWord (byteSize w)
  have hrest := htransfers.searchFrom rfl none 0 t
  rw [Placement.text_verbatim, List.append_nil, Placement.before_verbatim, Option.none_or] at hrest
  rw [search, searchFrom_padding hp hw, Option.or_none, Nat.zero_add]
  exact hrest

theorem findAllFrom_padding (before : Option Char) (offset : Nat) :
    p.findAllFrom 0 before offset (w ++ t) =
      p.findAllFrom 0 (w.getLast?.or before) (offset + byteSize w) t :=
  findAllFrom_of_refused (R := fun _ _ w => IsPadding w)
    (fun hw => matchAt_eq_none_of_padding hp hw List.mem_cons_self _ _ _) (fun hw => hw.tail) hw

theorem findAll_padding : p.findAll (w ++ t) = (p.findAll t).map (behind w) := by
  have htransfers := transfers_of_floating (floating_of_skipsPadding hp) w.getLast?
    hw.getLast?_any_isWord (byteSize w)
  have hrest := htransfers.findAllFrom rfl 0 none 0 t
  rw [Placement.text_verbatim, List.append_nil, Placement.before_verbatim, Option.none_or,
    findAllFrom_of_le le_rfl] at hrest
  rw [findAll, findAllFrom_padding hp hw, Option.or_none, Nat.zero_add]
  exact hrest

end

/-! ## In front of the next statement -/

end Pattern

/-- The text runs up to the semicolon and the line break that end its statement, and parentheses that
open in it close in it. -/
def InStatement (t : Text) : Prop :=
  ∃ u, t = u ++ [';', '\n'] ∧ ';' ∉ u ∧ ∀ v w, u = v ++ '(' :: w → ')' ∈ w

/-- The text runs up to the first closing parenthesis, and on in its statement. -/
def InParens (t : Text) : Prop := ∃ w z, t = w ++ ')' :: z ∧ ')' ∉ w ∧ InStatement z

namespace InStatement

variable {x : Char} {xs : Text}

theorem not_nil : ¬ InStatement [] := by
  rintro ⟨u, hu, -⟩
  simp at hu

theorem tail (h : InStatement (x :: xs)) (hx : x ≠ ';') : InStatement xs := by
  obtain ⟨u, hu, hsemicolon, hclose⟩ := h
  cases u with
  | nil =>
    rw [List.nil_append, List.cons.injEq] at hu
    exact absurd hu.1 hx
  | cons y ys =>
    rw [List.cons_append, List.cons.injEq] at hu
    refine ⟨ys, hu.2, fun hmem => hsemicolon (List.mem_cons_of_mem y hmem), ?_⟩
    intro v w hvw
    exact hclose (y :: v) w (by rw [hvw, List.cons_append])

theorem of_append {v t : Text} (h : InStatement (v ++ t)) (hv : ';' ∉ v) : InStatement t := by
  induction v with
  | nil => exact h
  | cons x v ih =>
    rw [List.mem_cons, not_or] at hv
    exact ih (h.tail (Ne.symm hv.1)) hv.2

/-- Behind the semicolon there is the line break only. -/
theorem eq_lineBreak (h : InStatement (';' :: xs)) : xs = ['\n'] := by
  obtain ⟨u, hu, hsemicolon, -⟩ := h
  cases u with
  | nil =>
    rw [List.nil_append, List.cons.injEq] at hu
    exact hu.2
  | cons y ys =>
    rw [List.cons_append, List.cons.injEq] at hu
    exact absurd (List.mem_cons.mpr (Or.inl hu.1)) hsemicolon

theorem of_suffix {s t : Text} (h : InStatement t) (hs : s <:+ t) (hne : s ≠ []) :
    InStatement s ∨ s = ['\n'] := by
  induction t with
  | nil => exact absurd h not_nil
  | cons x xs ih =>
    rcases List.suffix_cons_iff.mp hs with rfl | hrest
    · exact Or.inl h
    · by_cases hx : x = ';'
      · subst hx
        rw [h.eq_lineBreak] at hrest
        rcases List.suffix_cons_iff.mp hrest with hlast | hlast
        · exact Or.inr hlast
        · exact absurd (List.suffix_nil.mp hlast) hne
      · exact ih (h.tail hx) hrest

theorem inParens (h : InStatement ('(' :: xs)) : InParens xs := by
  have htail := h.tail (by decide)
  obtain ⟨u, hu, hsemicolon, hclose⟩ := h
  cases u with
  | nil =>
    rw [List.nil_append, List.cons.injEq] at hu
    exact absurd hu.1 (by decide)
  | cons y ys =>
    rw [List.cons_append, List.cons.injEq] at hu
    obtain ⟨rfl, rfl⟩ := hu
    obtain ⟨v, w, rfl, hv⟩ := List.eq_append_cons_of_mem (hclose [] ys rfl)
    have hsplit : v ++ ')' :: w ++ [';', '\n'] = v ++ ')' :: (w ++ [';', '\n']) := by simp
    refine ⟨v, w ++ [';', '\n'], hsplit, hv, ?_⟩
    have hbefore : ';' ∉ v ++ [')'] := by
      intro hmem
      refine hsemicolon (List.mem_cons_of_mem _ ?_)
      simp only [List.mem_append, List.mem_singleton] at hmem
      rcases hmem with hmem | hmem
      · exact List.mem_append_left _ hmem
      · exact absurd hmem (by decide)
    rw [hsplit, List.append_cons] at htail
    exact htail.of_append hbefore

end InStatement

namespace Pattern

variable {front : Option Char} {start : Nat} {after : Text}

/-- A pattern that stops at the semicolon does not see what follows one.  The text may be required to
keep a property up to there. -/
theorem transfers_of_stopsAt_of_kept {p : Pattern} (h : p.stopsAt ';' = true)
    (hfront : front.any isWord = false) {kept : Text → Prop}
    (hkept : ∀ {x : Char} {xs : Text}, kept (x :: xs) → x ≠ ';' → kept xs)
    (hafter : kept [] → ∀ x ∈ after.head?, x = ';') :
    p.Transfers (.verbatim front start after) kept kept := by
  have hclass : ∀ {cls : CharClass}, (!cls.holds ';') = true →
      cls.Transfers (.verbatim front start after) kept kept := by
    intro cls hcls
    rw [Bool.not_eq_true'] at hcls
    refine ⟨fun _ _ _ => rfl, ?_, fun hnil x hx => hafter hnil x hx ▸ hcls⟩
    intro x xs hrest hx
    refine hkept hrest ?_
    rintro rfl
    rw [hx] at hcls
    cases hcls
  induction p with
  | empty => exact .empty
  | one cls => exact .one (hclass h)
  | many cls => exact .many (hclass h)
  | seq p q ihp ihq =>
    rw [stopsAt, Bool.and_eq_true] at h
    exact .seq (ihp h.1) (ihq h.2)
  | alt p q ihp ihq =>
    rw [stopsAt, Bool.and_eq_true] at h
    exact .alt (ihp h.1) (ihq h.2)
  | group n p ih => exact .group n (ih h)
  | wordEdge =>
    refine .wordEdge (fun _ => rfl) hfront fun hnil => ?_
    rw [Placement.after_verbatim]
    cases hhead : after.head? with
    | none => rfl
    | some x =>
      rw [hafter hnil x hhead]
      rfl
  | star | textStart | textEnd => cases h

/-- A pattern that stops at the semicolon does not see what follows its statement. -/
theorem transfers_of_stopsAt {p : Pattern} (h : p.stopsAt ';' = true)
    (hfront : front.any isWord = false) :
    p.Transfers (.verbatim front start after) InStatement InStatement :=
  transfers_of_stopsAt_of_kept h hfront .tail fun hnil => absurd hnil InStatement.not_nil

/-- A parenthesized list ends in the statement it begins in. -/
theorem transfers_parenthesized (n : Nat) :
    (parenthesized n).Transfers (.verbatim front start after) InStatement InStatement := by
  have hnot : ¬ InParens [] := by
    rintro ⟨w, z, hwz, -⟩
    simp at hwz
  have hopen : (char '(').Transfers (.verbatim front start after) InStatement InParens := by
    refine .one ⟨fun _ _ _ => rfl, ?_, fun hnil => absurd hnil InStatement.not_nil⟩
    intro x xs hrest hx
    obtain rfl : x = '(' := by simpa [CharClass.holds] using hx
    exact hrest.inParens
  have hlist : (upTo ')').Transfers (.verbatim front start after) InParens InParens := by
    refine .many ⟨fun _ _ _ => rfl, ?_, fun hnil => absurd hnil hnot⟩
    rintro x xs ⟨w, z, hwz, hw, hz⟩ hx
    have hne : x ≠ ')' := by simpa [CharClass.holds] using hx
    cases w with
    | nil =>
      rw [List.nil_append, List.cons.injEq] at hwz
      exact absurd hwz.1 hne
    | cons y ys =>
      rw [List.cons_append, List.cons.injEq] at hwz
      exact ⟨ys, z, hwz.2, fun hmem => hw (List.mem_cons_of_mem y hmem), hz⟩
  have hclose : (char ')').Transfers (.verbatim front start after) InParens InStatement := by
    refine .one ⟨fun _ _ _ => rfl, ?_, fun hnil => absurd hnil hnot⟩
    rintro x xs ⟨w, z, hwz, hw, hz⟩ hx
    obtain rfl : x = ')' := by simpa [CharClass.holds] using hx
    cases w with
    | nil =>
      rw [List.nil_append, List.cons.injEq] at hwz
      rwa [hwz.2]
    | cons y ys =>
      rw [List.cons_append, List.cons.injEq] at hwz
      exact absurd (List.mem_cons.mpr (Or.inl hwz.1)) hw
  exact .seq (.seq hopen (.group n hlist)) hclose

end Pattern

end SchemaReview
