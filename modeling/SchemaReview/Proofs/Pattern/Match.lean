import SchemaReview.Pattern.Runs
import SchemaReview.Proofs.Text.Basic

/-!
# Proofs.Pattern.Match — where a match can end, and what a pattern makes of a given text

* `Pattern.Takes` says by rules where a pattern can lead, and a pattern that succeeds has taken such a
  way: `exists_of_run`.  So a match starts where it was tried, its end is a position of the same text,
  and it passes no character that the pattern stops at: `matchAt_eq_some`.
* A pattern that fails at the end of a text also fails there when the text goes on, if it stops at the
  next character: `run_eq_none_of_extends`.
* The remaining lemmas run letters, gaps and runs of a class over the very texts they describe.
-/

namespace SchemaReview

open Text

/-! ### Moving a cursor -/

/-- The cursor `d` stands behind `w`, which follows the cursor `c`. -/
structure Cursor.Passes (c : Cursor) (w : Text) (d : Cursor) : Prop where
  rest : c.rest = w ++ d.rest
  offset : d.offset = c.offset + byteSize w
  before : d.before = w.getLast?.or c.before

namespace Cursor.Passes

theorem refl (c : Cursor) : c.Passes [] c := ⟨rfl, rfl, by simp⟩

theorem trans {c d e : Cursor} {v w : Text} (h : c.Passes v d) (h' : d.Passes w e) :
    c.Passes (v ++ w) e := by
  refine ⟨?_, ?_, ?_⟩
  · rw [h.rest, h'.rest, List.append_assoc]
  · rw [h'.offset, h.offset, byteSize_append, Nat.add_assoc]
  · rw [h'.before, h.before, List.getLast?_append, Option.or_assoc]

theorem past {c : Cursor} {x : Char} {xs : Text} (h : c.rest = x :: xs) :
    c.Passes [x] (c.past x xs) :=
  ⟨h, by simp [Cursor.past], by simp [Cursor.past]⟩

theorem of_mem_reach {holds : Char → Bool} {d : Cursor} {before : Option Char} {offset : Nat}
    {t : Text} (h : d ∈ Cursor.reach holds ⟨before, offset, t⟩) :
    ∃ w, Cursor.Passes ⟨before, offset, t⟩ w d ∧ ∀ x ∈ w, holds x = true := by
  induction t generalizing before offset with
  | nil =>
    rw [Cursor.reach_nil, List.mem_singleton] at h
    exact ⟨[], h ▸ .refl _, by simp⟩
  | cons x xs ih =>
    cases hx : holds x with
    | false =>
      rw [Cursor.reach_cons_of_not_holds hx, List.mem_singleton] at h
      exact ⟨[], h ▸ .refl _, by simp⟩
    | true =>
      rw [Cursor.reach_cons_of_holds hx, List.mem_append, List.mem_singleton] at h
      rcases h with h | rfl
      · obtain ⟨w, hw, hall⟩ := ih h
        have hone : Cursor.Passes ⟨before, offset, x :: xs⟩ [x] ⟨some x, offset + x.utf8Size, xs⟩ :=
          past rfl
        exact ⟨x :: w, hone.trans hw, List.forall_mem_cons.mpr ⟨hx, hall⟩⟩
      · exact ⟨[], .refl _, by simp⟩

end Cursor.Passes

/-- The captured bytes lie in the text that was kept for them. -/
def Capture.Fits (c : Capture) : Prop := c.stop - c.start ≤ byteSize c.tail

namespace Pattern

variable {α : Type}

theorem orElse_eq_some {x y : Option α} {a : α} (h : (x.orElse fun _ => y) = some a) :
    x = some a ∨ y = some a := by
  cases x with
  | none => exact Or.inr h
  | some b => exact Or.inl h

/-! ### What a pattern can take -/

/-- The pattern can lead from one position and its captures to another. -/
inductive Takes : Pattern → Cursor → Captures → Cursor → Captures → Prop
  | empty {c : Cursor} {g : Captures} : Takes .empty c g c g
  | one {cls : CharClass} {c : Cursor} {g : Captures} {x : Char} {xs : Text}
      (hrest : c.rest = x :: xs) (hx : cls.holds x = true) : Takes (.one cls) c g (c.past x xs) g
  | seq {p q : Pattern} {c d e : Cursor} {g h i : Captures} (hp : Takes p c g d h)
      (hq : Takes q d h e i) : Takes (.seq p q) c g e i
  | altLeft {p q : Pattern} {c d : Cursor} {g h : Captures} (hp : Takes p c g d h) :
      Takes (.alt p q) c g d h
  | altRight {p q : Pattern} {c d : Cursor} {g h : Captures} (hq : Takes q c g d h) :
      Takes (.alt p q) c g d h
  | many {cls : CharClass} {c d : Cursor} {g : Captures} {w : Text} (hw : c.Passes w d)
      (hall : ∀ x ∈ w, cls.holds x = true) : Takes (.many cls) c g d g
  | starStop {p : Pattern} {c : Cursor} {g : Captures} : Takes (.star p) c g c g
  | starStep {p : Pattern} {c d e : Cursor} {g h i : Captures} (hp : Takes p c g d h)
      (hrest : Takes (.star p) d h e i) : Takes (.star p) c g e i
  | group {n : Nat} {p : Pattern} {c d : Cursor} {g h : Captures} (hp : Takes p c g d h) :
      Takes (.group n p) c g d ((n, ⟨c.offset, d.offset, c.rest⟩) :: h)
  | wordEdge {c : Cursor} {g : Captures} : Takes .wordEdge c g c g
  | textStart {c : Cursor} {g : Captures} : Takes .textStart c g c g
  | textEnd {c : Cursor} {g : Captures} : Takes .textEnd c g c g

theorem exists_of_runStar {p : Pattern} {a : α}
    (hstep : ∀ (c : Cursor) (g : Captures) (k : Continue α), p.run c g k = some a →
      ∃ d h, p.Takes c g d h ∧ k d h = some a)
    {bound : Text} {c : Cursor} {g : Captures} {k : Continue α}
    (h : runStar (fun c' g' k' => p.run c' g' k') bound c g k = some a) :
    ∃ d h, (star p).Takes c g d h ∧ k d h = some a := by
  induction bound generalizing c g with
  | nil => exact ⟨c, g, .starStop, h⟩
  | cons _ bound ih =>
    rw [runStar] at h
    rcases orElse_eq_some h with h | h
    · obtain ⟨d, g', hp, hd⟩ := hstep _ _ _ h
      split at hd
      · obtain ⟨e, g'', hrest, he⟩ := ih hd
        exact ⟨e, g'', .starStep hp hrest, he⟩
      · cases hd
    · exact ⟨c, g, .starStop, h⟩

/-- When a pattern succeeds, it has handed on a position that it can take. -/
theorem exists_of_run {p : Pattern} {c : Cursor} {g : Captures} {k : Continue α} {a : α}
    (h : p.run c g k = some a) : ∃ d g', p.Takes c g d g' ∧ k d g' = some a := by
  induction p generalizing c g k with
  | empty => exact ⟨c, g, .empty, h⟩
  | one cls =>
    rw [run] at h
    split at h
    · cases h
    · rename_i x xs hrest
      split at h
      · rename_i hx
        exact ⟨_, g, .one hrest hx, h⟩
      · cases h
  | seq p q ihp ihq =>
    obtain ⟨d, g', hp, hd⟩ := ihp h
    obtain ⟨e, g'', hq, he⟩ := ihq hd
    exact ⟨e, g'', .seq hp hq, he⟩
  | alt p q ihp ihq =>
    rcases orElse_eq_some h with h | h
    · obtain ⟨d, g', hp, hd⟩ := ihp h
      exact ⟨d, g', .altLeft hp, hd⟩
    · obtain ⟨d, g', hq, hd⟩ := ihq h
      exact ⟨d, g', .altRight hq, hd⟩
  | many cls =>
    obtain ⟨d, hd, hk⟩ := List.exists_of_findSome?_eq_some h
    obtain ⟨w, hw, hall⟩ := Cursor.Passes.of_mem_reach hd
    exact ⟨d, g, .many hw hall, hk⟩
  | star p ih => exact exists_of_runStar (fun _ _ _ hs => ih hs) h
  | group n p ih =>
    obtain ⟨d, g', hp, hd⟩ := ih h
    exact ⟨d, _, .group hp, hd⟩
  | wordEdge =>
    rw [run] at h
    split at h
    · exact ⟨c, g, .wordEdge, h⟩
    · cases h
  | textStart =>
    rw [run] at h
    split at h
    · exact ⟨c, g, .textStart, h⟩
    · cases h
  | textEnd =>
    rw [run] at h
    split at h
    · exact ⟨c, g, .textEnd, h⟩
    · cases h

/-! ### A character that no match passes -/

/-- No part of the pattern takes the character `x` or asks for the ends of the text. -/
def stopsAt (x : Char) : Pattern → Bool
  | .empty | .wordEdge => true
  | .one cls | .many cls => !cls.holds x
  | .seq p q | .alt p q => p.stopsAt x && q.stopsAt x
  | .group _ p => p.stopsAt x
  | .star _ | .textStart | .textEnd => false

/-- What a pattern takes is passed character by character, without a character it stops at. -/
theorem Takes.exists_passes {p : Pattern} {c d : Cursor} {g h : Captures} (hp : p.Takes c g d h) :
    ∃ w, c.Passes w d ∧ ∀ x, p.stopsAt x = true → x ∉ w := by
  induction hp with
  | empty | starStop | wordEdge | textStart | textEnd => exact ⟨[], .refl _, by simp⟩
  | @one cls c g x xs hrest hx =>
    refine ⟨[x], .past hrest, ?_⟩
    intro y hy hmem
    rw [List.mem_singleton] at hmem
    subst hmem
    simp [stopsAt, hx] at hy
  | seq _ _ ihp ihq =>
    obtain ⟨v, hv, hstopv⟩ := ihp
    obtain ⟨w, hw, hstopw⟩ := ihq
    refine ⟨v ++ w, hv.trans hw, ?_⟩
    intro x hx hmem
    rw [stopsAt, Bool.and_eq_true] at hx
    rcases List.mem_append.mp hmem with hmem | hmem
    · exact hstopv x hx.1 hmem
    · exact hstopw x hx.2 hmem
  | altLeft _ ih =>
    obtain ⟨w, hw, hstop⟩ := ih
    exact ⟨w, hw, fun x hx => hstop x (Bool.and_eq_true_iff.mp hx).1⟩
  | altRight _ ih =>
    obtain ⟨w, hw, hstop⟩ := ih
    exact ⟨w, hw, fun x hx => hstop x (Bool.and_eq_true_iff.mp hx).2⟩
  | @many cls c d g w hw hall =>
    refine ⟨w, hw, ?_⟩
    intro x hx hmem
    simp [stopsAt, hall x hmem] at hx
  | starStep _ _ ihp ihrest =>
    obtain ⟨v, hv, -⟩ := ihp
    obtain ⟨w, hw, -⟩ := ihrest
    exact ⟨v ++ w, hv.trans hw, fun x hx => by cases hx⟩
  | group _ ih => exact ih

theorem Takes.fits {p : Pattern} {c d : Cursor} {g h : Captures} (hp : p.Takes c g d h)
    (hg : ∀ entry ∈ g, entry.2.Fits) : ∀ entry ∈ h, entry.2.Fits := by
  induction hp with
  | empty | starStop | wordEdge | textStart | textEnd | one | many => exact hg
  | seq _ _ ihp ihq => exact ihq (ihp hg)
  | altLeft _ ih | altRight _ ih => exact ih hg
  | starStep _ _ ihp ihrest => exact ihrest (ihp hg)
  | @group n p c d g h hp ih =>
    intro entry hentry
    rcases List.mem_cons.mp hentry with rfl | hentry
    · obtain ⟨w, hw, -⟩ := hp.exists_passes
      have hsize : byteSize c.rest = byteSize w + byteSize d.rest := by
        rw [hw.rest, byteSize_append]
      have hoffset := hw.offset
      show d.offset - c.offset ≤ byteSize c.rest
      omega
    · exact ih hg entry hentry

/-- A match starts where it was tried, and the pattern leads from there to its end and its captures. -/
theorem takes_of_matchAt {p : Pattern} {c : Cursor} {m : Match} (h : p.matchAt c = some m) :
    m.start = c ∧ p.Takes c [] m.stop m.captures := by
  obtain ⟨d, g, hp, hm⟩ := exists_of_run h
  rw [Option.some.injEq] at hm
  subst hm
  exact ⟨rfl, hp⟩

/-- A match starts where it was tried and ends at a position of the same text. -/
theorem matchAt_eq_some {p : Pattern} {c : Cursor} {m : Match} (h : p.matchAt c = some m) :
    m.start = c ∧ ∃ w, c.Passes w m.stop ∧ ∀ x, p.stopsAt x = true → x ∉ w :=
  (takes_of_matchAt h).imp_right Takes.exists_passes

/-- A pattern that stops at a character fails in front of it when every way to go on fails that leaves
the character and what is behind it. -/
theorem run_eq_none_of_stopsAt {p : Pattern} {x : Char} (hp : p.stopsAt x = true) {w t : Text}
    {before : Option Char} {offset : Nat} {g : Captures} {k : Continue α}
    (hk : ∀ d h u, u <:+ w → d.rest = u ++ x :: t → k d h = none) :
    p.run ⟨before, offset, w ++ x :: t⟩ g k = none := by
  by_contra hsome
  obtain ⟨a, ha⟩ := Option.ne_none_iff_exists'.mp hsome
  obtain ⟨d, h, htakes, hd⟩ := exists_of_run ha
  obtain ⟨v, hv, hstop⟩ := htakes.exists_passes
  have hrest : w ++ x :: t = v ++ d.rest := hv.rest
  have hsuffix : ∃ u, u <:+ w ∧ d.rest = u ++ x :: t := by
    rcases List.append_eq_append_iff.mp hrest with ⟨u, rfl, hu⟩ | ⟨u, rfl, hu⟩
    · cases u with
      | nil => exact ⟨[], List.nil_suffix, hu.symm⟩
      | cons y ys =>
        -- the pattern would have passed the character
        rw [List.cons_append, List.cons.injEq] at hu
        exact absurd (by simp [hu.1]) (hstop x hp)
    · exact ⟨u, List.suffix_append v u, hu⟩
  obtain ⟨u, hu, hdrest⟩ := hsuffix
  rw [hk d h u hu hdrest] at hd
  cases hd

/-- What a match captured lies inside the text. -/
theorem fits_of_matchAt {p : Pattern} {c : Cursor} {m : Match} (h : p.matchAt c = some m) :
    ∀ entry ∈ m.captures, entry.2.Fits :=
  (takes_of_matchAt h).2.fits (by simp)

/-- A match that a search finds was found at some position. -/
theorem exists_matchAt_of_searchFrom {p : Pattern} {before : Option Char} {offset : Nat} {t : Text}
    {m : Match} (h : p.searchFrom before offset t = some m) : ∃ c, p.matchAt c = some m := by
  induction t generalizing before offset with
  | nil => exact ⟨_, h⟩
  | cons x xs ih =>
    rcases orElse_eq_some h with h | h
    · exact ⟨_, h⟩
    · exact ih h

theorem exists_matchAt_of_mem_findAllFrom {p : Pattern} {resume : Nat} {before : Option Char}
    {offset : Nat} {t : Text} {m : Match} (h : m ∈ p.findAllFrom resume before offset t) :
    ∃ c, p.matchAt c = some m := by
  induction t generalizing resume before offset with
  | nil =>
    rw [findAllFrom] at h
    split at h
    · cases h
    · exact ⟨_, Option.mem_toList.mp h⟩
  | cons x xs ih =>
    rw [findAllFrom] at h
    split at h
    · exact ih h
    · split at h
      · rename_i m' hm'
        rcases List.mem_cons.mp h with rfl | h
        · exact ⟨_, hm'⟩
        · exact ih h
      · exact ih h

end Pattern

theorem Cursor.atWordEdge_eq_any (c : Cursor) :
    c.atWordEdge = (c.before.any isWord != c.rest.head?.any isWord) := by
  obtain ⟨before, offset, rest⟩ := c
  cases before <;> cases rest <;> rfl

/-- The cursor `d` stands where `c` does, in a text that goes on with `x` and `after`. -/
structure Cursor.Extends (x : Char) (after : Text) (c d : Cursor) : Prop where
  before : c.before.any isWord = d.before.any isWord
  rest : d.rest = c.rest ++ x :: after

namespace Cursor.Extends

variable {x : Char} {after : Text} {c d : Cursor}

theorem past (h : Cursor.Extends x after c d) {y : Char} {ys zs : Text}
    (hd : d.rest = y :: zs) (hc : c.rest = y :: ys) :
    Cursor.Extends x after (c.past y ys) (d.past y zs) := by
  refine ⟨rfl, ?_⟩
  have hrest := h.rest
  rw [hc, hd, List.cons_append, List.cons.injEq] at hrest
  exact hrest.2

theorem atWordEdge_eq (h : Cursor.Extends x after c d) (hx : isWord x = false) :
    c.atWordEdge = d.atWordEdge := by
  rw [atWordEdge_eq_any, atWordEdge_eq_any, h.before, h.rest]
  cases c.rest with
  | nil => simp [hx]
  | cons y ys => rfl

theorem exists_mem_reach {holds : Char → Bool} {t : Text} {before before' : Option Char}
    (offset : Nat) {offset' : Nat} {e : Cursor} (hx : holds x = false)
    (hbefore : before.any isWord = before'.any isWord)
    (he : e ∈ Cursor.reach holds ⟨before', offset', t ++ x :: after⟩) :
    ∃ d ∈ Cursor.reach holds ⟨before, offset, t⟩, Cursor.Extends x after d e := by
  induction t generalizing before before' offset offset' with
  | nil =>
    rw [List.nil_append, Cursor.reach_cons_of_not_holds hx, List.mem_singleton] at he
    refine ⟨⟨before, offset, []⟩, by simp [Cursor.reach_nil], ?_⟩
    subst he
    exact ⟨hbefore, rfl⟩
  | cons y ys ih =>
    have hhere : Cursor.Extends x after ⟨before, offset, y :: ys⟩
        ⟨before', offset', y :: ys ++ x :: after⟩ := ⟨hbefore, rfl⟩
    rw [List.cons_append] at he
    cases hy : holds y with
    | false =>
      rw [Cursor.reach_cons_of_not_holds hy, List.mem_singleton] at he
      refine ⟨⟨before, offset, y :: ys⟩, ?_, he ▸ hhere⟩
      rw [Cursor.reach_cons_of_not_holds hy]
      exact List.mem_singleton_self _
    | true =>
      rw [Cursor.reach_cons_of_holds hy, List.mem_append, List.mem_singleton] at he
      rw [Cursor.reach_cons_of_holds hy]
      rcases he with he | he
      · obtain ⟨d, hd, hext⟩ := ih (offset + y.utf8Size) rfl he
        exact ⟨d, List.mem_append_left _ hd, hext⟩
      · exact ⟨_, List.mem_append_right _ (List.mem_singleton_self _), he ▸ hhere⟩

end Cursor.Extends

namespace Pattern

variable {α : Type}

/-- A pattern that fails at the end of a text also fails when a character follows that it stops
at. -/
theorem run_eq_none_of_extends {x : Char} {after : Text} (hx : isWord x = false) {p : Pattern}
    (hp : p.stopsAt x = true) {c d : Cursor} (hcd : Cursor.Extends x after c d) {g g' : Captures}
    {k k' : Continue α}
    (hk : ∀ c d g g', Cursor.Extends x after c d → k c g = none → k' d g' = none)
    (h : p.run c g k = none) : p.run d g' k' = none := by
  induction p generalizing c d g g' k k' with
  | empty => exact hk c d g g' hcd h
  | one cls =>
    have hrest := hcd.rest
    simp only [stopsAt, Bool.not_eq_true'] at hp
    simp only [run] at h ⊢
    cases hc : c.rest with
    | nil =>
      rw [hc, List.nil_append] at hrest
      simp [hrest, hp]
    | cons y ys =>
      rw [hc, List.cons_append] at hrest
      rw [hc] at h
      simp only [hrest]
      split
      · rename_i hy
        simp only [hy, if_true] at h
        exact hk _ _ _ _ (hcd.past hrest hc) h
      · rfl
  | seq p q ihp ihq =>
    simp only [stopsAt, Bool.and_eq_true] at hp
    exact ihp hp.1 hcd (fun _ _ _ _ hext hq => ihq hp.2 hext hk hq) h
  | alt p q ihp ihq =>
    simp only [stopsAt, Bool.and_eq_true] at hp
    rw [run_alt, orElse_eq_none_iff] at h ⊢
    exact ⟨ihp hp.1 hcd hk h.1, ihq hp.2 hcd hk h.2⟩
  | many cls =>
    simp only [stopsAt, Bool.not_eq_true'] at hp
    simp only [run, List.findSome?_eq_none_iff] at h ⊢
    -- the run stops at `x`, so it reaches no place that it does not reach in the shorter text
    intro e he
    obtain ⟨before, offset, t⟩ := c
    obtain ⟨before', offset', t'⟩ := d
    obtain ⟨hbefore, rfl⟩ := hcd
    obtain ⟨d, hd, hext⟩ := Cursor.Extends.exists_mem_reach offset hp hbefore he
    exact hk d e g g' hext (h d hd)
  | group n p ih => exact ih hp hcd (fun _ _ _ _ hext hq => hk _ _ _ _ hext hq) h
  | wordEdge =>
    simp only [run] at h ⊢
    rw [← hcd.atWordEdge_eq hx]
    split
    · rename_i hedge
      rw [if_pos hedge] at h
      exact hk c d g g' hcd h
    · rfl
  | star | textStart | textEnd => cases hp

/-! ### Patterns in front of what they describe -/

theorem run_append (p q : Pattern) (c : Cursor) (g : Captures) (k : Continue α) :
    (p ++ q).run c g k = p.run c g fun c' g' => q.run c' g' k := rfl

theorem run_opt_of_eq_none {p : Pattern} {c : Cursor} {g : Captures} {k : Continue α}
    (h : p.run c g k = none) : (opt p).run c g k = k c g := by
  rw [opt, run_alt, h]
  rfl

theorem run_opt_of_eq_some {p : Pattern} {c : Cursor} {g : Captures} {k : Continue α} {a : α}
    (h : p.run c g k = some a) : (opt p).run c g k = some a := by
  rw [opt, run_alt, h]
  rfl

theorem run_one_of_holds {cls : CharClass} {x : Char} (h : cls.holds x = true)
    (before : Option Char) (offset : Nat) (xs : Text) (g : Captures) (k : Continue α) :
    run (.one cls) ⟨before, offset, x :: xs⟩ g k = k ⟨some x, offset + x.utf8Size, xs⟩ g := by
  rw [run_one_cons, if_pos h]

theorem run_one_of_not_holds {cls : CharClass} {x : Char} (h : cls.holds x = false)
    (before : Option Char) (offset : Nat) (xs : Text) (g : Captures) (k : Continue α) :
    run (.one cls) ⟨before, offset, x :: xs⟩ g k = none := by
  rw [run_one_cons, h]
  rfl

theorem holds_char_iff {s x : Char} : (CharClass.oneOf [s]).holds x = true ↔ x = s := by
  simp [CharClass.holds]

theorem run_char (x : Char) (before : Option Char) (offset : Nat) (xs : Text) (g : Captures)
    (k : Continue α) :
    (char x).run ⟨before, offset, x :: xs⟩ g k = k ⟨some x, offset + x.utf8Size, xs⟩ g :=
  run_one_of_holds (holds_char_iff.mpr rfl) before offset xs g k

theorem run_letters_append (cs : List Char) (rest : Text) (before : Option Char) (offset : Nat)
    (g : Captures) (k : Continue α) :
    (letters cs).run ⟨before, offset, cs ++ rest⟩ g k =
      k ⟨cs.getLast?.or before, offset + byteSize cs, rest⟩ g := by
  induction cs generalizing before offset with
  | nil => rfl
  | cons c cs ih =>
    have hc : (CharClass.letter c).holds c = true := by simp [CharClass.holds]
    rw [letters, run_append, List.cons_append, run_one_of_holds hc, ih, getLast?_cons_or,
      byteSize_cons, Nat.add_assoc]

theorem run_letters_of_not_holds {c x : Char} (h : (CharClass.letter c).holds x = false)
    (cs : List Char) (before : Option Char) (offset : Nat) (xs : Text) (g : Captures)
    (k : Continue α) :
    (letters (c :: cs)).run ⟨before, offset, x :: xs⟩ g k = none := by
  rw [letters, run_append, run_one_of_not_holds h]

/-- One blank is taken in front of something else. -/
theorem run_gap_of_head {b : Char} (hb : isBlank b = true) {t : Text}
    (ht : ∀ x ∈ t.head?, isBlank x = false) (before : Option Char) (offset : Nat) (g : Captures)
    (k : Continue α) :
    gap.run ⟨before, offset, b :: t⟩ g k = k ⟨some b, offset + b.utf8Size, t⟩ g := by
  have hone : CharClass.blank.holds b = true := hb
  rw [gap, atLeastOne, run_seq, run_one_of_holds hone]
  cases t with
  | nil => exact run_many_nil ..
  | cons x xs =>
    have hmany : CharClass.blank.holds x = false := ht x rfl
    exact run_many_of_not_holds hmany ..

/-- A run is taken whole when what follows accepts the text behind it. -/
theorem run_many_append (cls : CharClass) {w t : Text} (hw : ∀ c ∈ w, cls.holds c = true)
    (ht : ∀ x ∈ t.head?, cls.holds x = false) {before : Option Char} {offset : Nat} {g : Captures}
    {k : Continue α} {a : α} (h : k ⟨w.getLast?.or before, offset + byteSize w, t⟩ g = some a) :
    run (.many cls) ⟨before, offset, w ++ t⟩ g k = some a := by
  induction w generalizing before offset with
  | nil =>
    cases t with
    | nil => exact (run_many_nil ..).trans h
    | cons x xs => exact (run_many_of_not_holds (ht x rfl) ..).trans h
  | cons c cs ih =>
    rw [List.forall_mem_cons] at hw
    have hrest : run (.many cls) ⟨some c, offset + c.utf8Size, cs ++ t⟩ g k = some a := by
      refine ih hw.2 ?_
      rw [← h, byteSize_cons, Nat.add_assoc, getLast?_cons_or]
    rw [List.cons_append, run_many_of_holds hw.1, hrest]
    rfl

theorem run_atLeastOne_append (cls : CharClass) {w t : Text} (hne : w ≠ [])
    (hw : ∀ c ∈ w, cls.holds c = true) (ht : ∀ x ∈ t.head?, cls.holds x = false)
    {before : Option Char} {offset : Nat} {g : Captures} {k : Continue α} {a : α}
    (h : k ⟨w.getLast?.or before, offset + byteSize w, t⟩ g = some a) :
    run (atLeastOne cls) ⟨before, offset, w ++ t⟩ g k = some a := by
  obtain ⟨x, xs, rfl⟩ := List.exists_cons_of_ne_nil hne
  rw [List.forall_mem_cons] at hw
  rw [atLeastOne, run_seq, List.cons_append, run_one_of_holds hw.1]
  refine run_many_append cls hw.2 ht ?_
  rw [← h, byteSize_cons, Nat.add_assoc, getLast?_cons_or]

/-- A run gives nothing when the rest of the pattern refuses every character of it and the one
behind it. -/
theorem run_many_eq_none {cls : CharClass} {w : Text} {x : Char} (hx : cls.holds x = false)
    {xs : Text} {g : Captures} {k : Continue α}
    (h : ∀ before offset y ys, (y ∈ w ∨ y = x) → k ⟨before, offset, y :: ys⟩ g = none)
    (before : Option Char) (offset : Nat) :
    run (.many cls) ⟨before, offset, w ++ x :: xs⟩ g k = none := by
  rw [run, List.findSome?_eq_none_iff]
  intro d hd
  obtain ⟨u, hu, hall⟩ := Cursor.Passes.of_mem_reach hd
  obtain ⟨b, o, t⟩ := d
  have hrest : w ++ x :: xs = u ++ t := hu.rest
  rcases List.append_eq_append_iff.mp hrest with ⟨v, rfl, ht⟩ | ⟨v, rfl, rfl⟩
  · cases v with
    | nil =>
      rw [List.nil_append] at ht
      rw [← ht]
      exact h b o x xs (Or.inr rfl)
    | cons y ys =>
      -- the run would go over the character that ends it
      rw [List.cons_append, List.cons.injEq] at ht
      rw [ht.1, hall y (by simp)] at hx
      cases hx
  · cases v with
    | nil => exact h b o x xs (Or.inr rfl)
    | cons y ys => exact h b o y _ (Or.inl (by simp))

theorem run_opt_oneOf_of_not_mem {cs : List Char} {x : Char} (h : x ∉ cs) (before : Option Char)
    (offset : Nat) (xs : Text) (g : Captures) (k : Continue α) :
    (opt (oneOf cs)).run ⟨before, offset, x :: xs⟩ g k = k ⟨before, offset, x :: xs⟩ g := by
  refine run_opt_of_eq_none (run_one_of_not_holds ?_ before offset xs g k)
  simpa [CharClass.holds] using h

theorem run_opt_oneOf_of_mem {cs : List Char} {x : Char} (hx : x ∈ cs) {before : Option Char}
    {offset : Nat} {xs : Text} {g : Captures} {k : Continue α} {a : α}
    (h : k ⟨some x, offset + x.utf8Size, xs⟩ g = some a) :
    (opt (oneOf cs)).run ⟨before, offset, x :: xs⟩ g k = some a := by
  refine run_opt_of_eq_some ?_
  rw [oneOf, run_one_of_holds (by simpa [CharClass.holds] using hx), h]

end Pattern

theorem Capture.text_of_append (start : Nat) (w t : Text) :
    Capture.text ⟨start, start + byteSize w, w ++ t⟩ = w := by
  rw [Capture.text, Nat.add_sub_cancel_left, takeBytes_append]

theorem Match.groupText_of_append {m : Match} {n start : Nat} {w t : Text}
    (h : m.group? n = some ⟨start, start + byteSize w, w ++ t⟩) : m.groupText n = w := by
  rw [groupText, h, Option.map_some, Option.getD_some, Capture.text_of_append]

end SchemaReview
