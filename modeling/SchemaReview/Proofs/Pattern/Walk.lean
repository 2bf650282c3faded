import SchemaReview.Proofs.Pattern.Occurrence
import SchemaReview.Proofs.Pattern.Placement

/-!
# Proofs.Pattern.Walk — patterns that can be read in one way, and text that a search passes over

A run takes as much as it can and gives characters back when the rest of the pattern fails.  Where the
rest of the pattern never begins with a character of the run (`Refuses`), giving back is of no use, and
the pattern takes a text piece by piece: `run_many_text`, `run_atLeastOne_text`.

A search tries every position.  For a pattern that begins with a run, it passes over a run in front of
which there is no match (`findAllFrom_run`) and over all characters that are not of the class
(`findAllFrom_others`), and it goes on behind a match (`findAllFrom_of_matchAt`).  For a pattern that
begins at the edge of a word, it passes over a word in the same way (`findAllFrom_word`).  Where a search finds
nothing, there is no match at any position (`matchAt_eq_none_of_search`).
-/

namespace SchemaReview

open Text

/-! ## Runs that cannot be cut short -/

namespace Pattern

variable {α : Type} {k : Continue α}

/-- Nothing is accepted in front of a character of the class. -/
def Refuses (cls : CharClass) (k : Continue α) : Prop :=
  ∀ d g, (∃ x ∈ d.rest.head?, cls.holds x = true) → k d g = none

theorem refuses_one (cls cls' : CharClass) (h : ∀ x, cls.holds x = true → cls'.holds x = false) :
    Refuses cls fun d g => run (.one cls') d g k := by
  rintro ⟨before, offset, t⟩ g ⟨x, hx, hcls⟩
  cases t with
  | nil => cases hx
  | cons y ys =>
    obtain rfl : y = x := Option.some.inj hx
    exact run_one_of_not_holds (h y hcls) before offset ys g k

theorem refuses_atLeastOne (cls cls' : CharClass) (h : ∀ x, cls.holds x = true → cls'.holds x = false) :
    Refuses cls fun d g => run (atLeastOne cls') d g k := by
  intro d g hd
  show run (atLeastOne cls') d g k = none
  rw [atLeastOne, run_seq]
  exact refuses_one cls cls' h d g hd

theorem refuses_many (cls cls' : CharClass) (h : ∀ x, cls.holds x = true → cls'.holds x = false)
    (hk : Refuses cls k) :
    Refuses cls fun d g => run (.many cls') d g k := by
  rintro ⟨before, offset, t⟩ g ⟨x, hx, hcls⟩
  cases t with
  | nil => cases hx
  | cons y ys =>
    obtain rfl : y = x := Option.some.inj hx
    show run (.many cls') ⟨before, offset, y :: ys⟩ g k = none
    rw [run_many_of_not_holds (h y hcls)]
    exact hk _ g ⟨y, rfl, hcls⟩

/-- A run is taken whole when what follows accepts the text behind it or refuses every shorter run. -/
theorem run_many_text (cls : CharClass) {w t : Text} (hw : ∀ x ∈ w, cls.holds x = true)
    (ht : ∀ x ∈ t.head?, cls.holds x = false) (hk : (∀ d g, (k d g).isSome = true) ∨ Refuses cls k)
    (before : Option Char) (offset : Nat) (g : Captures) :
    run (.many cls) ⟨before, offset, w ++ t⟩ g k =
      k ⟨w.getLast?.or before, offset + byteSize w, t⟩ g := by
  have hfar : Cursor.farthest cls.holds ⟨before, offset, w ++ t⟩ =
      ⟨w.getLast?.or before, offset + byteSize w, t⟩ := by
    simp only [Cursor.farthest, takeWhile_append_of_head hw ht, dropWhile_append_of_head hw ht]
  rw [run_many_eq (hk.imp (fun h => h _ g) fun h d hd => h d g hd), hfar]

theorem run_atLeastOne_text (cls : CharClass) {w t : Text} (hne : w ≠ [])
    (hw : ∀ x ∈ w, cls.holds x = true) (ht : ∀ x ∈ t.head?, cls.holds x = false)
    (hk : (∀ d g, (k d g).isSome = true) ∨ Refuses cls k)
    (before : Option Char) (offset : Nat) (g : Captures) :
    run (atLeastOne cls) ⟨before, offset, w ++ t⟩ g k =
      k ⟨w.getLast?.or before, offset + byteSize w, t⟩ g := by
  obtain ⟨x, xs, rfl⟩ := List.exists_cons_of_ne_nil hne
  rw [List.forall_mem_cons] at hw
  rw [atLeastOne, run_seq, List.cons_append, run_one_of_holds hw.1, run_many_text cls hw.2 ht hk,
    getLast?_cons_or, byteSize_cons, Nat.add_assoc]

/-! ## Walking over the text -/

variable {p : Pattern} {cls : CharClass} {t : Text}

theorem matchAt_eq_none_of_search {u v : Text} (h : p.search (u ++ v) = none) :
    p.matchAt ⟨u.getLast?, byteSize u, v⟩ = none := by
  have hcons : ∀ {before : Option Char} {offset : Nat} {x : Char} {xs : Text},
      p.searchFrom before offset (x :: xs) = none →
      p.matchAt ⟨before, offset, x :: xs⟩ = none ∧ p.searchFrom (some x) (offset + x.utf8Size) xs = none := by
    intro before offset x xs h
    rwa [searchFrom, Option.orElse_eq_or, Option.or_eq_none_iff] at h
  have hfrom : ∀ (before : Option Char) (offset : Nat), p.searchFrom before offset (u ++ v) = none →
      p.matchAt ⟨u.getLast?.or before, offset + byteSize u, v⟩ = none := by
    clear h
    induction u with
    | nil =>
      intro before offset h
      cases v with
      | nil => exact h
      | cons x xs => exact (hcons h).1
    | cons x xs ih =>
      intro before offset h
      rw [getLast?_cons_or, byteSize_cons, ← Nat.add_assoc]
      exact ih _ _ (hcons h).2
  simpa using hfrom none 0 h

/-- What a match has taken is passed over. -/
theorem findAllFrom_past (w : Text) (before : Option Char) (offset : Nat) :
    p.findAllFrom (offset + byteSize w) before offset (w ++ t) =
      p.findAllFrom 0 (w.getLast?.or before) (offset + byteSize w) t := by
  induction w generalizing before offset with
  | nil => exact findAllFrom_of_le le_rfl t
  | cons x xs ih =>
    have hpos := x.utf8Size_pos
    rw [List.cons_append, findAllFrom, if_pos (by rw [byteSize_cons]; omega), getLast?_cons_or,
      byteSize_cons, ← Nat.add_assoc]
    exact ih (some x) (offset + x.utf8Size)

theorem findAllFrom_of_matchAt {w : Text} (hne : w ≠ []) {before : Option Char} {offset : Nat}
    {m : Match} (hm : p.matchAt ⟨before, offset, w ++ t⟩ = some m) (hstop : m.stop.offset = offset + byteSize w) :
    p.findAllFrom 0 before offset (w ++ t) =
      m :: p.findAllFrom 0 (w.getLast?.or before) (offset + byteSize w) t := by
  obtain ⟨x, xs, rfl⟩ := List.exists_cons_of_ne_nil hne
  rw [List.cons_append] at hm
  rw [byteSize_cons, ← Nat.add_assoc] at hstop ⊢
  rw [List.cons_append, findAllFrom, if_neg (Nat.not_lt_zero _), hm, getLast?_cons_or]
  show m :: p.findAllFrom m.stop.offset (some x) (offset + x.utf8Size) (xs ++ t) = _
  rw [hstop, findAllFrom_past]

/-- A run that does not begin a match is passed over. -/
theorem findAllFrom_run (hp : BeginsWithRun cls p) {w : Text} (hw : ∀ x ∈ w, cls.holds x = true)
    {before : Option Char} {offset : Nat} (h : p.matchAt ⟨before, offset, w ++ t⟩ = none) :
    p.findAllFrom 0 before offset (w ++ t) =
      p.findAllFrom 0 (w.getLast?.or before) (offset + byteSize w) t := by
  refine findAllFrom_of_refused (R := fun before offset w =>
    (∀ x ∈ w, cls.holds x = true) ∧ p.matchAt ⟨before, offset, w ++ t⟩ = none) (fun h => h.2) ?_ ⟨hw, h⟩
  rintro before offset x xs ⟨hw, h⟩
  rw [List.forall_mem_cons] at hw
  exact ⟨hw.2, matchAt_past_eq_none hp hw.1 h⟩

/-- Characters that cannot begin a run are passed over. -/
theorem findAllFrom_others (hp : BeginsWithRun cls p) {w : Text}
    (hw : ∀ x ∈ w, cls.holds x = false) (before : Option Char) (offset : Nat) :
    p.findAllFrom 0 before offset (w ++ t) =
      p.findAllFrom 0 (w.getLast?.or before) (offset + byteSize w) t := by
  refine findAllFrom_of_refused (R := fun _ _ w => ∀ x ∈ w, cls.holds x = false) ?_
    (fun hw => (List.forall_mem_cons.mp hw).2) hw
  intro before offset x xs hw
  obtain ⟨n, q, hq⟩ := hp
  rw [matchAt, hq, run_append, run, atLeastOne, run_seq]
  exact run_one_of_not_holds (hw x List.mem_cons_self) _ _ _ _ _

/-- Where a match begins at the edge of a word, a word that does not begin one is passed over. -/
theorem findAllFrom_word (hp : ∀ c : Cursor, c.atWordEdge = false → p.matchAt c = none) {w : Text}
    (hw : ∀ x ∈ w, isWord x = true) {before : Option Char} {offset : Nat}
    (h : p.matchAt ⟨before, offset, w ++ t⟩ = none) :
    p.findAllFrom 0 before offset (w ++ t) =
      p.findAllFrom 0 (w.getLast?.or before) (offset + byteSize w) t := by
  refine findAllFrom_of_refused (R := fun before offset w => (∀ x ∈ w, isWord x = true) ∧
    (w ≠ [] → p.matchAt ⟨before, offset, w ++ t⟩ = none)) (fun h => h.2 (List.cons_ne_nil _ _)) ?_
    ⟨hw, fun _ => h⟩
  rintro before offset x xs ⟨hw, -⟩
  rw [List.forall_mem_cons] at hw
  refine ⟨hw.2, fun hne => hp _ ?_⟩
  -- between two characters of the word no word begins
  obtain ⟨y, ys, rfl⟩ := List.exists_cons_of_ne_nil hne
  simp [Cursor.atWordEdge, hw.1, hw.2 y]

end Pattern

end SchemaReview
