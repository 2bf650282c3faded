import SchemaReview.Proofs.Pattern.Match

/-!
# Proofs.Pattern.Placement — matching the same text in another place

A placement sets a text into another one: it says what stands in front of the text and behind it, and
may change its characters as long as they keep their sizes.

* `Pattern.Transfers p f pre post`: matching `p` at a cursor and at its place in the other text gives
  the same answers, when `pre` holds of the text that is left to match; then `post` holds behind `p`.
* Each kind of pattern transfers under a condition of its own: `Transfers.one`, `Transfers.many` and
  so on.  Classes must not tell a character from what it becomes, and must stop at what is behind.
* `Transfers.matchAt` carries this over to matches, and `findAllFrom_text` to searches: first come the
  matches in the text, then those in what follows it.
-/

namespace SchemaReview

open Text

/-! ## Placements -/

/-- A place for a text inside another one. -/
structure Placement where
  /-- What becomes of a character. -/
  char : Char → Char
  utf8Size_char : ∀ x, (char x).utf8Size = x.utf8Size
  /-- The character in front. -/
  front : Option Char
  /-- The byte where the text begins. -/
  start : Nat
  /-- What follows. -/
  after : Text

namespace Placement

variable (f : Placement)

/-- The text with what follows it. -/
def text (t : Text) : Text := t.map f.char ++ f.after

def before (b : Option Char) : Option Char := (b.map f.char).or f.front

def cursor (c : Cursor) : Cursor := ⟨f.before c.before, f.start + c.offset, f.text c.rest⟩

def capture (c : Capture) : Capture := ⟨f.start + c.start, f.start + c.stop, f.text c.tail⟩

def captures (g : Captures) : Captures := g.map fun entry => (entry.1, f.capture entry.2)

def hit (m : Match) : Match := ⟨f.cursor m.start, f.cursor m.stop, f.captures m.captures⟩

@[simp] theorem text_cons (x : Char) (xs : Text) : f.text (x :: xs) = f.char x :: f.text xs := rfl

@[simp] theorem before_some (x : Char) : f.before (some x) = some (f.char x) := rfl

@[simp] theorem offset_hit_start (m : Match) : (f.hit m).start.offset = f.start + m.start.offset :=
  rfl

@[simp] theorem offset_hit_stop (m : Match) : (f.hit m).stop.offset = f.start + m.stop.offset := rfl

theorem start_add_utf8Size (offset : Nat) (x : Char) :
    f.start + (offset + x.utf8Size) = f.start + offset + (f.char x).utf8Size := by
  rw [f.utf8Size_char, Nat.add_assoc]

theorem cursor_past (c : Cursor) (x : Char) (xs : Text) :
    f.cursor (c.past x xs) = (f.cursor c).past (f.char x) (f.text xs) := by
  unfold cursor Cursor.past
  rw [start_add_utf8Size]
  rfl

theorem group?_hit (m : Match) (n : Nat) : (f.hit m).group? n = (m.group? n).map f.capture := by
  have hlookup : ∀ g : Captures, (f.captures g).lookup n = (g.lookup n).map f.capture := by
    intro g
    induction g with
    | nil => rfl
    | cons entry g ih =>
      obtain ⟨i, c⟩ := entry
      unfold captures at ih ⊢
      simp only [List.map_cons, List.lookup_cons, ih]
      cases n == i <;> rfl
  exact hlookup m.captures

end Placement

/-! ## Patterns that transfer -/

/-- The class does not tell a character from what it becomes, and stops at what is behind. -/
structure CharClass.Transfers (cls : CharClass) (f : Placement) (pre post : Text → Prop) : Prop where
  holds_char : ∀ x xs, pre (x :: xs) → cls.holds (f.char x) = cls.holds x
  leads : ∀ x xs, pre (x :: xs) → cls.holds x = true → post xs
  stops : pre [] → ∀ x ∈ f.after.head?, cls.holds x = false

namespace Pattern

/-- Matching the pattern where `pre` holds gives the same answers in both places, and leads to where
`post` holds. -/
def Transfers (p : Pattern) (f : Placement) (pre post : Text → Prop) : Prop :=
  ∀ ⦃α β : Type⦄ (F : α → β) (c : Cursor) (g : Captures) (k : Continue α) (k' : Continue β),
    pre c.rest → (∀ d h, post d.rest → k' (f.cursor d) (f.captures h) = (k d h).map F) →
    p.run (f.cursor c) (f.captures g) k' = (p.run c g k).map F

theorem map_orElse {α β : Type} (F : α → β) (x y : Option α) :
    (x.orElse fun _ => y).map F = (x.map F).orElse fun _ => y.map F := by
  cases x <;> rfl

namespace Transfers

variable {f : Placement} {pre mid post kept : Text → Prop} {p q : Pattern} {cls : CharClass}

theorem empty : Transfers .empty f kept kept := by
  intro α β F c g k k' hc hk
  exact hk c g hc

theorem seq (hp : p.Transfers f pre mid) (hq : q.Transfers f mid post) :
    (Pattern.seq p q).Transfers f pre post := by
  intro α β F c g k k' hc hk
  exact hp F c g _ _ hc fun d h hd => hq F d h k k' hd hk

theorem alt (hp : p.Transfers f pre post) (hq : q.Transfers f pre post) :
    (Pattern.alt p q).Transfers f pre post := by
  intro α β F c g k k' hc hk
  rw [run_alt, run_alt, map_orElse, hp F c g k k' hc hk, hq F c g k k' hc hk]

theorem group (n : Nat) (hp : p.Transfers f pre post) : (Pattern.group n p).Transfers f pre post := by
  intro α β F c g k k' hc hk
  exact hp F c g _ _ hc fun d h hd => hk d ((n, ⟨c.offset, d.offset, c.rest⟩) :: h) hd

theorem one (hcls : cls.Transfers f pre post) : (Pattern.one cls).Transfers f pre post := by
  intro α β F c g k k' hc hk
  obtain ⟨before, offset, rest⟩ := c
  cases rest with
  | nil =>
    rw [run_one_nil]
    cases hafter : f.after with
    | nil => simp [run, Placement.cursor, Placement.text, hafter]
    | cons x xs =>
      have hx : cls.holds x = false := hcls.stops hc x (by simp [hafter])
      simp [run, Placement.cursor, Placement.text, hafter, hx]
  | cons x xs =>
    have hx := hcls.holds_char x xs hc
    have hpast := f.cursor_past ⟨before, offset, x :: xs⟩ x xs
    rw [run_one_cons]
    cases hholds : cls.holds x with
    | false =>
      rw [hholds] at hx
      simp [run, Placement.cursor, hx]
    | true =>
      rw [hholds] at hx
      rw [if_pos rfl, ← hk _ g (hcls.leads x xs hc hholds)]
      simp only [run, Placement.cursor, Placement.text_cons, hx, if_true]
      exact congrArg (k' · (f.captures g)) hpast.symm

theorem many (hcls : cls.Transfers f kept kept) : (Pattern.many cls).Transfers f kept kept := by
  intro α β F c g k k' hc hk
  obtain ⟨before, offset, rest⟩ := c
  -- along the run, in both places
  induction rest generalizing before offset with
  | nil =>
    have hend : run (.many cls) (f.cursor ⟨before, offset, []⟩) (f.captures g) k' =
        k' (f.cursor ⟨before, offset, []⟩) (f.captures g) := by
      unfold Placement.cursor Placement.text
      cases hafter : f.after with
      | nil => exact run_many_nil cls _ _ _ k'
      | cons x xs =>
        have hx : cls.holds x = false := hcls.stops hc x (by simp [hafter])
        exact run_many_of_not_holds hx _ _ _ _ k'
    rw [hend, hk _ g hc, run_many_nil]
  | cons x xs ih =>
    have hx := hcls.holds_char x xs hc
    have hhere := hk ⟨before, offset, x :: xs⟩ g hc
    have hcursor : f.cursor ⟨before, offset, x :: xs⟩ =
        ⟨f.before before, f.start + offset, f.char x :: f.text xs⟩ := rfl
    rw [hcursor] at hhere ⊢
    cases hholds : cls.holds x with
    | false =>
      rw [hholds] at hx
      rw [run_many_of_not_holds hx, run_many_of_not_holds hholds, hhere]
    | true =>
      rw [hholds] at hx
      have hrest := ih (some x) (offset + x.utf8Size) (hcls.leads x xs hc hholds)
      unfold Placement.cursor at hrest
      rw [Placement.start_add_utf8Size, Placement.before_some] at hrest
      rw [run_many_of_holds hx, run_many_of_holds hholds, hrest, hhere, Option.map_or]

/-- A repetition counts the characters that are left, so nothing may follow. -/
theorem star (hafter : f.after = []) (hp : p.Transfers f kept kept) :
    (Pattern.star p).Transfers f kept kept := by
  intro α β F c g k k' hc hk
  have hbound : ∀ (bound bound' : Text), bound'.length = bound.length → ∀ c g, kept c.rest →
      runStar (fun c' g' k' => p.run c' g' k') bound' (f.cursor c) (f.captures g) k' =
        (runStar (fun c' g' k' => p.run c' g' k') bound c g k).map F := by
    intro bound
    induction bound with
    | nil =>
      intro bound' hlen c g hc
      rw [List.length_nil, List.length_eq_zero_iff] at hlen
      subst hlen
      exact hk c g hc
    | cons x bound ih =>
      intro bound' hlen c g hc
      obtain ⟨x', bound', rfl⟩ := List.exists_cons_of_length_eq_add_one hlen
      have hrest : bound'.length = bound.length := by simpa using hlen
      rw [runStar, runStar, map_orElse, hk c g hc]
      rw [hp F c g _ _ hc fun d h hd => ?_]
      have hoffset : (f.cursor c).offset < (f.cursor d).offset ↔ c.offset < d.offset := by
        simp only [Placement.cursor]
        omega
      by_cases hlt : c.offset < d.offset
      · rw [if_pos hlt, if_pos (hoffset.mpr hlt), ih bound' hrest d h hd]
      · rw [if_neg hlt, if_neg (mt hoffset.mp hlt)]
        rfl
  refine hbound c.rest (f.cursor c).rest ?_ c g hc
  simp [Placement.cursor, Placement.text, hafter]

/-- Words must end where they ended before. -/
theorem wordEdge (hchar : ∀ x, isWord (f.char x) = isWord x) (hfront : f.front.any isWord = false)
    (hafter : kept [] → f.after.head?.any isWord = false) : Transfers .wordEdge f kept kept := by
  intro α β F c g k k' hc hk
  have hedge : (f.cursor c).atWordEdge = c.atWordEdge := by
    obtain ⟨before, offset, rest⟩ := c
    rw [Cursor.atWordEdge_eq_any, Cursor.atWordEdge_eq_any]
    congr 1
    · cases before with
      | none => exact hfront
      | some x => exact hchar x
    · cases rest with
      | nil => exact hafter hc
      | cons x xs => exact hchar x
  rw [run, run, hedge]
  split
  · exact hk c g hc
  · rfl

theorem textStart (hfront : f.front = none) : Transfers .textStart f kept kept := by
  intro α β F c g k k' hc hk
  have hnone : (f.cursor c).before.isNone = c.before.isNone := by
    simp [Placement.cursor, Placement.before, hfront]
  rw [run, run, hnone]
  split
  · exact hk c g hc
  · rfl

theorem textEnd (hafter : f.after = []) : Transfers .textEnd f kept kept := by
  intro α β F c g k k' hc hk
  have hempty : (f.cursor c).rest.isEmpty = c.rest.isEmpty := by
    simp [Placement.cursor, Placement.text, hafter]
  rw [run, run, hempty]
  split
  · exact hk c g hc
  · rfl

theorem matchAt (hp : p.Transfers f pre post) {c : Cursor} (hc : pre c.rest) :
    p.matchAt (f.cursor c) = (p.matchAt c).map f.hit :=
  hp f.hit c [] _ _ hc fun _ _ _ => rfl

end Transfers

/-! ## Searches -/

/-- Where nothing follows, the leftmost match is the same one. -/
theorem Transfers.searchFrom {p : Pattern} {f : Placement} {post : Text → Prop}
    (hp : p.Transfers f (fun _ => True) post) (hafter : f.after = []) (before : Option Char)
    (offset : Nat) (t : Text) :
    p.searchFrom (f.before before) (f.start + offset) (f.text t) =
      (p.searchFrom before offset t).map f.hit := by
  induction t generalizing before offset with
  | nil =>
    have hhere := hp.matchAt (c := ⟨before, offset, []⟩) trivial
    unfold Placement.cursor Placement.text at hhere
    rw [hafter] at hhere
    rw [Placement.text, hafter]
    exact hhere
  | cons x xs ih =>
    have hhere := hp.matchAt (c := ⟨before, offset, x :: xs⟩) trivial
    have hrest := ih (some x) (offset + x.utf8Size)
    unfold Placement.cursor at hhere
    rw [Placement.start_add_utf8Size, Placement.before_some] at hrest
    rw [Placement.text_cons] at hhere ⊢
    rw [Pattern.searchFrom, Pattern.searchFrom, map_orElse, hhere, hrest]

/-- Where nothing follows, all matches are the same ones. -/
theorem Transfers.findAllFrom {p : Pattern} {f : Placement} {post : Text → Prop}
    (hp : p.Transfers f (fun _ => True) post) (hafter : f.after = []) (resume : Nat)
    (before : Option Char) (offset : Nat) (t : Text) :
    p.findAllFrom (f.start + resume) (f.before before) (f.start + offset) (f.text t) =
      (p.findAllFrom resume before offset t).map f.hit := by
  have hskip : ∀ resume offset, f.start + offset < f.start + resume ↔ offset < resume := by
    intro resume offset
    omega
  induction t generalizing resume before offset with
  | nil =>
    have hhere := hp.matchAt (c := ⟨before, offset, []⟩) trivial
    unfold Placement.cursor Placement.text at hhere
    rw [hafter] at hhere
    simp only [Placement.text, hafter, List.map_nil, List.append_nil] at hhere ⊢
    simp only [Pattern.findAllFrom, hskip, hhere]
    split
    · rfl
    · exact Option.toList_map
  | cons x xs ih =>
    have hhere := hp.matchAt (c := ⟨before, offset, x :: xs⟩) trivial
    have hrest := fun resume => ih resume (some x) (offset + x.utf8Size)
    unfold Placement.cursor at hhere
    simp only [Placement.start_add_utf8Size, Placement.before_some] at hrest
    rw [Placement.text_cons] at hhere ⊢
    simp only [Pattern.findAllFrom, hskip, hhere]
    split
    · exact hrest resume
    · cases p.matchAt ⟨before, offset, x :: xs⟩ with
      | none => exact hrest resume
      | some m => exact congrArg (f.hit m :: ·) (hrest m.stop.offset)

/-- Where the search has come to the byte to resume at, that byte does not matter any more. -/
theorem findAllFrom_of_le {p : Pattern} {resume : Nat} {before : Option Char} {offset : Nat}
    (h : resume ≤ offset) (t : Text) :
    p.findAllFrom resume before offset t = p.findAllFrom 0 before offset t := by
  induction t generalizing before offset with
  | nil => rw [findAllFrom, findAllFrom, if_neg (Nat.not_lt.mpr h), if_neg (Nat.not_lt_zero _)]
  | cons x xs ih =>
    rw [findAllFrom, findAllFrom, if_neg (Nat.not_lt.mpr h), if_neg (Nat.not_lt_zero _)]
    split
    · rfl
    · exact ih (by omega)

theorem findAllFrom_cons_of_eq_none {p : Pattern} {before : Option Char} {offset : Nat} {x : Char} {xs : Text}
    (h : p.matchAt ⟨before, offset, x :: xs⟩ = none) :
    p.findAllFrom 0 before offset (x :: xs) = p.findAllFrom 0 (some x) (offset + x.utf8Size) xs := by
  rw [findAllFrom, if_neg (Nat.not_lt_zero _), h]

/-- A text is passed over when a property holds in front of it that refuses a match and stays from one
character to the next. -/
theorem findAllFrom_of_refused {p : Pattern} {t : Text} {R : Option Char → Nat → Text → Prop}
    (hnone : ∀ {before offset x xs}, R before offset (x :: xs) →
      p.matchAt ⟨before, offset, x :: (xs ++ t)⟩ = none)
    (hnext : ∀ {before offset x xs}, R before offset (x :: xs) → R (some x) (offset + x.utf8Size) xs)
    {w : Text} {before : Option Char} {offset : Nat} (h : R before offset w) :
    p.findAllFrom 0 before offset (w ++ t) =
      p.findAllFrom 0 (w.getLast?.or before) (offset + byteSize w) t := by
  induction w generalizing before offset with
  | nil => rfl
  | cons x xs ih =>
    rw [List.cons_append, findAllFrom_cons_of_eq_none (hnone h), getLast?_cons_or, byteSize_cons,
      ← Nat.add_assoc]
    exact ih (hnext h)

/-- The matches in a placed text are those in the text, followed by those in what is behind it, when
no match tried in the text sees the difference and none is left at its end. -/
theorem findAllFrom_text {p : Pattern} {f : Placement} {t : Text}
    (hmatch : ∀ before offset x xs, x :: xs <:+ t →
      p.matchAt (f.cursor ⟨before, offset, x :: xs⟩) =
        (p.matchAt ⟨before, offset, x :: xs⟩).map f.hit)
    (hend : ∀ before offset, p.matchAt ⟨before, offset, []⟩ = none) (resume : Nat)
    (before : Option Char) (offset : Nat) (hresume : resume ≤ offset + byteSize t) :
    p.findAllFrom (f.start + resume) (f.before before) (f.start + offset) (f.text t) =
      (p.findAllFrom resume before offset t).map f.hit ++
        p.findAllFrom 0 (f.before (t.getLast?.or before)) (f.start + (offset + byteSize t)) f.after := by
  induction t generalizing resume before offset with
  | nil =>
    have hnone : p.findAllFrom resume before offset [] = [] := by
      rw [findAllFrom, hend]
      simp
    have hle : f.start + resume ≤ f.start + offset := Nat.add_le_add_left hresume _
    rw [hnone]
    simpa [Placement.text] using findAllFrom_of_le hle f.after
  | cons x xs ih =>
    have hsuffix : ∀ before offset y ys, y :: ys <:+ xs →
        p.matchAt (f.cursor ⟨before, offset, y :: ys⟩) =
          (p.matchAt ⟨before, offset, y :: ys⟩).map f.hit :=
      fun before offset y ys h => hmatch before offset y ys (h.trans (List.suffix_cons x xs))
    -- behind `x` it does not matter whether a match was found at it or before it
    have hrest : ∀ {resume : Nat}, resume ≤ offset + byteSize (x :: xs) →
        p.findAllFrom (f.start + resume) (some (f.char x)) (f.start + offset + (f.char x).utf8Size)
            (f.text xs) =
          (p.findAllFrom resume (some x) (offset + x.utf8Size) xs).map f.hit ++
            p.findAllFrom 0 (f.before ((x :: xs).getLast?.or before))
              (f.start + (offset + byteSize (x :: xs))) f.after := by
      intro resume hle
      have hsize : offset + byteSize (x :: xs) = offset + x.utf8Size + byteSize xs := by
        rw [byteSize_cons, Nat.add_assoc]
      rw [hsize] at hle ⊢
      rw [← f.start_add_utf8Size, getLast?_cons_or, ← f.before_some x]
      exact ih hsuffix _ _ _ hle
    have hhere := hmatch before offset x xs (List.suffix_refl _)
    have hskip : f.start + offset < f.start + resume ↔ offset < resume := by omega
    unfold Placement.cursor at hhere
    rw [Placement.text_cons] at hhere ⊢
    rw [findAllFrom, findAllFrom, hhere]
    by_cases hlt : offset < resume
    · rw [if_pos hlt, if_pos (hskip.mpr hlt)]
      exact hrest hresume
    · rw [if_neg hlt, if_neg (mt hskip.mp hlt)]
      cases hm : p.matchAt ⟨before, offset, x :: xs⟩ with
      | none => exact hrest hresume
      | some m =>
        obtain ⟨-, w, hw, -⟩ := matchAt_eq_some hm
        have hstop : m.stop.offset ≤ offset + byteSize (x :: xs) := by
          have hsplit : x :: xs = w ++ m.stop.rest := hw.rest
          have hoffset : m.stop.offset = offset + byteSize w := hw.offset
          rw [hsplit, byteSize_append, hoffset]
          omega
        exact congrArg (f.hit m :: ·) (hrest hstop)

end Pattern

end SchemaReview
