import SchemaReview.Pattern.Match

/-!
# Pattern.Runs — patterns that begin with a run of characters

A pattern that begins with a run of a class cannot match inside a run when it does not match at the
start of the run.  So only the starts of runs need to be tried.  Main statement: the search that
tries no others finds the same matches (`findRuns_eq_findAll`).
-/

namespace SchemaReview.Pattern

variable {α : Type}

/-- The matches of a pattern that begins with a run of the class, as `findAllFrom` gives them, where
`failed` says that there is no match one character before.  Then a start behind a character of the
class is not tried. -/
def findRunsFrom (cls : CharClass) (p : Pattern) (resume : Nat) (failed : Bool)
    (before : Option Char) (offset : Nat) : Text → List Match
  | [] => []
  | x :: xs =>
    if offset < resume then findRunsFrom cls p resume false (some x) (offset + x.utf8Size) xs
    else if failed && before.any cls.holds then
      findRunsFrom cls p resume true (some x) (offset + x.utf8Size) xs
    else match p.matchAt ⟨before, offset, x :: xs⟩ with
      | some m => m :: findRunsFrom cls p m.stop.offset false (some x) (offset + x.utf8Size) xs
      | none => findRunsFrom cls p resume true (some x) (offset + x.utf8Size) xs

/-- All matches of a pattern that begins with a run of the class. -/
def findRuns (cls : CharClass) (p : Pattern) (t : Text) : List Match :=
  findRunsFrom cls p 0 false none 0 t

/-! ### Whether a pattern matches does not depend on captures -/

theorem orElse_eq_none_iff {x y : Option α} :
    (x.orElse fun _ => y) = none ↔ x = none ∧ y = none := by
  cases x with
  | none => exact ⟨fun h => ⟨rfl, h⟩, And.right⟩
  | some a => exact ⟨nofun, nofun⟩

theorem runStar_eq_none_iff {step step' : Cursor → Captures → Continue α → Option α}
    (hstep : ∀ c g g' k k', (∀ d a a', k d a = none ↔ k' d a' = none) →
      (step c g k = none ↔ step' c g' k' = none))
    (bound : Text) (c : Cursor) (g g' : Captures) {k k' : Continue α}
    (hk : ∀ d a a', k d a = none ↔ k' d a' = none) :
    runStar step bound c g k = none ↔ runStar step' bound c g' k' = none := by
  induction bound generalizing c g g' with
  | nil => exact hk c g g'
  | cons _ bound ih =>
    simp only [runStar, orElse_eq_none_iff]
    refine and_congr (hstep c g g' _ _ fun d a a' => ?_) (hk c g g')
    split
    · exact ih d a a'
    · simp

theorem run_eq_none_iff (p : Pattern) (c : Cursor) (g g' : Captures) {k k' : Continue α}
    (hk : ∀ d a a', k d a = none ↔ k' d a' = none) :
    p.run c g k = none ↔ p.run c g' k' = none := by
  induction p generalizing c g g' k k' with
  | empty => exact hk c g g'
  | one cls =>
    simp only [run]
    split
    · simp
    · split
      · exact hk _ g g'
      · simp
  | seq p q ihp ihq => exact ihp c g g' fun d a a' => ihq d a a' hk
  | alt p q ihp ihq =>
    simp only [run, orElse_eq_none_iff]
    exact and_congr (ihp c g g' hk) (ihq c g g' hk)
  | many cls =>
    simp only [run, List.findSome?_eq_none_iff]
    exact forall₂_congr fun d _ => hk d g g'
  | star p ih => exact runStar_eq_none_iff (fun c g g' _ _ h => ih c g g' h) c.rest c g g' hk
  | group n p ih => exact ih c g g' fun d _ _ => hk d _ _
  | wordEdge =>
    simp only [run]
    split
    · exact hk c g g'
    · rfl
  | textStart =>
    simp only [run]
    split
    · exact hk c g g'
    · rfl
  | textEnd =>
    simp only [run]
    split
    · exact hk c g g'
    · rfl

/-! ### Only the start of a run counts -/

/-- The pattern is a remembered run of the class followed by some other pattern. -/
def BeginsWithRun (cls : CharClass) (p : Pattern) : Prop :=
  ∃ n q, ∀ (c : Cursor) (g : Captures) (k : Continue Match),
    p.run c g k = (group n (atLeastOne cls) ++ q).run c g k

theorem matchAt_nil_of_beginsWithRun {cls : CharClass} {p : Pattern} (hp : BeginsWithRun cls p)
    (before : Option Char) (offset : Nat) : p.matchAt ⟨before, offset, []⟩ = none := by
  obtain ⟨n, q, h⟩ := hp
  rw [matchAt, h]
  rfl

/-- A pattern that fails in front of a character of the run also fails behind it. -/
theorem matchAt_past_eq_none {cls : CharClass} {p : Pattern} (hp : BeginsWithRun cls p)
    {before : Option Char} {offset : Nat} {x : Char} {xs : Text} (hx : cls.holds x = true)
    (h : p.matchAt ⟨before, offset, x :: xs⟩ = none) :
    p.matchAt ⟨some x, offset + x.utf8Size, xs⟩ = none := by
  cases xs with
  | nil => exact matchAt_nil_of_beginsWithRun hp _ _
  | cons y ys =>
    obtain ⟨n, q, hq⟩ := hp
    rw [matchAt, hq] at h ⊢
    simp only [HAppend.hAppend, Append.append, atLeastOne, run, Cursor.past, hx, if_true,
      List.findSome?_eq_none_iff] at h ⊢
    split
    · rename_i hy
      simp only [List.findSome?_eq_none_iff]
      intro d hd
      have hreach : d ∈ Cursor.reach cls.holds ⟨some x, offset + x.utf8Size, y :: ys⟩ := by
        rw [Cursor.reach_cons_of_holds hy]
        exact List.mem_append_left _ hd
      exact (run_eq_none_iff q d _ _ (by simp)).1 (h d hreach)
    · rfl

theorem findRunsFrom_eq_findAllFrom {cls : CharClass} {p : Pattern} (hp : BeginsWithRun cls p)
    (resume : Nat) (failed : Bool) (before : Option Char) (offset : Nat) (t : Text)
    (h : failed = true → before.any cls.holds = true → p.matchAt ⟨before, offset, t⟩ = none) :
    findRunsFrom cls p resume failed before offset t = p.findAllFrom resume before offset t := by
  induction t generalizing resume failed before offset with
  | nil => simp [findRunsFrom, findAllFrom, matchAt_nil_of_beginsWithRun hp]
  | cons x xs ih =>
    have hfailed : p.matchAt ⟨before, offset, x :: xs⟩ = none →
        findRunsFrom cls p resume true (some x) (offset + x.utf8Size) xs =
          p.findAllFrom resume (some x) (offset + x.utf8Size) xs :=
      fun hnone => ih _ _ _ _ fun _ hx => matchAt_past_eq_none hp hx hnone
    rw [findRunsFrom, findAllFrom]
    split
    · exact ih _ _ _ _ (by simp)
    · split
      · rename_i hskip
        rw [Bool.and_eq_true] at hskip
        rw [h hskip.1 hskip.2]
        exact hfailed (h hskip.1 hskip.2)
      · cases hm : p.matchAt ⟨before, offset, x :: xs⟩ with
        | some m => exact congrArg (m :: ·) (ih _ _ _ _ (by simp))
        | none => exact hfailed hm

/-- Trying only the starts of runs finds the same matches. -/
theorem findRuns_eq_findAll {cls : CharClass} {p : Pattern} (hp : BeginsWithRun cls p) (t : Text) :
    findRuns cls p t = p.findAll t :=
  findRunsFrom_eq_findAllFrom hp 0 false none 0 t (by simp)

end SchemaReview.Pattern
