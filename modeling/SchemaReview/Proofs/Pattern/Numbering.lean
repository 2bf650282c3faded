import SchemaReview.Proofs.Pattern.Placement

/-!
# Proofs.Pattern.Numbering — patterns with other numbers

The number of a group only says under what the text is remembered.  So a pattern with other numbers matches in the
same way, whatever was remembered before it (`run_renumber`), and the same text is found under the new numbers
(`Captures.lookup_renumber`).
-/

namespace SchemaReview

/-- The captures under other numbers, in front of those that were remembered before. -/
def Captures.renumber (f : Nat → Nat) (g earlier : Captures) : Captures :=
  g.map (fun entry => (f entry.1, entry.2)) ++ earlier

theorem Captures.lookup_renumber {f : Nat → Nat} (hf : Function.Injective f) (g earlier : Captures) (n : Nat) :
    (g.renumber f earlier).lookup (f n) = (g.lookup n).or (earlier.lookup (f n)) := by
  induction g with
  | nil => rfl
  | cons entry g ih =>
    obtain ⟨i, c⟩ := entry
    have hrest : renumber f ((i, c) :: g) earlier = (f i, c) :: renumber f g earlier := rfl
    rw [hrest, List.lookup_cons, List.lookup_cons]
    by_cases hi : n = i
    · simp [hi]
    · have hne : f n ≠ f i := fun heq => hi (hf heq)
      simp [beq_eq_false_iff_ne.mpr hi, beq_eq_false_iff_ne.mpr hne, ih]

namespace Pattern

/-- The pattern with other numbers for its groups. -/
def renumber (f : Nat → Nat) : Pattern → Pattern
  | .group n p => .group (f n) (p.renumber f)
  | .seq p q => .seq (p.renumber f) (q.renumber f)
  | .alt p q => .alt (p.renumber f) (q.renumber f)
  | .star p => .star (p.renumber f)
  | p => p

variable {α β : Type} {f : Nat → Nat} {earlier : Captures} {F : α → β}

theorem runStar_renumber {p : Pattern}
    (hp : ∀ (c : Cursor) (g : Captures) {k : Continue α} {k' : Continue β},
      (∀ d h, k' d (Captures.renumber f h earlier) = (k d h).map F) →
      (p.renumber f).run c (g.renumber f earlier) k' = (p.run c g k).map F)
    (bound : Text) (c : Cursor) (g : Captures) {k : Continue α} {k' : Continue β}
    (hk : ∀ d h, k' d (Captures.renumber f h earlier) = (k d h).map F) :
    runStar (fun c g k => (p.renumber f).run c g k) bound c (g.renumber f earlier) k' =
      (runStar (fun c g k => p.run c g k) bound c g k).map F := by
  induction bound generalizing c g with
  | nil => exact hk c g
  | cons x bound ih =>
    rw [runStar, runStar, map_orElse, hk c g, hp c g fun d h => ?_]
    split
    · exact ih d h
    · rfl

theorem run_renumber (p : Pattern) (c : Cursor) (g : Captures) {k : Continue α} {k' : Continue β}
    (hk : ∀ d h, k' d (Captures.renumber f h earlier) = (k d h).map F) :
    (p.renumber f).run c (g.renumber f earlier) k' = (p.run c g k).map F := by
  induction p generalizing c g k k' with
  | empty => exact hk c g
  | one cls =>
    simp only [renumber, run]
    split
    · rfl
    · split
      · exact hk _ g
      · rfl
  | seq p q ihp ihq => exact ihp c g fun d h => ihq d h hk
  | alt p q ihp ihq =>
    simp only [renumber, run, map_orElse]
    rw [ihp c g hk, ihq c g hk]
  | many cls =>
    simp only [renumber, run, List.map_findSome?]
    exact congrArg (List.findSome? · _) (funext fun d => hk d g)
  | star p ih => exact runStar_renumber (fun c g _ _ h => ih c g h) c.rest c g hk
  | group n p ih => exact ih c g fun d h => hk d ((n, ⟨c.offset, d.offset, c.rest⟩) :: h)
  | wordEdge =>
    simp only [renumber, run]
    split
    · exact hk c g
    · rfl
  | textStart =>
    simp only [renumber, run]
    split
    · exact hk c g
    · rfl
  | textEnd =>
    simp only [renumber, run]
    split
    · exact hk c g
    · rfl

end Pattern

end SchemaReview
