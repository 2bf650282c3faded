import Mathlib.Data.List.Forall2
import Mathlib.Data.List.Infix
import Mathlib.Data.List.Nodup
import SchemaReview.Sequence

/-!
# Proofs.Sequence — searching lists, first occurrences, sorted sets and sublists

`firstBy key xs` has every key of `xs` exactly once.  For `distinct` this says that the members stay
and repetitions go.  A sorted set is determined by its members.
-/

namespace SchemaReview

variable {α κ : Type} [DecidableEq κ] (key : α → κ)

/-- The keys that are kept are those not met before. -/
theorem mem_map_firstByFrom (seen : List κ) (xs : List α) (k : κ) :
    k ∈ (firstByFrom key seen xs).map key ↔ k ∈ xs.map key ∧ k ∉ seen := by
  induction xs generalizing seen with
  | nil => simp [firstByFrom]
  | cons x xs ih =>
    simp only [firstByFrom]
    by_cases hx : key x ∈ seen
    · rw [if_pos hx, ih, List.map_cons, List.mem_cons]
      constructor
      · exact fun h => ⟨Or.inr h.1, h.2⟩
      · rintro ⟨rfl | h, hk⟩
        · exact absurd hx hk
        · exact ⟨h, hk⟩
    · rw [if_neg hx, List.map_cons, List.mem_cons, ih, List.map_cons, List.mem_cons]
      by_cases hk : k = key x
      · simp [hk, hx]
      · simp [hk]

theorem nodup_map_firstByFrom (seen : List κ) (xs : List α) :
    ((firstByFrom key seen xs).map key).Nodup := by
  induction xs generalizing seen with
  | nil => simp [firstByFrom]
  | cons x xs ih =>
    simp only [firstByFrom]
    by_cases hx : key x ∈ seen
    · rw [if_pos hx]
      exact ih seen
    · rw [if_neg hx, List.map_cons, List.nodup_cons]
      refine ⟨fun hmem => ?_, ih _⟩
      exact ((mem_map_firstByFrom key _ _ _).mp hmem).2 List.mem_cons_self

@[simp] theorem mem_distinct {xs : List κ} {k : κ} : k ∈ distinct xs ↔ k ∈ xs := by
  simpa [distinct, firstBy] using mem_map_firstByFrom id [] xs k

theorem nodup_distinct (xs : List κ) : (distinct xs).Nodup := by
  simpa [distinct, firstBy] using nodup_map_firstByFrom id [] xs

@[simp] theorem mem_sortedSet {xs : List String} {x : String} : x ∈ sortedSet xs ↔ x ∈ xs := by
  rw [sortedSet, List.mem_mergeSort, mem_distinct]

/-- A list without repetition is longer than one when it has different members. -/
theorem two_le_length_iff {xs : List α} (h : xs.Nodup) :
    2 ≤ xs.length ↔ ∃ x ∈ xs, ∃ y ∈ xs, x ≠ y := by
  match xs with
  | [] => simp
  | [x] => simp
  | x :: y :: xs =>
    have hne : x ≠ y := by
      rintro rfl
      exact (List.nodup_cons.mp h).1 List.mem_cons_self
    refine ⟨fun _ => ⟨x, by simp, y, by simp, hne⟩, fun _ => by simp⟩

theorem nodup_sortedSet (xs : List String) : (sortedSet xs).Nodup :=
  (List.mergeSort_perm _ _).nodup_iff.mpr (nodup_distinct xs)

/-- A sorted set is determined by its members. -/
theorem sortedSet_eq_iff {xs ys : List String} :
    sortedSet xs = sortedSet ys ↔ ∀ x, x ∈ xs ↔ x ∈ ys := by
  have hsorted : ∀ zs, (sortedSet zs).Pairwise fun a b => decide (a ≤ b) = true := by
    intro zs
    refine List.pairwise_mergeSort (fun a b c hab hbc => ?_) (fun a b => ?_) _
    · rw [decide_eq_true_eq] at hab hbc ⊢
      exact String.le_trans hab hbc
    · simpa using String.le_total a b
  constructor
  · intro h x
    rw [← mem_sortedSet, h, mem_sortedSet]
  · intro h
    have hperm : (sortedSet xs).Perm (sortedSet ys) :=
      (List.perm_ext_iff_of_nodup (nodup_sortedSet xs) (nodup_sortedSet ys)).mpr (by simpa using h)
    refine hperm.eq_of_pairwise (fun a b _ _ hab hba => ?_) (hsorted xs) (hsorted ys)
    rw [decide_eq_true_eq] at hab hba
    exact String.le_antisymm hab hba

theorem firstBy_map {β : Type} {key : α → κ} {key' : β → κ} {f : α → β}
    (hkey : ∀ x, key' (f x) = key x) (xs : List α) :
    firstBy key' (xs.map f) = (firstBy key xs).map f := by
  have hfrom : ∀ seen : List κ, firstByFrom key' seen (xs.map f) = (firstByFrom key seen xs).map f := by
    induction xs with
    | nil => exact fun _ => rfl
    | cons x xs ih =>
      intro seen
      simp only [List.map_cons, firstByFrom, hkey, ih]
      split <;> rfl
  exact hfrom []

/-- The members of a group are members of the list. -/
theorem mem_of_mem_groupBy {key : α → κ} {xs : List α} {entry : κ × List α} (h : entry ∈ groupBy key xs)
    {x : α} (hx : x ∈ entry.2) : x ∈ xs := by
  obtain ⟨k, -, rfl⟩ := List.mem_map.mp h
  obtain ⟨pair, hpair, rfl⟩ := List.mem_map.mp hx
  obtain ⟨y, hy, rfl⟩ := List.mem_map.mp (List.mem_filter.mp hpair).1
  exact hy

/-- No key is without members. -/
theorem ne_nil_of_mem_groupBy {key : α → κ} {xs : List α} {entry : κ × List α}
    (h : entry ∈ groupBy key xs) : entry.2 ≠ [] := by
  obtain ⟨k, hk, rfl⟩ := List.mem_map.mp h
  rw [mem_distinct, List.map_map, List.mem_map] at hk
  obtain ⟨x, hx, rfl⟩ := hk
  have hmem : (key x, x) ∈ (xs.map fun x => (key x, x)).filter fun p => p.1 = key x :=
    List.mem_filter.mpr ⟨List.mem_map_of_mem hx, decide_eq_true rfl⟩
  exact List.ne_nil_of_mem (List.mem_map_of_mem hmem)

theorem groupBy_map {β : Type} {key : α → κ} {key' : β → κ} {f : α → β}
    (hkey : ∀ x, key' (f x) = key x) (xs : List α) :
    groupBy key' (xs.map f) = (groupBy key xs).map fun entry => (entry.1, entry.2.map f) := by
  simp [groupBy, List.filter_map, Function.comp_def, hkey]

/-! ### First occurrences in parts of a list -/

/-- Keys that are left out of the list need not be remembered. -/
theorem firstByFrom_filter (seen seen' : List κ) (xs : List α) :
    firstByFrom key seen (xs.filter fun x => key x ∉ seen') = firstByFrom key (seen ++ seen') xs := by
  induction xs generalizing seen with
  | nil => rfl
  | cons x xs ih =>
    by_cases hx : key x ∈ seen'
    · have hboth : key x ∈ seen ++ seen' := List.mem_append_right _ hx
      rw [List.filter_cons_of_neg (by simpa using hx), ih, firstByFrom, if_pos hboth]
    · rw [List.filter_cons_of_pos (by simpa using hx), firstByFrom, firstByFrom]
      by_cases hseen : key x ∈ seen
      · rw [if_pos hseen, if_pos (List.mem_append_left _ hseen), ih]
      · rw [if_neg hseen, if_neg (by simp [hseen, hx]), ih, List.cons_append]

theorem firstBy_cons (x : α) (xs : List α) :
    firstBy key (x :: xs) = x :: firstBy key (xs.filter fun y => key y ≠ key x) := by
  have hrest := firstByFrom_filter key [] [key x] xs
  simp only [List.mem_singleton, List.nil_append] at hrest
  rw [firstBy, firstByFrom, if_neg List.not_mem_nil, firstBy, hrest]

theorem firstByFrom_append (seen : List κ) (xs ys : List α) :
    firstByFrom key seen (xs ++ ys) = firstByFrom key seen xs ++
      firstBy key (ys.filter fun y => key y ∉ seen ∧ key y ∉ xs.map key) := by
  induction xs generalizing seen with
  | nil =>
    have hseen := firstByFrom_filter key [] seen ys
    rw [List.nil_append] at hseen
    simpa [firstBy, firstByFrom] using hseen.symm
  | cons x xs ih =>
    rw [List.cons_append, firstByFrom, firstByFrom]
    by_cases hx : key x ∈ seen
    · rw [if_pos hx, if_pos hx, ih]
      congr 2
      refine List.filter_congr fun y _ => ?_
      by_cases hy : key y = key x <;> simp [hy, hx]
    · rw [if_neg hx, if_neg hx, ih, List.cons_append]
      congr 3
      refine List.filter_congr fun y _ => ?_
      by_cases hy : key y = key x <;> simp [hy]

theorem firstBy_append (xs ys : List α) : firstBy key (xs ++ ys) =
    firstBy key xs ++ firstBy key (ys.filter fun y => key y ∉ xs.map key) := by
  simpa [firstBy] using firstByFrom_append key [] xs ys

theorem firstBy_append_of_disjoint {xs ys : List α} (h : ∀ x ∈ xs, ∀ y ∈ ys, key x ≠ key y) :
    firstBy key (xs ++ ys) = firstBy key xs ++ firstBy key ys := by
  have hkeep : (ys.filter fun y => key y ∉ xs.map key) = ys := by
    rw [List.filter_eq_self]
    intro y hy
    simp only [List.mem_map, not_exists, not_and, decide_eq_true_eq]
    exact fun x hx => h x hx y hy
  rw [firstBy_append, hkeep]

/-- Parts without common keys keep their own first occurrences. -/
theorem firstBy_flatMap {β : Type} {f : β → List α} {ps : List β}
    (h : ps.Pairwise fun p q => ∀ x ∈ f p, ∀ y ∈ f q, key x ≠ key y) :
    firstBy key (ps.flatMap f) = ps.flatMap fun p => firstBy key (f p) := by
  induction ps with
  | nil => rfl
  | cons p ps ih =>
    rw [List.pairwise_cons] at h
    have hrest : ∀ x ∈ f p, ∀ y ∈ ps.flatMap f, key x ≠ key y := by
      intro x hx y hy
      obtain ⟨q, hq, hyq⟩ := List.mem_flatMap.mp hy
      exact h.1 q hq x hx y hyq
    rw [List.flatMap_cons, firstBy_append_of_disjoint key hrest, ih h.2, List.flatMap_cons]

theorem mem_of_mem_firstBy {xs : List α} {x : α} (h : x ∈ firstBy key xs) : x ∈ xs := by
  have hsub : ∀ (seen : List κ) (ys : List α), firstByFrom key seen ys ⊆ ys := by
    intro seen ys
    induction ys generalizing seen with
    | nil => exact List.Subset.refl _
    | cons y ys ih =>
      rw [firstByFrom]
      split
      · exact List.subset_cons_of_subset y (ih seen)
      · exact List.cons_subset_cons y (ih _)
  exact hsub [] xs h

/-- Keys can be left out before or after the repetitions. -/
theorem firstBy_filter (p : κ → Bool) (xs : List α) :
    firstBy key (xs.filter fun x => p (key x)) = (firstBy key xs).filter fun x => p (key x) := by
  -- the two runs have met different keys, but the same ones among those that stay
  have hfrom : ∀ seen seen' : List κ, (∀ k, p k = true → (k ∈ seen ↔ k ∈ seen')) →
      firstByFrom key seen (xs.filter fun x => p (key x)) =
        (firstByFrom key seen' xs).filter fun x => p (key x) := by
    induction xs with
    | nil => exact fun _ _ _ => rfl
    | cons x xs ih =>
      intro seen seen' hseen
      by_cases hp : p (key x) = true
      · rw [List.filter_cons, if_pos hp, firstByFrom, firstByFrom]
        by_cases hx : key x ∈ seen
        · rw [if_pos hx, if_pos ((hseen _ hp).mp hx), ih seen seen' hseen]
        · rw [if_neg hx, if_neg (mt (hseen _ hp).mpr hx), List.filter_cons, if_pos hp]
          rw [ih (key x :: seen) (key x :: seen')]
          intro k hk
          rw [List.mem_cons, List.mem_cons, hseen k hk]
      · rw [List.filter_cons, if_neg hp, firstByFrom]
        by_cases hx : key x ∈ seen'
        · rw [if_pos hx, ih seen seen' hseen]
        · rw [if_neg hx, List.filter_cons, if_neg hp]
          refine ih seen (key x :: seen') ?_
          intro k hk
          have hne : k ≠ key x := by
            rintro rfl
            exact hp hk
          rw [hseen k hk, List.mem_cons, or_iff_right hne]
  exact hfrom [] [] fun _ _ => Iff.rfl

theorem distinct_filter (p : κ → Bool) (xs : List κ) : distinct (xs.filter p) = (distinct xs).filter p :=
  firstBy_filter id p xs

/-- The first member with a key is kept. -/
theorem find?_firstBy (xs : List α) (k : κ) :
    ((firstBy key xs).find? fun x => key x = k) = xs.find? fun x => key x = k := by
  have hfrom : ∀ seen : List κ, k ∉ seen →
      ((firstByFrom key seen xs).find? fun x => key x = k) = xs.find? fun x => key x = k := by
    induction xs with
    | nil => exact fun _ _ => rfl
    | cons x xs ih =>
      intro seen hk
      by_cases hx : key x = k
      · rw [firstByFrom, if_neg (hx ▸ hk), List.find?_cons_of_pos (by simpa using hx),
          List.find?_cons_of_pos (by simpa using hx)]
      · rw [List.find?_cons_of_neg (by simpa using hx), firstByFrom]
        by_cases hseen : key x ∈ seen
        · rw [if_pos hseen, ih seen hk]
        · rw [if_neg hseen, List.find?_cons_of_neg (by simpa using hx),
            ih (key x :: seen) (by simp [hk, Ne.symm hx])]
  exact hfrom [] List.not_mem_nil

/-- The first member with each key, by removing later members with the same key. -/
theorem firstBy_eq_eraseDupsBy (xs : List α) :
    firstBy key xs = xs.eraseDupsBy fun x y => key x == key y := by
  induction hlen : xs.length using Nat.strong_induction_on generalizing xs with
  | _ n ih =>
    cases xs with
    | nil => rfl
    | cons x xs =>
      have hshort : (xs.filter fun y => key y ≠ key x).length < n := by
        have := List.length_filter_le (fun y => decide (key y ≠ key x)) xs
        simp only [List.length_cons] at hlen
        omega
      rw [firstBy_cons, ih _ hshort _ rfl, List.eraseDupsBy_cons]
      simp [beq_eq_false_iff_ne]

theorem distinct_eq_eraseDups (xs : List κ) : distinct xs = xs.eraseDups := by
  rw [distinct, firstBy_eq_eraseDupsBy]
  rfl

/-! ### Searching and choosing -/

variable {β : Type}

theorem findSome?_congr {f g : α → Option β} {xs : List α} (h : ∀ x ∈ xs, f x = g x) :
    xs.findSome? f = xs.findSome? g := by
  induction xs with
  | nil => rfl
  | cons x xs ih =>
    rw [List.findSome?_cons, List.findSome?_cons, h x List.mem_cons_self,
      ih fun y hy => h y (List.mem_cons_of_mem x hy)]

/-- When every member is turned into something, nothing is left out. -/
theorem forall₂_filterMap {r : α → β → Prop} {f : α → Option β} {xs : List α}
    (h : ∀ x ∈ xs, ∃ y, f x = some y ∧ r x y) : List.Forall₂ r xs (xs.filterMap f) := by
  induction xs with
  | nil => exact .nil
  | cons x xs ih =>
    obtain ⟨y, hy, hr⟩ := h x List.mem_cons_self
    rw [List.filterMap_cons_some hy]
    exact .cons hr (ih fun z hz => h z (List.mem_cons_of_mem x hz))

/-- What a partial function gives, beside the arguments at which it gives something. -/
theorem forall₂_filterMap_filter (f : α → Option β) (ks : List α) :
    List.Forall₂ (fun b k => f k = some b) (ks.filterMap f) (ks.filter fun k => (f k).isSome) := by
  induction ks with
  | nil => exact .nil
  | cons k ks ih =>
    cases hk : f k with
    | none => simpa [hk] using ih
    | some b => simpa [hk] using ih

theorem exists_of_forall₂ {r : α → β → Prop} {xs : List α} {ys : List β} (h : List.Forall₂ r xs ys)
    {x : α} (hx : x ∈ xs) : ∃ y ∈ ys, r x y := by
  induction h with
  | nil => simp at hx
  | cons hr _ ih =>
    rcases List.mem_cons.mp hx with rfl | hx
    · exact ⟨_, List.mem_cons_self, hr⟩
    · obtain ⟨y, hy, hxy⟩ := ih hx
      exact ⟨y, List.mem_cons_of_mem _ hy, hxy⟩

/-- What is read from related members is related the same way. -/
theorem flatMap_of_forall₂ {γ δ : Type} {r : α → β → Prop} {xs : List α} {ys : List β}
    (h : List.Forall₂ r xs ys) {f : α → List γ} {f' : β → List δ} {g : γ → δ}
    (hf : ∀ x y, r x y → f' y = (f x).map g) : ys.flatMap f' = (xs.flatMap f).map g := by
  induction h with
  | nil => rfl
  | cons hr _ ih => rw [List.flatMap_cons, List.flatMap_cons, List.map_append, hf _ _ hr, ih]

/-! ### Results that agree on what is looked at -/

section

variable {γ δ ε : Type} {fold : α → β} {g : γ → ε} {g' : δ → ε}

theorem map_filterMap_congr {f : α → Option γ} {f' : β → Option δ} {xs : List α}
    (h : ∀ x ∈ xs, (f' (fold x)).map g' = (f x).map g) :
    ((xs.map fold).filterMap f').map g' = (xs.filterMap f).map g := by
  rw [List.filterMap_map, List.map_filterMap, List.map_filterMap]
  exact List.filterMap_congr h

theorem map_flatMap_congr {f : α → List γ} {f' : β → List δ} {xs : List α}
    (h : ∀ x ∈ xs, (f' (fold x)).map g' = (f x).map g) :
    ((xs.map fold).flatMap f').map g' = (xs.flatMap f).map g := by
  rw [List.flatMap_map, List.map_flatMap, List.map_flatMap]
  exact List.flatMap_congr h

theorem map_map_congr {f : α → γ} {f' : β → δ} {xs : List α}
    (h : ∀ x ∈ xs, g' (f' (fold x)) = g (f x)) : ((xs.map fold).map f').map g' = (xs.map f).map g := by
  rw [List.map_map, List.map_map, List.map_map]
  exact List.map_congr_left h

end

theorem prefix_of_prefix_append_cons {l u v : List α} {x : α} (hx : x ∉ l)
    (h : l <+: u ++ x :: v) : l <+: u := by
  rcases Nat.le_total l.length u.length with hle | hle
  · exact List.prefix_of_prefix_length_le h (List.prefix_append u _) hle
  · obtain ⟨w, rfl⟩ := List.prefix_of_prefix_length_le (List.prefix_append u _) h hle
    rw [List.prefix_append_right_inj] at h
    cases w with
    | nil => rw [List.append_nil]
    | cons y ys =>
      rw [List.cons_prefix_cons] at h
      exact absurd (by simp [h.1]) hx

/-- A list without `x` does not reach over `x`. -/
theorem infix_of_infix_append_cons {l u v : List α} {x : α} (hx : x ∉ l)
    (h : l <:+: u ++ x :: v) : l <:+: u ∨ l <:+: v := by
  induction u with
  | nil =>
    rw [List.nil_append, List.infix_cons_iff] at h
    rcases h with h | h
    · exact Or.inl (prefix_of_prefix_append_cons (u := []) hx h).isInfix
    · exact Or.inr h
  | cons y ys ih =>
    rw [List.cons_append, List.infix_cons_iff, ← List.cons_append] at h
    rcases h with h | h
    · exact Or.inl (prefix_of_prefix_append_cons hx h).isInfix
    · rcases ih h with h | h
      · exact Or.inl (List.infix_cons h)
      · exact Or.inr h

/-- A list does not occur in another one, or there is a first place where it does: no place in front of it
fits, not even one that reaches into it. -/
theorem first_infix_cases {w : List α} (hw : w ≠ []) (t : List α) : ¬ w <:+: t ∨
    ∃ front rest, t = front ++ (w ++ rest) ∧ ¬ w <:+: front ++ w.dropLast := by
  induction t with
  | nil => exact Or.inl (by simpa using hw)
  | cons x t ih =>
    by_cases hstart : w <+: x :: t
    · obtain ⟨rest, hrest⟩ := hstart
      refine Or.inr ⟨[], rest, hrest.symm, fun hin => ?_⟩
      have hlength := hin.length_le
      have hpos := List.length_pos_of_ne_nil hw
      rw [List.nil_append, List.length_dropLast] at hlength
      omega
    · rcases ih with hnone | ⟨front, rest, rfl, hfirst⟩
      · left
        rw [List.infix_cons_iff]
        exact not_or.mpr ⟨hstart, hnone⟩
      · refine Or.inr ⟨x :: front, rest, rfl, ?_⟩
        rw [List.cons_append, List.infix_cons_iff]
        have hshort : front ++ w.dropLast <+: front ++ (w ++ rest) := by
          rw [List.prefix_append_right_inj]
          exact (List.dropLast_prefix w).trans (List.prefix_append w rest)
        refine not_or.mpr ⟨fun hpre => hstart (hpre.trans ?_), hfirst⟩
        exact List.cons_prefix_cons.mpr ⟨rfl, hshort⟩

end SchemaReview
