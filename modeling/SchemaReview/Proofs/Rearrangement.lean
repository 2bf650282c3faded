import Mathlib.Data.List.Perm.Basic
import SchemaReview.Proofs.Sequence

/-!
# Proofs.Rearrangement — lists with the same members in another order

* `Rearranged u xs ys`: the lists have the same members in some order, as far as `u` tells members
  apart.  What is done member by member keeps this (`Rearranged.flatMap`, `Rearranged.filterMap`), and so
  does what is done with the members of each key (`rearranged_groupBy`).
* `AgreeBy key xs ys`: for each key, the members with this key are the same in the same order.  Joining
  parts without common keys in another order gives such lists: `agreeBy_flatMap`.
-/

namespace SchemaReview

variable {α β γ δ κ : Type}

/-! ## Lists that are alike place by place -/

theorem forall₂_of_map_eq {u : α → γ} {xs ys : List α} (h : xs.map u = ys.map u) :
    List.Forall₂ (fun x y => u x = u y) xs ys := by
  rw [← List.forall₂_eq_eq_eq, List.forall₂_map_left_iff, List.forall₂_map_right_iff] at h
  exact h

theorem flatMap_eq_of_forall₂ {r : α → α → Prop} {f g : α → List β} (hfg : ∀ x y, r x y → f x = g y)
    {xs ys : List α} (h : List.Forall₂ r xs ys) : xs.flatMap f = ys.flatMap g := by
  induction h with
  | nil => rfl
  | cons hxy _ ih => rw [List.flatMap_cons, List.flatMap_cons, hfg _ _ hxy, ih]

/-! ## Rearranged lists -/

/-- The lists have the same members in some order, as far as `u` tells members apart. -/
def Rearranged (u : α → γ) (xs ys : List α) : Prop := (xs.map u).Perm (ys.map u)

/-- A rearranged list has members like those of the other one, place by place, in some order. -/
theorem Rearranged.exists_forall₂ {u : α → γ} {xs ys : List α} (h : Rearranged u xs ys) :
    ∃ zs, List.Forall₂ (fun x z => u x = u z) xs zs ∧ zs.Perm ys := by
  have hys : List.Forall₂ (fun c y => c = u y) (ys.map u) ys := by
    rw [List.forall₂_map_left_iff, List.forall₂_same]
    exact fun _ _ => rfl
  obtain ⟨zs, hzs, hperm⟩ := List.perm_comp_forall₂ h hys
  exact ⟨zs, List.forall₂_map_left_iff.mp hzs, hperm⟩

section

variable {u : α → γ} {xs ys : List α} (h : Rearranged u xs ys)
include h

theorem Rearranged.flatMap {v : β → δ} {f g : α → List β}
    (hfg : ∀ x y, u x = u y → Rearranged v (f x) (g y)) :
    Rearranged v (xs.flatMap f) (ys.flatMap g) := by
  obtain ⟨zs, hzs, hperm⟩ := h.exists_forall₂
  have hlike : Rearranged v (xs.flatMap f) (zs.flatMap g) := by
    clear h hperm
    induction hzs with
    | nil => exact .refl _
    | cons hx _ ih =>
      unfold Rearranged at ih ⊢
      rw [List.flatMap_cons, List.flatMap_cons, List.map_append, List.map_append]
      exact (hfg _ _ hx).append ih
  exact hlike.trans ((hperm.flatMap_right g).map v)

theorem Rearranged.filterMap {v : β → δ} {f g : α → Option β}
    (hfg : ∀ x y, u x = u y → (f x).map v = (g y).map v) :
    Rearranged v (xs.filterMap f) (ys.filterMap g) := by
  rw [List.filterMap_eq_flatMap_toList, List.filterMap_eq_flatMap_toList]
  refine h.flatMap fun x y hxy => ?_
  rw [Rearranged, ← Option.toList_map, ← Option.toList_map, hfg x y hxy]

theorem Rearranged.map {v : β → δ} {f g : α → β} (hfg : ∀ x y, u x = u y → v (f x) = v (g y)) :
    Rearranged v (xs.map f) (ys.map g) := by
  rw [← List.filterMap_eq_map, ← List.filterMap_eq_map]
  exact h.filterMap fun x y hxy => congrArg some (hfg x y hxy)

theorem Rearranged.filter {p q : α → Bool} (hpq : ∀ x y, u x = u y → p x = q y) :
    Rearranged u (xs.filter p) (ys.filter q) := by
  rw [← List.filterMap_eq_filter, ← List.filterMap_eq_filter]
  refine h.filterMap fun x y hxy => ?_
  simp only [Option.guard, hpq x y hxy]
  split
  · exact congrArg some hxy
  · rfl

theorem Rearranged.mem_iff {x : γ} : x ∈ xs.map u ↔ x ∈ ys.map u := List.Perm.mem_iff h

theorem Rearranged.any_eq {p q : α → Bool} (hpq : ∀ x y, u x = u y → p x = q y) :
    xs.any p = ys.any q := by
  have hlength := List.Perm.length_eq (h.filter hpq)
  rw [List.length_map, List.length_map] at hlength
  rw [Bool.eq_iff_iff, List.any_eq_true, List.any_eq_true]
  simpa [List.length_pos_iff, List.filter_eq_nil_iff] using
    (show 0 < (xs.filter p).length ↔ 0 < (ys.filter q).length by rw [hlength])

end

/-- Less can be told apart. -/
theorem Rearranged.of_comp {u : α → γ} {xs ys : List α} (h : Rearranged u xs ys) {v : α → δ}
    (hv : ∀ x y, u x = u y → v x = v y) : Rearranged v xs ys := by
  simpa using h.map (f := id) (g := id) hv

/-! ## First occurrences and groups -/

theorem perm_distinct [DecidableEq α] {xs ys : List α} (h : ∀ x, x ∈ xs ↔ x ∈ ys) :
    (distinct xs).Perm (distinct ys) := by
  rw [List.perm_ext_iff_of_nodup (nodup_distinct xs) (nodup_distinct ys)]
  intro x
  rw [mem_distinct, mem_distinct, h]

section

variable [DecidableEq κ] {key : α → κ} {xs ys : List α}

theorem map_key_firstBy (xs : List α) : (firstBy key xs).map key = distinct (xs.map key) := by
  have hkey : ∀ x, id (key x) = key x := fun _ => rfl
  exact (firstBy_map hkey xs).symm

theorem rearranged_firstBy {v : α → δ} (hv : ∀ x y, key x = key y → v x = v y)
    (h : ∀ k, k ∈ xs.map key ↔ k ∈ ys.map key) :
    Rearranged v (firstBy key xs) (firstBy key ys) := by
  have hkeys : Rearranged key (firstBy key xs) (firstBy key ys) := by
    rw [Rearranged, map_key_firstBy, map_key_firstBy]
    exact perm_distinct h
  exact hkeys.of_comp hv

theorem groupBy_eq (key : α → κ) (xs : List α) : groupBy key xs =
    (distinct (xs.map key)).map fun k => (k, xs.filter fun x => key x = k) := by
  simp [groupBy, List.filter_map, Function.comp_def]

/-- Classes of a list, one for each key of a list that has all keys once, are a rearrangement of it. -/
theorem perm_flatMap_filter {key : α → κ} {ks : List κ} (hks : ks.Nodup) {xs : List α} (h : ∀ x ∈ xs, key x ∈ ks) :
    (ks.flatMap fun k => xs.filter fun x => key x = k).Perm xs := by
  induction ks generalizing xs with
  | nil =>
    obtain rfl : xs = [] := List.eq_nil_iff_forall_not_mem.mpr fun x hx => List.not_mem_nil (h x hx)
    exact .nil
  | cons k ks ih =>
    rw [List.nodup_cons] at hks
    have hothers : ∀ x ∈ xs.filter fun x => !decide (key x = k), key x ∈ ks := by
      intro x hx
      obtain ⟨hmem, hne⟩ := List.mem_filter.mp hx
      exact (List.mem_cons.mp (h x hmem)).resolve_left (by simpa using hne)
    have hrest : (ks.flatMap fun k' => xs.filter fun x => key x = k') =
        ks.flatMap fun k' => (xs.filter fun x => !decide (key x = k)).filter fun x => key x = k' := by
      refine List.flatMap_congr fun k' hk' => ?_
      rw [List.filter_filter]
      refine List.filter_congr fun x _ => ?_
      -- `k'` is not `k`, which does not occur again
      by_cases hx : key x = k'
      · have hne : k' ≠ k := by
          rintro rfl
          exact hks.1 hk'
        simp [hx, hne]
      · simp [hx]
    rw [List.flatMap_cons, hrest]
    exact ((ih hks.2 hothers).append_left _).trans (List.filter_append_perm _ xs)

/-- Grouping loses nothing. -/
theorem perm_flatMap_groupBy (key : α → κ) (xs : List α) : ((groupBy key xs).flatMap (·.2)).Perm xs := by
  rw [groupBy_eq, List.flatMap_map]
  refine perm_flatMap_filter (nodup_distinct _) fun x hx => ?_
  rw [mem_distinct]
  exact List.mem_map_of_mem hx

theorem rearranged_groupBy {v : β → δ} {f g : κ × List α → List β}
    (hkeys : ∀ k, k ∈ xs.map key ↔ k ∈ ys.map key)
    (h : ∀ k, Rearranged v (f (k, xs.filter fun x => key x = k))
      (g (k, ys.filter fun x => key x = k))) :
    Rearranged v ((groupBy key xs).flatMap f) ((groupBy key ys).flatMap g) := by
  rw [groupBy_eq, groupBy_eq, List.flatMap_map, List.flatMap_map]
  have hdistinct : Rearranged id (distinct (xs.map key)) (distinct (ys.map key)) := by
    rw [Rearranged, List.map_id, List.map_id]
    exact perm_distinct hkeys
  refine hdistinct.flatMap fun k k' hk => ?_
  obtain rfl : k = k' := hk
  exact h k

end

/-- Where only the members of a group count, and not their order. -/
theorem Rearranged.groupBy_filterMap [DecidableEq κ] {u : α → γ} {key : α → κ} {xs ys : List α}
    (h : Rearranged u xs ys) (hkey : ∀ x y, u x = u y → key x = key y) {v : β → δ}
    {f g : κ × List α → Option β}
    (hfg : ∀ k as bs, Rearranged u as bs → (f (k, as)).map v = (g (k, bs)).map v) :
    Rearranged v ((groupBy key xs).filterMap f) ((groupBy key ys).filterMap g) := by
  rw [List.filterMap_eq_flatMap_toList, List.filterMap_eq_flatMap_toList]
  refine rearranged_groupBy (fun k => (h.of_comp hkey).mem_iff) fun k => ?_
  have hgroup : Rearranged u (xs.filter fun x => key x = k) (ys.filter fun x => key x = k) :=
    h.filter fun x y hxy => by rw [hkey x y hxy]
  rw [Rearranged, ← Option.toList_map, ← Option.toList_map, hfg k _ _ hgroup]

/-! ## Lists that agree key by key -/

/-- For each key, the members with this key are the same in the same order. -/
def AgreeBy [DecidableEq κ] (key : α → κ) (xs ys : List α) : Prop :=
  ∀ k, (xs.filter fun x => key x = k) = ys.filter fun x => key x = k

section

variable [DecidableEq κ] {key : α → κ}

/-- Lists that agree key by key have the same members. -/
theorem AgreeBy.perm [DecidableEq α] {xs ys : List α} (h : AgreeBy key xs ys) : xs.Perm ys := by
  rw [List.perm_iff_count]
  intro x
  have hcount : ∀ zs : List α, (zs.filter fun z => key z = key x).count x = zs.count x :=
    fun zs => List.count_filter (by simp)
  rw [← hcount xs, ← hcount ys, h (key x)]

/-- Where everything that comes from a member has its key, the key may be looked at first. -/
theorem filter_flatMap_of_key {key' : β → κ} {f : α → List β} (hf : ∀ x, ∀ y ∈ f x, key' y = key x)
    (xs : List α) (k : κ) : ((xs.flatMap f).filter fun y => key' y = k) =
      (xs.filter fun x => key x = k).flatMap f := by
  induction xs with
  | nil => rfl
  | cons x xs ih =>
    rw [List.flatMap_cons, List.filter_append, ih]
    by_cases hk : key x = k
    · rw [List.filter_cons_of_pos (by simpa using hk), List.flatMap_cons, List.filter_eq_self.mpr]
      intro y hy
      rw [decide_eq_true_eq, hf x y hy, hk]
    · rw [List.filter_cons_of_neg (by simpa using hk), List.filter_eq_nil_iff.mpr, List.nil_append]
      intro y hy
      rwa [decide_eq_true_eq, hf x y hy]

/-- Parts without common keys may be joined in any order.  By induction on the permutation: the key
at hand stands in one of two neighbours only. -/
theorem agreeBy_flatMap {f : β → List α} {ps qs : List β} (hperm : ps.Perm qs)
    (h : ps.Pairwise fun p q => ∀ x ∈ f p, ∀ y ∈ f q, key x ≠ key y) :
    AgreeBy key (ps.flatMap f) (qs.flatMap f) := by
  intro k
  induction hperm with
  | nil => rfl
  | cons p _ ih =>
    rw [List.pairwise_cons] at h
    rw [List.flatMap_cons, List.flatMap_cons, List.filter_append, List.filter_append, ih h.2]
  | swap p q ps =>
    rw [List.pairwise_cons] at h
    have hnone : ((f p).filter fun x => key x = k) = [] ∨
        ((f q).filter fun x => key x = k) = [] := by
      by_contra hboth
      rw [not_or, List.filter_eq_nil_iff, List.filter_eq_nil_iff] at hboth
      simp only [decide_eq_true_eq, not_forall, not_not] at hboth
      obtain ⟨⟨x, hx, hkx⟩, y, hy, hky⟩ := hboth
      exact h.1 p List.mem_cons_self y hy x hx (hky.trans hkx.symm)
    simp only [List.flatMap_cons, List.filter_append]
    rcases hnone with hnone | hnone
    · rw [hnone, List.nil_append, List.nil_append]
    · rw [hnone, List.nil_append, List.nil_append]
  | @trans ps qs rs hpq _ ihpq ihqr =>
    have hqs : qs.Pairwise fun p q => ∀ x ∈ f p, ∀ y ∈ f q, key x ≠ key y :=
      hpq.pairwise h fun hxy x hx y hy => (hxy y hy x hx).symm
    rw [ihpq h, ihqr hqs]

end

end SchemaReview
