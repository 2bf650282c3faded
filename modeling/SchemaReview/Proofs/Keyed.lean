import Mathlib.Data.List.Infix
import SchemaReview.Keyed

/-!
# Proofs.Keyed — what writes do to values by key

* `get?_modify`, `get?_insert`, `get?_insertNew`: the values after a write.
* `keys_modify`, `keys_prefix_insert`, `mem_keys_insertNew`: the keys after a write.
* `mem_modify`, `mem_insert`: where an entry after a write comes from.
* `length_flatMap_modify_le`: what a change adds to a list that is made from the values.
-/

namespace SchemaReview

namespace Keyed

variable {κ β : Type} [DecidableEq κ]

/-! ## Values -/

theorem get?_eq_none_iff {m : Keyed κ β} {key : κ} : m.get? key = none ↔ key ∉ m.keys := by
  rw [get?, List.lookup_eq_none_iff, keys, List.mem_map, not_exists]
  simp only [bne_iff_ne, ne_eq, not_and, @eq_comm _ key]

theorem exists_get?_of_mem_keys {m : Keyed κ β} {key : κ} (h : key ∈ m.keys) : ∃ v, m.get? key = some v :=
  Option.ne_none_iff_exists'.mp (mt get?_eq_none_iff.mp (not_not.mpr h))

theorem get?_cons (k : κ) (v : β) (m : Keyed κ β) (key : κ) :
    get? ((k, v) :: m) key = if key = k then some v else get? m key := by
  by_cases hk : key = k
  · subst hk
    simp [get?]
  · have hbeq : (key == k) = false := by simpa using hk
    simp [get?, List.lookup_cons, hbeq, hk]

theorem get?_append (m m' : Keyed κ β) (key : κ) :
    (m ++ m' : Keyed κ β).get? key = (m.get? key).or (m'.get? key) := by
  induction m with
  | nil => rfl
  | cons entry m ih =>
    obtain ⟨k, v⟩ := entry
    have hcons : ((k, v) :: m ++ m' : Keyed κ β) = (k, v) :: (m ++ m' : Keyed κ β) := rfl
    rw [hcons, get?_cons, get?_cons, ih]
    split <;> rfl

theorem get?_modify (m : Keyed κ β) (k : κ) (f : β → β) (key : κ) :
    (m.modify k f).get? key = if key = k then (m.get? key).map f else m.get? key := by
  induction m with
  | nil => split <;> rfl
  | cons entry m ih =>
    obtain ⟨k', v⟩ := entry
    have hcons : modify ((k', v) :: m) k f = (k', if k' = k then f v else v) :: modify m k f := by
      by_cases hk : k' = k <;> simp [modify, hk]
    rw [hcons, get?_cons, get?_cons, ih]
    by_cases hkey : key = k'
    · subst hkey
      simp only [if_true]
      split <;> rfl
    · simp only [if_neg hkey]

theorem get?_insert (m : Keyed κ β) (k : κ) (value : β) (key : κ) :
    (m.insert k value).get? key = if key = k then some value else m.get? key := by
  unfold insert
  by_cases hmem : k ∈ m.keys
  · rw [if_pos hmem, get?_modify]
    by_cases hkey : key = k
    · subst hkey
      obtain ⟨v, hv⟩ := exists_get?_of_mem_keys hmem
      rw [if_pos rfl, if_pos rfl, hv]
      rfl
    · rw [if_neg hkey, if_neg hkey]
  · rw [if_neg hmem, get?_append, get?_cons]
    by_cases hkey : key = k
    · subst hkey
      rw [get?_eq_none_iff.mpr hmem, if_pos rfl, if_pos rfl]
      rfl
    · rw [if_neg hkey, if_neg hkey]
      exact Option.or_none

theorem get?_insertNew (m : Keyed κ β) (k : κ) (value : β) (key : κ) :
    (m.insertNew k value).get? key = (m.get? key).or (if key = k then some value else none) := by
  unfold insertNew
  by_cases hmem : k ∈ m.keys
  · rw [if_pos hmem]
    by_cases hkey : key = k
    · subst hkey
      obtain ⟨v, hv⟩ := exists_get?_of_mem_keys hmem
      rw [hv]
      rfl
    · rw [if_neg hkey, Option.or_none]
  · rw [if_neg hmem, get?_append, get?_cons]
    rfl

/-! ## Keys and entries -/

@[simp] theorem keys_modify (m : Keyed κ β) (key : κ) (f : β → β) : (m.modify key f).keys = m.keys := by
  unfold modify keys
  rw [List.map_map]
  refine List.map_congr_left ?_
  rintro ⟨k, v⟩ -
  simp only [Function.comp_apply]
  split <;> rfl

/-- Keys keep their places, and a new one comes last. -/
theorem keys_prefix_insert (m : Keyed κ β) (key : κ) (value : β) : m.keys <+: (m.insert key value).keys := by
  unfold insert
  split
  · rw [keys_modify]
  · simp [keys]

/-- A key is there after it was given a value, and the keys from before are. -/
theorem mem_keys_insertNew {m : Keyed κ β} {k key : κ} {value : β} :
    key ∈ (m.insertNew k value).keys ↔ key ∈ m.keys ∨ key = k := by
  unfold insertNew
  split
  · rename_i hmem
    exact ⟨Or.inl, fun h => h.elim id fun heq => heq ▸ hmem⟩
  · simp [keys]

/-- An entry after a change is an entry from before, or it stands under the key that was changed. -/
theorem mem_modify {m : Keyed κ β} {key : κ} {f : β → β} {entry : κ × β} (h : entry ∈ m.modify key f) :
    entry ∈ m ∨ ∃ v, (key, v) ∈ m ∧ entry = (key, f v) := by
  obtain ⟨⟨k, v⟩, hmem, rfl⟩ := List.mem_map.mp h
  by_cases hk : k = key
  · subst hk
    exact Or.inr ⟨v, hmem, by simp⟩
  · simp only [if_neg hk]
    exact Or.inl hmem

theorem mem_insert {m : Keyed κ β} {key : κ} {value : β} {entry : κ × β} (h : entry ∈ m.insert key value) :
    entry ∈ m ∨ entry = (key, value) := by
  unfold insert at h
  split at h
  · rcases mem_modify h with hmem | ⟨v, -, rfl⟩
    · exact Or.inl hmem
    · exact Or.inr rfl
  · simpa using h

/-! ## Lists made from the values -/

/-- Changing one value adds at most what it adds to that value. -/
theorem length_flatMap_modify_le {γ : Type} {m : Keyed κ β} (g : β → List γ) (hm : m.keys.Nodup) {key : κ}
    {f : β → β} {n : Nat} (hf : ∀ v, (g (f v)).length ≤ (g v).length + n) :
    ((m.modify key f).flatMap fun entry => g entry.2).length ≤ (m.flatMap fun entry => g entry.2).length + n := by
  induction m with
  | nil => simp [modify]
  | cons entry m ih =>
    obtain ⟨k, v⟩ := entry
    have hkeys : k ∉ keys m ∧ (keys m).Nodup := List.nodup_cons.mp hm
    by_cases hk : k = key
    · -- the key does not occur again
      subst hk
      have hrest : modify m k f = m := by
        conv_rhs => rw [← List.map_id' m]
        refine List.map_congr_left fun entry hentry => if_neg ?_
        rintro rfl
        exact hkeys.1 (List.mem_map_of_mem hentry)
      have hhead : (g (k, f v).2).length ≤ (g (k, v).2).length + n := hf v
      have hcons : modify ((k, v) :: m) k f = (k, f v) :: modify m k f := by simp [modify]
      rw [hcons, hrest, List.flatMap_cons, List.length_append, List.flatMap_cons, List.length_append]
      omega
    · have hcons : modify ((k, v) :: m) key f = (k, v) :: modify m key f := by simp [modify, hk]
      have hrest := ih hkeys.2
      rw [hcons, List.flatMap_cons, List.length_append, List.flatMap_cons, List.length_append]
      omega

end Keyed

end SchemaReview
