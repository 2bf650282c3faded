import Mathlib.Data.List.Basic
import SchemaReview.Proofs.Ddl.Column
import SchemaReview.Proofs.Text.FoldCase

/-!
# Proofs.Ddl.DeclaredType — which declared types are the same

Two types are the same when their names agree in lower case and their sizes are equal (`DeclaredType.Same`).
Types are compared by their keys, which are texts: the name in lower case, and the sizes in parentheses behind
it.  A key can be taken apart again: the name has no parenthesis, since there is none in a word and lower case
brings none in (`parenthesis_not_mem_lower`), and there is no comma in a number (`sizesText_injective`).  So two
types named by words have the same key exactly when they are the same: `DeclaredType.key_eq_iff`.
-/

namespace SchemaReview

open Text

/-- The types have the same name, in any case, and the same sizes. -/
def DeclaredType.Same (a b : DeclaredType) : Prop := lowerString a.name = lowerString b.name ∧ a.sizes = b.sizes

/-! ## Lower case brings in no parenthesis -/

/-- What the runs give is not below a bound that none of them goes below. -/
theorem Text.CaseRun.le_of_find? {bound n m : Nat} {runs : List CaseRun}
    (hruns : ∀ run ∈ runs, (bound : Int) ≤ run.lo + run.shift) (h : CaseRun.find? n runs = some m) : bound ≤ m := by
  induction runs with
  | nil => cases h
  | cons run runs ih =>
    rw [List.forall_mem_cons] at hruns
    rw [CaseRun.find?] at h
    split at h
    · cases h
    · rename_i hlo
      split at h
      · rename_i m' happly
        rw [Option.some.injEq] at h
        subst h
        unfold CaseRun.apply? at happly
        split at happly
        · rw [Option.some.injEq] at happly
          have := hruns.1
          omega
        · cases happly
      · exact ih hruns.2 h

/-- In lower case, a letter outside ASCII becomes a character behind the parenthesis. -/
theorem lowerRuns_bound : ∀ run ∈ lowerRuns, ((41 : Nat) : Int) ≤ run.lo + run.shift := by
  decide +kernel

theorem parenthesis_ne_ofNat {code : Nat} (h : 41 ≤ code) : '(' ≠ Char.ofNat code := by
  intro hcode
  have hnat : 40 = (Char.ofNat code).toNat := congrArg Char.toNat hcode
  by_cases hvalid : code.isValidChar
  · rw [Char.ofNat, dif_pos hvalid] at hnat
    have heq : 40 = code := hnat
    omega
  · rw [Char.ofNat, dif_neg hvalid] at hnat
    cases hnat

theorem parenthesis_not_mem_lowerChar {c : Char} (hc : c ≠ '(') : '(' ∉ lowerChar c := by
  unfold lowerChar
  split
  · rw [List.mem_singleton, eq_comm, toLower_eq_iff (by decide)]
    exact hc
  split
  · decide
  split
  · rename_i code hcode
    rw [List.mem_singleton]
    exact parenthesis_ne_ofNat (Text.CaseRun.le_of_find? lowerRuns_bound hcode)
  · rw [List.mem_singleton]
    exact Ne.symm hc

theorem parenthesis_not_mem_lower {t : Text} (h : '(' ∉ t) : '(' ∉ lower t := by
  have hafter : ∀ before : Text, '(' ∉ lowerAfter before t := by
    induction t with
    | nil => exact fun _ => List.not_mem_nil
    | cons c cs ih =>
      intro before
      rw [List.mem_cons, not_or] at h
      rw [lowerAfter, List.mem_append, not_or]
      refine ⟨?_, ih h.2 _⟩
      split
      · split <;> decide
      · exact parenthesis_not_mem_lowerChar (Ne.symm h.1)
  exact hafter []

/-! ## Keys taken apart -/

theorem decimal_injective : Function.Injective decimal := by
  intro m n h
  rw [← digitsValue_decimal m, h, digitsValue_decimal]

/-- Sizes are read back from the text between the parentheses. -/
theorem sizesText_injective {ms ns : List Nat} (h : sizesText ms = sizesText ns) : ms = ns := by
  have hcomma : ∀ sizes : List Nat, ∀ digits ∈ sizes.map decimal, ',' ∉ digits := by
    intro sizes digits hdigits hmem
    obtain ⟨n, -, rfl⟩ := List.mem_map.mp hdigits
    exact forall_mem_decimal (p := (· ≠ ',')) (by decide) n ',' hmem rfl
  cases ms with
  | nil =>
    cases ns with
    | nil => rfl
    | cons n ns => cases h
  | cons m ms =>
    cases ns with
    | nil => cases h
    | cons n ns =>
      rw [sizesText, sizesText, List.cons.injEq, List.append_cancel_right_eq] at h
      have hsplit := congrArg (List.splitOn ',') h.2
      rw [List.splitOn_intercalate ',' (hcomma (m :: ms)) (by simp),
        List.splitOn_intercalate ',' (hcomma (n :: ns)) (by simp)] at hsplit
      exact List.map_injective_iff.mpr decimal_injective hsplit

namespace DeclaredType

theorem toList_withSizes (name : String) (sizes : List Nat) :
    (withSizes name sizes).toList = name.toList ++ sizesText sizes := by
  cases sizes with
  | nil => simp [withSizes, sizesText]
  | cons n ns =>
    have hdigits : ((n :: ns).map fun m => toString m).map String.toList = (n :: ns).map decimal := by
      rw [List.map_map]
      exact List.map_congr_left fun m _ => Nat.toList_repr
    simp only [withSizes, List.isEmpty_cons, Bool.false_eq_true, if_false, String.toList_append,
      String.toList_intercalate, hdigits, List.append_assoc]
    rfl

theorem toList_key (a : DeclaredType) : a.key.toList = lower a.name.toList ++ sizesText a.sizes := by
  rw [key, toList_withSizes, lowerString, String.toList_ofList]

/-- Keys of types that are named by words are the same exactly when the types are. -/
theorem key_eq_iff {a b : DeclaredType} (ha : '(' ∉ a.name.toList) (hb : '(' ∉ b.name.toList) :
    a.key = b.key ↔ a.Same b := by
  have hname : ∀ {name : Text} (sizes : List Nat), '(' ∉ name →
      (lower name ++ sizesText sizes).takeWhile (· ≠ '(') = lower name := by
    intro name sizes hne
    refine takeWhile_append_of_head (fun x hx => ?_) fun x hx => ?_
    · rw [decide_eq_true_eq]
      rintro rfl
      exact parenthesis_not_mem_lower hne hx
    · cases sizes with
      | nil => cases hx
      | cons n ns =>
        obtain rfl := Option.some.inj hx
        decide
  rw [← String.toList_inj, toList_key, toList_key, Same, lowerString, lowerString, String.ofList_inj]
  constructor
  · intro h
    have hlower : lower a.name.toList = lower b.name.toList := by
      rw [← hname a.sizes ha, h, hname b.sizes hb]
    rw [hlower, List.append_cancel_left_eq] at h
    exact ⟨hlower, sizesText_injective h⟩
  · rintro ⟨hlower, hsizes⟩
    rw [hlower, hsizes]

end DeclaredType

end SchemaReview
