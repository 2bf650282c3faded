import SchemaReview.Detector.SelfReference
import SchemaReview.Proofs.Keyed

/-!
# Proofs.Detector.NotNull — columns noted as ones that forbid null values

The definitions of a script are read one after the other into one map.  What is noted of a column that forbids null
values stays: a later definition that allows them does not replace it.

* `getD_get?_noteNull`: what one definition does to the notes.
* `declaredNotNull_eq_any`: so, after all of them, a column is noted exactly when one of its definitions forbids null
  values, in whatever place.
-/

namespace SchemaReview

variable (noted : Keyed (String × String) Bool) (tableKey columnKey : String)

theorem getD_get?_noteNull (c : DeclaredColumn) :
    ((noteNull noted c).get? (tableKey, columnKey)).getD false =
      ((noted.get? (tableKey, columnKey)).getD false ||
        (decide (c.table.key = tableKey) && decide (c.column.key = columnKey) && c.column.isNotNull)) := by
  unfold noteNull
  by_cases hnull : c.column.isNotNull = true
  · rw [if_pos hnull, Keyed.get?_insert, hnull, Bool.and_true]
    by_cases hkey : (tableKey, columnKey) = (c.table.key, c.column.key)
    · obtain ⟨rfl, rfl⟩ := Prod.mk.inj hkey
      simp
    · have hother : (decide (c.table.key = tableKey) && decide (c.column.key = columnKey)) = false := by
        rw [← Bool.decide_and, decide_eq_false_iff_not]
        rintro ⟨rfl, rfl⟩
        exact hkey rfl
      rw [if_neg hkey, hother, Bool.or_false]
  · rw [if_neg hnull, Keyed.get?_insertNew]
    -- a note that is there stays, and a new one says no
    have hallows : c.column.isNotNull = false := by simpa using hnull
    rw [hallows, Bool.and_false, Bool.or_false]
    cases noted.get? (tableKey, columnKey) with
    | some forbids => rfl
    | none => split <;> rfl

theorem getD_get?_foldl_noteNull (columns : List DeclaredColumn) :
    ((columns.foldl noteNull noted).get? (tableKey, columnKey)).getD false =
      ((noted.get? (tableKey, columnKey)).getD false || columns.any fun c =>
        decide (c.table.key = tableKey) && decide (c.column.key = columnKey) && c.column.isNotNull) := by
  induction columns generalizing noted with
  | nil => rw [List.foldl_nil, List.any_nil, Bool.or_false]
  | cons c columns ih => rw [List.foldl_cons, ih, getD_get?_noteNull, List.any_cons, Bool.or_assoc]

/-- Some definition of the column forbids null values. -/
theorem declaredNotNull_eq_any (columns : List DeclaredColumn) :
    declaredNotNull columns tableKey columnKey = columns.any fun c =>
      decide (c.table.key = tableKey) && decide (c.column.key = columnKey) && c.column.isNotNull := by
  have hempty : (Keyed.get? ([] : Keyed (String × String) Bool) (tableKey, columnKey)).getD false = false := rfl
  rw [declaredNotNull, notedNulls, getD_get?_foldl_noteNull, hempty, Bool.false_or]

end SchemaReview
