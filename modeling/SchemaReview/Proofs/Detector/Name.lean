import Mathlib.Data.List.Chain
import Mathlib.Data.List.Nodup
import SchemaReview.Detector.Basic
import SchemaReview.Proofs.Text.FoldCase

/-!
# Proofs.Detector.Name — the spellings in which detectors and groups are found

A name is looked up in lower case words joined by low lines.  A capital behind a small letter or a digit
begins a new word there, so that camel case can be read; any other capital is just written small.

* `snakeCaseFrom_cons`: the spelling of a name, character by character.
* `length_snakeCaseFrom`, `snakeCaseFrom_of_wordBreaks`: the spelling is longer than the name by the word
  breaks that its capitals make; without any it is the name in small letters.
* `ofName_anyCase`: a name that differs from an identifier in case, in hyphens and in the white space around
  it is found exactly when it has no capital behind a small letter.
-/

namespace SchemaReview

open Text

/-- A capital behind this character begins a new word. -/
def opensWord (c : Char) : Bool := c.isLower || isAsciiDigit c

/-- There is no capital directly behind a small letter or a digit. -/
def NoInnerCapital (t : Text) : Prop := t.IsChain fun a b => opensWord a = true → b.isUpper = false

instance (t : Text) : Decidable (NoInnerCapital t) := by
  unfold NoInnerCapital
  infer_instance

/-- The text with low lines in place of hyphens. -/
def underscored (t : Text) : Text := t.map fun c => if c = '-' then '_' else c

/-! ## Characters -/

theorem eq_ofNat_of_isUpper {c : Char} (h : c.isUpper = true) : ∃ n < 26, c = Char.ofNat (65 + n) := by
  have hrange : 65 ≤ c.toNat ∧ c.toNat ≤ 90 := of_decide_eq_true h
  obtain ⟨hlow, hhigh⟩ := hrange
  refine ⟨c.toNat - 65, by omega, ?_⟩
  rw [Nat.add_sub_cancel' hlow, Char.ofNat_toNat]

theorem opensWord_of_isUpper {c : Char} (h : c.isUpper = true) : opensWord c = false := by
  obtain ⟨n, hn, rfl⟩ := eq_ofNat_of_isUpper h
  revert n
  decide

theorem toLower_of_isUpper_eq_false {c : Char} (h : c.isUpper = false) : c.toLower = c := by
  rcases toLower_cases c with hc | ⟨n, hn, rfl⟩
  · exact hc
  · have hall : ∀ n < 26, (Char.ofNat (65 + n)).isUpper = true := by decide
    rw [hall n hn] at h
    cases h

/-- A character as the spelling has it: hyphens and blanks are low lines, letters are small. -/
def spelledChar (c : Char) : Char := if c = '-' ∨ c = '_' ∨ c = ' ' then '_' else c.toLower

theorem spelledChar_of_ne_space {c : Char} (h : c ≠ ' ') :
    spelledChar c = (if c = '-' then '_' else c).toLower := by
  unfold spelledChar
  by_cases hhyphen : c = '-'
  · subst hhyphen
    rfl
  · by_cases hlow : c = '_'
    · subst hlow
      rfl
    · rw [if_neg (by simp [hhyphen, hlow, h]), if_neg hhyphen]

/-! ## Spellings -/

/-- Number of capitals that begin a new word, where `wordOpen` says that the first character would. -/
def wordBreaks (wordOpen : Bool) : Text → Nat
  | [] => 0
  | c :: cs => (if wordOpen && c.isUpper then 1 else 0) + wordBreaks (opensWord c) cs

theorem snakeCaseFrom_cons (wordOpen : Bool) (c : Char) (cs : Text) :
    snakeCaseFrom wordOpen (c :: cs) = (if wordOpen && c.isUpper then ['_'] else []) ++
      spelledChar c :: snakeCaseFrom (opensWord c) cs := by
  rw [snakeCaseFrom]
  by_cases hmark : c = '-' ∨ c = '_' ∨ c = ' '
  · have hplain : c.isUpper = false ∧ opensWord c = false := by
      rcases hmark with rfl | rfl | rfl <;> decide
    rw [if_pos hmark, spelledChar, if_pos hmark, hplain.1, hplain.2, Bool.and_false]
    rfl
  · rw [if_neg hmark, spelledChar, if_neg hmark]
    cases hupper : c.isUpper with
    | true =>
      rw [opensWord_of_isUpper hupper]
      cases wordOpen <;> rfl
    | false =>
      rw [toLower_of_isUpper_eq_false hupper, Bool.and_false]
      rfl

theorem length_snakeCaseFrom (wordOpen : Bool) (t : Text) :
    (snakeCaseFrom wordOpen t).length = t.length + wordBreaks wordOpen t := by
  induction t generalizing wordOpen with
  | nil => rfl
  | cons c cs ih =>
    rw [snakeCaseFrom_cons, wordBreaks, List.length_append, List.length_cons, List.length_cons, ih]
    split
    · rw [List.length_singleton]
      omega
    · rw [List.length_nil]
      omega

theorem snakeCaseFrom_of_wordBreaks {wordOpen : Bool} {t : Text} (h : wordBreaks wordOpen t = 0) :
    snakeCaseFrom wordOpen t = t.map spelledChar := by
  induction t generalizing wordOpen with
  | nil => rfl
  | cons c cs ih =>
    rw [wordBreaks, Nat.add_eq_zero_iff] at h
    have hopen : ¬ (wordOpen && c.isUpper) = true := by
      intro hbreak
      rw [if_pos hbreak] at h
      exact absurd h.1 one_ne_zero
    rw [snakeCaseFrom_cons, if_neg hopen, ih h.2]
    rfl

theorem wordBreaks_eq_zero_iff (wordOpen : Bool) (t : Text) : wordBreaks wordOpen t = 0 ↔
    (wordOpen = true → ∀ c ∈ t.head?, c.isUpper = false) ∧ NoInnerCapital t := by
  induction t generalizing wordOpen with
  | nil => simp [wordBreaks, NoInnerCapital]
  | cons c cs ih =>
    have hhead : (if wordOpen && c.isUpper then 1 else 0) = 0 ↔ (wordOpen = true → c.isUpper = false) := by
      cases wordOpen <;> cases c.isUpper <;> decide
    have htail : NoInnerCapital (c :: cs) ↔
        (opensWord c = true → ∀ b ∈ cs.head?, b.isUpper = false) ∧ NoInnerCapital cs := by
      rw [NoInnerCapital, List.isChain_cons]
      exact and_congr_left' ⟨fun h ho b hb => h b hb ho, fun h b hb ho => h ho b hb⟩
    rw [wordBreaks, Nat.add_eq_zero_iff, hhead, ih, htail]
    simp

/-- Word breaks add low lines only. -/
theorem filter_snakeCaseFrom (wordOpen : Bool) (t : Text) :
    (snakeCaseFrom wordOpen t).filter (· ≠ '_') = (t.map spelledChar).filter (· ≠ '_') := by
  induction t generalizing wordOpen with
  | nil => rfl
  | cons c cs ih =>
    have hbreak : (if wordOpen && c.isUpper then ['_'] else []).filter (· ≠ '_') = [] := by
      split <;> rfl
    rw [snakeCaseFrom_cons, List.filter_append, hbreak, List.nil_append, List.map_cons, List.filter_cons,
      List.filter_cons, ih]

/-! ## Names up to case -/

/-- A word in small letters and low lines. -/
def IsSmall (w : Text) : Prop := ∀ c ∈ w, c.toLower = c ∧ c ≠ ' '

instance (w : Text) : Decidable (IsSmall w) := List.decidableBAll _ w

section

variable {t w : Text}

/-- A text that is a small word up to case and hyphens. -/
theorem map_spelledChar (hw : IsSmall w) (h : equalsIgnoringCase (underscored t) w = true) :
    t.map spelledChar = w := by
  have hlower : w.map Char.toLower = w := by
    simpa using List.map_congr_left (g := id) fun c hc => (hw c hc).1
  rw [equalsIgnoringCase, beq_iff_eq, hlower, underscored, List.map_map] at h
  rw [← h]
  refine List.map_congr_left fun c hc => ?_
  refine spelledChar_of_ne_space ?_
  rintro rfl
  have hmem : ' ' ∈ w := by
    rw [← h]
    exact List.mem_map.mpr ⟨' ', hc, rfl⟩
  exact (hw ' ' hmem).2 rfl

theorem snakeCaseFrom_eq_iff (hw : IsSmall w) (h : equalsIgnoringCase (underscored t) w = true) :
    snakeCaseFrom false t = w ↔ NoInnerCapital t := by
  have hspelled := map_spelledChar hw h
  have hzero := wordBreaks_eq_zero_iff false t
  simp only [Bool.false_eq_true, false_implies, true_and] at hzero
  rw [← hzero]
  constructor
  · intro heq
    have hlength := length_snakeCaseFrom false t
    rw [heq, ← hspelled, List.length_map] at hlength
    omega
  · intro hnone
    rw [snakeCaseFrom_of_wordBreaks hnone, hspelled]

/-- With or without word breaks, the letters are those of the word. -/
theorem filter_snakeCaseFrom_eq (hw : IsSmall w) (h : equalsIgnoringCase (underscored t) w = true) :
    (snakeCaseFrom false t).filter (· ≠ '_') = w.filter (· ≠ '_') := by
  rw [filter_snakeCaseFrom, map_spelledChar hw h]

/-- A word without low lines has no hyphens either, up to case. -/
theorem equalsIgnoringCase_underscored (hw : '-' ∉ w.map Char.toLower)
    (h : equalsIgnoringCase t w = true) : equalsIgnoringCase (underscored t) w = true := by
  rw [equalsIgnoringCase, beq_iff_eq] at h ⊢
  rw [← h, underscored, List.map_map]
  refine List.map_congr_left fun c hc => ?_
  have hhyphen : c ≠ '-' := by
    rintro rfl
    exact hw (h ▸ List.mem_map.mpr ⟨'-', hc, rfl⟩)
  rw [Function.comp_apply, if_neg hhyphen]

end

/-! ## Looking names up -/

theorem isSmall_id (d : Detector) : IsSmall d.id.toList := by
  cases d <;> decide +kernel

theorem isSmall_name (g : DetectorGroup) : IsSmall g.name.toList := by
  cases g <;> decide +kernel

theorem Detector.find?_id (d : Detector) : (all.find? fun e => e.id = d.id) = some d := by
  cases d <;> rfl

theorem DetectorGroup.find?_name (g : DetectorGroup) :
    (all.find? fun e => e.name = g.name ∨ e.longName = g.name) = some g := by
  cases g <;> rfl

/-- Identifiers differ in their letters and not only in low lines. -/
theorem Detector.eq_of_filter_id {d e : Detector}
    (h : d.id.toList.filter (· ≠ '_') = e.id.toList.filter (· ≠ '_')) : d = e := by
  have hnodup : (all.map fun d => d.id.toList.filter (· ≠ '_')).Nodup := by decide +kernel
  have hall : ∀ d, d ∈ all := by
    intro d
    cases d <;> decide +kernel
  exact List.inj_on_of_nodup_map hnodup (hall d) (hall e) h

theorem DetectorGroup.eq_of_filter_name {g e : DetectorGroup}
    (h : g.name.toList.filter (· ≠ '_') = e.name.toList.filter (· ≠ '_')) : g = e := by
  revert h
  cases g <;> cases e <;> decide +kernel

theorem DetectorGroup.filter_name_ne_longName (g e : DetectorGroup) :
    g.name.toList.filter (· ≠ '_') ≠ e.longName.toList.filter (· ≠ '_') := by
  cases g <;> cases e <;> decide +kernel

theorem Detector.ofName_eq {d : Detector} {name : String}
    (h : equalsIgnoringCase (underscored (trim name.toList)) d.id.toList = true) :
    ofName name =
      if NoInnerCapital (trim name.toList) then .ok d else .error (.unknownDetector name) := by
  have hiff := snakeCaseFrom_eq_iff (isSmall_id d) h
  by_cases hcapital : NoInnerCapital (trim name.toList)
  · have hname : snakeCase name = d.id := by
      rw [snakeCase, hiff.mpr hcapital, String.ofList_toList]
    rw [if_pos hcapital, ofName, hname, find?_id]
  · have hnone : (all.find? fun e => e.id = snakeCase name) = none := by
      refine List.find?_eq_none.mpr fun e _ he => ?_
      have hid : e.id.toList = snakeCaseFrom false (trim name.toList) := by
        rw [of_decide_eq_true he, snakeCase, String.toList_ofList]
      obtain rfl : e = d := eq_of_filter_id (by rw [hid, filter_snakeCaseFrom_eq (isSmall_id d) h])
      exact hcapital (hiff.mp hid.symm)
    rw [if_neg hcapital, ofName, hnone]

theorem DetectorGroup.ofName_eq {g : DetectorGroup} {name : String}
    (h : equalsIgnoringCase (trim name.toList) g.name.toList = true) :
    ofName name = if NoInnerCapital (trim name.toList) then .ok g else .error (.unknownGroup name) := by
  replace h : equalsIgnoringCase (underscored (trim name.toList)) g.name.toList = true := by
    refine equalsIgnoringCase_underscored ?_ h
    cases g <;> decide +kernel
  have hiff := snakeCaseFrom_eq_iff (isSmall_name g) h
  by_cases hcapital : NoInnerCapital (trim name.toList)
  · have hname : snakeCase name = g.name := by
      rw [snakeCase, hiff.mpr hcapital, String.ofList_toList]
    rw [if_pos hcapital, ofName, hname, find?_name]
  · have hnone : (all.find? fun e => e.name = snakeCase name ∨ e.longName = snakeCase name) = none := by
      refine List.find?_eq_none.mpr fun e _ he => ?_
      have hspelled : (snakeCase name).toList = snakeCaseFrom false (trim name.toList) :=
        String.toList_ofList
      have hletters := filter_snakeCaseFrom_eq (isSmall_name g) h
      rw [← hspelled] at hletters hiff
      rcases of_decide_eq_true he with hshort | hlong
      · obtain rfl : g = e := eq_of_filter_name (by rw [← hletters, hshort])
        exact hcapital (hiff.mp (by rw [hshort]))
      · exact filter_name_ne_longName g e (by rw [← hletters, hlong])
    rw [if_neg hcapital, ofName, hnone]

/-- **A name is found in any case that has no capital behind a small letter**: the identifier of a detector,
with hyphens or low lines, and the short name of a group.  With such a capital it is unknown, since it is read
as camel case. -/
theorem ofName_anyCase (name : String) :
    (∀ d : Detector, equalsIgnoringCase (underscored (trim name.toList)) d.id.toList = true →
      Detector.ofName name =
        if NoInnerCapital (trim name.toList) then .ok d else .error (.unknownDetector name)) ∧
    ∀ g : DetectorGroup, equalsIgnoringCase (trim name.toList) g.name.toList = true →
      DetectorGroup.ofName name =
        if NoInnerCapital (trim name.toList) then .ok g else .error (.unknownGroup name) :=
  ⟨fun _ h => Detector.ofName_eq h, fun _ h => DetectorGroup.ofName_eq h⟩

/-- Capitals, hyphens and low lines in one identifier, and a group in capitals. -/
theorem ofName_anyCase_mixed :
    equalsIgnoringCase (underscored (trim "\tNULL-Primary_KEY ".toList))
        Detector.nullPrimaryKey.id.toList = true ∧
      Detector.ofName "\tNULL-Primary_KEY " = .ok .nullPrimaryKey ∧
      equalsIgnoringCase (trim " KEYS\n".toList) DetectorGroup.indexesAndConstraints.name.toList = true ∧
      DetectorGroup.ofName " KEYS\n" = .ok .indexesAndConstraints := by
  have hdetector : equalsIgnoringCase (underscored (trim "\tNULL-Primary_KEY ".toList))
      Detector.nullPrimaryKey.id.toList = true := by decide
  have hgroup : equalsIgnoringCase (trim " KEYS\n".toList)
      DetectorGroup.indexesAndConstraints.name.toList = true := by decide
  refine ⟨hdetector, ?_, hgroup, ?_⟩
  · rw [(ofName_anyCase "\tNULL-Primary_KEY ").1 _ hdetector, if_pos (by decide)]
  · rw [(ofName_anyCase " KEYS\n").2 _ hgroup, if_pos (by decide)]

/-- The identifier and the short name as they come out with the shift key under locked capitals. -/
theorem inner_capital_unknown :
    equalsIgnoringCase (underscored (trim "nULL_PRIMARY_KEY".toList))
        Detector.nullPrimaryKey.id.toList = true ∧
      Detector.ofName "nULL_PRIMARY_KEY" = .error (.unknownDetector "nULL_PRIMARY_KEY") ∧
      equalsIgnoringCase (trim "kEYS".toList) DetectorGroup.indexesAndConstraints.name.toList = true ∧
      DetectorGroup.ofName "kEYS" = .error (.unknownGroup "kEYS") := by
  decide +kernel

end SchemaReview
