import SchemaReview.Proofs.Review
import SchemaReview.Settings.Basic

/-!
# Proofs.Settings — disabled detectors and disabled codes

A disabled entry names a detector, which then does not run, or the code of a kind of finding, which is
then left out of what was found.

* `Detector.ofName_id`, `Detector.ofName_code`: the identifier of a detector names it, and no code names
  a detector.
* `Settings.review_disabling`, `Settings.isDisabled_disabling`: what further entries do to the review and
  to the findings that are left out.
* `disabling_id_eq_disabling_codes`: disabling a detector and disabling all of its codes show the same
  findings.
-/

namespace SchemaReview

/-! ## Names of detectors and codes of findings -/

namespace Detector

/-- The codes of the kinds that a detector reports. -/
def codes (d : Detector) : List String :=
  (FindingKind.all.filter fun k => k.detector = d).map FindingKind.code

theorem ofName_id (d : Detector) : ofName d.id = .ok d := by
  cases d <;> decide +kernel

theorem ofName_code (k : FindingKind) : (ofName k.code).toOption = none := by
  cases k <;> decide +kernel

/-- An identifier is longer than a code. -/
theorem equalsIgnoringCase_id_code (d : Detector) (k : FindingKind) :
    Text.equalsIgnoringCase d.id.toList k.code.toList = false := by
  have hlong : 4 < d.id.toList.length := by cases d <;> decide +kernel
  have hshort := FindingKind.length_code k
  rw [Text.equalsIgnoringCase, beq_eq_false_iff_ne]
  intro heq
  have hlength := congrArg List.length heq
  rw [List.length_map, List.length_map] at hlength
  omega

end Detector

/-- Codes are told apart without their letter case. -/
theorem FindingKind.equalsIgnoringCase_code (k k' : FindingKind) :
    Text.equalsIgnoringCase k.code.toList k'.code.toList = decide (k = k') := by
  have hnodup : (all.map fun k => k.code.toList.map Char.toLower).Nodup := by decide +kernel
  rw [Text.equalsIgnoringCase, Bool.eq_iff_iff, beq_iff_eq, decide_eq_true_iff]
  constructor
  · exact fun h => List.inj_on_of_nodup_map hnodup (mem_all k) (mem_all k') h
  · rintro rfl
    rfl

/-- The codes of a detector are those of the kinds that belong to it. -/
theorem Detector.any_codes (d : Detector) (k : FindingKind) :
    (d.codes.any fun code => Text.equalsIgnoringCase code.toList k.code.toList) =
      decide (k.detector = d) := by
  rw [codes, List.any_map, Bool.eq_iff_iff, List.any_eq_true, decide_eq_true_iff]
  simp only [Function.comp_apply, FindingKind.equalsIgnoringCase_code, decide_eq_true_iff]
  constructor
  · rintro ⟨k', hk', rfl⟩
    simpa using (List.mem_filter.mp hk').2
  · intro hk
    exact ⟨k, List.mem_filter.mpr ⟨FindingKind.mem_all k, by simpa using hk⟩, rfl⟩

/-! ## Further disabled entries -/

namespace Settings

/-- The settings with further disabled entries. -/
def disabling (s : Settings) (entries : List String) : Settings :=
  { s with disable := s.disable ++ entries }

theorem selected_of_review {s : Settings} {r : Review} (h : s.review = .ok r) :
    ∃ chosen, s.selected = .ok chosen := by
  rw [review] at h
  cases hchosen : s.selected with
  | error e =>
    rw [hchosen] at h
    cases h
  | ok chosen => exact ⟨chosen, rfl⟩

/-- The review that the settings with further entries ask for: the selection stays, and detectors named by
the entries go as well. -/
theorem review_disabling {s : Settings} {chosen : List Detector} (h : s.selected = .ok chosen)
    (entries : List String) :
    (s.disabling entries).review = .ok (Review.ofDetectors ((chosen.filter fun d =>
      !s.disabledDetectors.contains d).filter fun d =>
        !(entries.filterMap fun entry => (Detector.ofName entry).toOption).contains d)) := by
  have hselected : (s.disabling entries).selected = .ok chosen := h
  rw [review, hselected]
  simp only [disabling, disabledDetectors, List.filterMap_append, List.filter_filter]
  refine congrArg (fun ds => Except.ok (Review.ofDetectors ds)) (List.filter_congr fun d _ => ?_)
  simp only [List.contains_append, Bool.not_or, Bool.and_comm]

theorem isDisabled_disabling (s : Settings) (entries : List String) (f : Finding) :
    (s.disabling entries).isDisabled f = (s.isDisabled f ||
      entries.any fun entry => Text.equalsIgnoringCase entry.toList f.code.toList) := by
  rw [isDisabled, disabling, List.any_append]
  rfl

end Settings

/-- **Disabling a detector is disabling its codes.**  The first removes the detector before the run and
the second removes findings after a run with shared removal of repeated texts; what is shown is the
same, whatever the selection and the other entries are. -/
theorem disabling_id_eq_disabling_codes {s : Settings} {r : Review} (hr : s.review = .ok r)
    (d : Detector) (sql : String) :
    ∃ byId byCodes : Review, (s.disabling [d.id]).review = .ok byId ∧
      (s.disabling d.codes).review = .ok byCodes ∧
      ((byId.run sql).filter fun f => !(s.disabling [d.id]).isDisabled f) =
        (byCodes.run sql).filter fun f => !(s.disabling d.codes).isDisabled f := by
  obtain ⟨chosen, hchosen⟩ := Settings.selected_of_review hr
  refine ⟨_, _, s.review_disabling hchosen _, s.review_disabling hchosen _, ?_⟩
  have hnamed : ([d.id].filterMap fun entry => (Detector.ofName entry).toOption) = [d] := by
    rw [List.filterMap_cons_some (by rw [Detector.ofName_id]; rfl), List.filterMap_nil]
  have hnone : (d.codes.filterMap fun entry => (Detector.ofName entry).toOption) = [] := by
    rw [Detector.codes, List.filterMap_map, List.filterMap_eq_nil_iff]
    exact fun k _ => Detector.ofName_code k
  have hid : ∀ f : Finding, (s.disabling [d.id]).isDisabled f = s.isDisabled f := by
    intro f
    rw [Settings.isDisabled_disabling, List.any_cons, List.any_nil, Finding.code,
      Detector.equalsIgnoringCase_id_code, Bool.or_false, Bool.or_false]
  have hcodes : ∀ f : Finding, (s.disabling d.codes).isDisabled f =
      (s.isDisabled f || decide (f.kind.detector = d)) := by
    intro f
    rw [Settings.isDisabled_disabling, Finding.code, Detector.any_codes]
  rw [hnamed, hnone]
  generalize chosen.filter (fun e => !s.disabledDetectors.contains e) = kept
  have hkept : (kept.filter fun e => !List.contains [] e) = kept := by simp
  rw [hkept, Review.run_filter, List.filter_filter]
  refine List.filter_congr fun f _ => ?_
  simp [hid, hcodes]

/-- Two kinds of finding that one detector reports, with one of their codes disabled before. -/
theorem disabling_id_eq_disabling_codes_defaults :
    ({ groups := ["columns"], disable := ["c002"] } : Settings).review =
      .ok ⟨[.conflictingTypes, .defaultValueConflict, .reservedWords]⟩ ∧
    Detector.defaultValueConflict.codes = ["C002", "C003", "C004"] ∧
    (Detector.defaultValueConflict.run
      "CREATE TABLE t (a VARCHAR(2) DEFAULT 'long', b INT DEFAULT 'x');").map Finding.code =
        ["C003", "C004"] ∧
    ∃ byId byCodes : Review,
      ({ groups := ["columns"], disable := ["c002", "default_value_conflict"] } : Settings).review =
        .ok byId ∧
      ({ groups := ["columns"], disable := ["c002", "C002", "C003", "C004"] } : Settings).review =
        .ok byCodes ∧
      ((byId.run "CREATE TABLE t (a VARCHAR(2) DEFAULT 'long', b INT DEFAULT 'x');").filter fun f =>
          !({ groups := ["columns"], disable := ["c002", "default_value_conflict"] } :
            Settings).isDisabled f) =
        (byCodes.run "CREATE TABLE t (a VARCHAR(2) DEFAULT 'long', b INT DEFAULT 'x');").filter fun f =>
          !({ groups := ["columns"], disable := ["c002", "C002", "C003", "C004"] } :
            Settings).isDisabled f := by
  have hreview : ({ groups := ["columns"], disable := ["c002"] } : Settings).review =
      .ok ⟨[.conflictingTypes, .defaultValueConflict, .reservedWords]⟩ := by decide +kernel
  exact ⟨hreview, by decide, by decide +kernel,
    disabling_id_eq_disabling_codes hreview .defaultValueConflict _⟩

end SchemaReview
