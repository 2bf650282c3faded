import Mathlib.Data.List.Nodup
import SchemaReview.Proofs.Detector.Spans
import SchemaReview.Review

/-!
# Proofs.Review — detectors do not interfere with each other

* `FindingKind.code_injective`, `Finding.kind_eq_of_render_eq`: no two kinds share a code, and the text
  of a finding begins with its code; so findings with the same text are of the same kind.
* `render_ne_of_detector_ne`: a detector reports only kinds that belong to it, so findings of different
  detectors have different texts.
* `Review.run_eq_flatMap`: removing repeated texts from the findings of all detectors removes them
  from the findings of each.
* `Review.run_filter`: selecting fewer detectors removes the findings of the others and nothing else.
* `reviews_do_not_interfere`: what a review shows of one detector is the same in every selection.
-/

namespace SchemaReview

/-! ## The text of a finding shows its kind -/

namespace FindingKind

theorem mem_all (k : FindingKind) : k ∈ all := by
  cases k <;> decide

theorem code_injective : Function.Injective code := by
  have hnodup : (all.map code).Nodup := by decide
  intro k k' h
  exact List.inj_on_of_nodup_map hnodup (mem_all k) (mem_all k') h

theorem length_code (k : FindingKind) : k.code.toList.length = 4 := by
  cases k <;> rfl

end FindingKind

theorem Finding.take_toList_render (f : Finding) :
    f.render.toList.take 5 = '[' :: f.kind.code.toList := by
  have hopen : ("[" : String).toList = ['['] := rfl
  have hlen : f.code.toList.length = 4 := FindingKind.length_code f.kind
  rw [Finding.render]
  simp only [String.toList_append, hopen, List.append_assoc, List.cons_append, List.nil_append,
    List.take_succ_cons, List.take_left' hlen]
  rfl

theorem Finding.kind_eq_of_render_eq {f g : Finding} (h : f.render = g.render) : f.kind = g.kind := by
  have hcode : '[' :: f.kind.code.toList = '[' :: g.kind.code.toList := by
    rw [← take_toList_render, ← take_toList_render, h]
  rw [List.cons.injEq] at hcode
  exact FindingKind.code_injective (String.toList_injective hcode.2)

/-! ## Reviews -/

/-- Findings of different detectors have different texts. -/
theorem render_ne_of_detector_ne {s : Source} {d d' : Detector} (hne : d ≠ d') {f g : Finding}
    (hf : f ∈ d.find s) (hg : g ∈ d'.find s) : f.render ≠ g.render := by
  intro hrender
  apply hne
  rw [← Detector.detector_of_mem_find hf, ← Detector.detector_of_mem_find hg,
    Finding.kind_eq_of_render_eq hrender]

theorem Review.run_eq_flatMap (ds : List Detector) (sql : String) :
    (Review.ofDetectors ds).run sql =
      (distinct ds).flatMap fun d => firstBy Finding.render (d.run sql) := by
  refine firstBy_flatMap Finding.render ?_
  refine (nodup_distinct ds).imp ?_
  intro d d' hne f hf g hg
  exact render_ne_of_detector_ne hne hf hg

/-- Of a list of detectors without repetitions, one detector contributes its own findings. -/
theorem filter_flatMap_detector {F : Detector → List Finding}
    (hF : ∀ d, ∀ f ∈ F d, f.kind.detector = d) {ds : List Detector} (hnodup : ds.Nodup) {d : Detector}
    (hd : d ∈ ds) : (ds.flatMap F).filter (fun f => f.kind.detector = d) = F d := by
  have hown : ∀ e, (F e).filter (fun f => f.kind.detector = d) = if e = d then F d else [] := by
    intro e
    by_cases he : e = d
    · subst he
      rw [if_pos rfl, List.filter_eq_self]
      intro f hf
      simpa using hF e f hf
    · rw [if_neg he, List.filter_eq_nil_iff]
      intro f hf
      rw [hF e f hf]
      simpa using he
  rw [List.filter_flatMap]
  simp only [hown]
  obtain ⟨before, after, rfl⟩ := List.append_of_mem hd
  rw [List.nodup_append, List.nodup_cons] at hnodup
  have hbefore : ∀ e ∈ before, (if e = d then F d else []) = [] := by
    intro e he
    exact if_neg fun hed => hnodup.2.2 e he d List.mem_cons_self hed
  have hafter : ∀ e ∈ after, (if e = d then F d else []) = [] := by
    intro e he
    refine if_neg ?_
    rintro rfl
    exact hnodup.2.1.1 he
  rw [List.flatMap_append, List.flatMap_cons, if_pos rfl, List.flatMap_eq_nil_iff.mpr hbefore,
    List.flatMap_eq_nil_iff.mpr hafter, List.nil_append, List.append_nil]

theorem Review.filter_run (ds : List Detector) (sql : String) {d : Detector} (hd : d ∈ ds) :
    ((Review.ofDetectors ds).run sql).filter (fun f => f.kind.detector = d) =
      firstBy Finding.render (d.run sql) := by
  rw [Review.run_eq_flatMap]
  refine filter_flatMap_detector (F := fun d => firstBy Finding.render (d.run sql)) ?_
    (nodup_distinct ds) (mem_distinct.mpr hd)
  intro e f hf
  exact Detector.detector_of_mem_find (mem_of_mem_firstBy Finding.render hf)

/-- A review of fewer detectors is the review without the findings of the others. -/
theorem Review.run_filter (p : Detector → Bool) (ds : List Detector) (sql : String) :
    (Review.ofDetectors (ds.filter p)).run sql =
      ((Review.ofDetectors ds).run sql).filter fun f => p f.kind.detector := by
  have hown : ∀ d, ((firstBy Finding.render (d.run sql)).filter fun f => p f.kind.detector) =
      if p d then firstBy Finding.render (d.run sql) else [] := by
    intro d
    have hd : ∀ f ∈ firstBy Finding.render (d.run sql), f.kind.detector = d := by
      intro f hf
      exact Detector.detector_of_mem_find (mem_of_mem_firstBy Finding.render hf)
    by_cases hp : p d = true
    · rw [if_pos hp, List.filter_eq_self]
      intro f hf
      rw [hd f hf, hp]
    · rw [if_neg hp, List.filter_eq_nil_iff]
      intro f hf
      rw [hd f hf]
      exact hp
  rw [Review.run_eq_flatMap, Review.run_eq_flatMap, distinct_filter, List.filter_flatMap]
  simp only [hown]
  induction distinct ds with
  | nil => rfl
  | cons d ds ih =>
    by_cases hp : p d = true
    · rw [List.filter_cons_of_pos hp, List.flatMap_cons, List.flatMap_cons, if_pos hp, ih]
    · rw [List.filter_cons_of_neg hp, List.flatMap_cons, if_neg hp, List.nil_append, ih]

/-- **Detectors do not interfere.**  A review gives, detector by detector, the findings of each with
repeated texts removed.  So it shows the same findings of a detector in every selection, and no
finding goes because another detector has one with the same text. -/
theorem reviews_do_not_interfere (sql : String) :
    (∀ ds, (Review.ofDetectors ds).run sql =
      ds.eraseDups.flatMap fun d => (d.run sql).eraseDupsBy fun f g => f.render == g.render) ∧
    (∀ d ds ds', d ∈ ds → d ∈ ds' →
      ((Review.ofDetectors ds).run sql).filter (fun f => f.kind.detector = d) =
        ((Review.ofDetectors ds').run sql).filter fun f => f.kind.detector = d) ∧
    ∀ d d' : Detector, d ≠ d' → ∀ f ∈ d.run sql, ∀ g ∈ d'.run sql, f.render ≠ g.render := by
  refine ⟨?_, ?_, ?_⟩
  · intro ds
    rw [Review.run_eq_flatMap, distinct_eq_eraseDups]
    simp only [firstBy_eq_eraseDupsBy]
  · intro d ds ds' hd hd'
    rw [Review.filter_run ds sql hd, Review.filter_run ds' sql hd']
  · intro d d' hne f hf g hg
    exact render_ne_of_detector_ne hne hf hg

/-- A table that is isolated and has no key: two detectors report it, each in its own words. -/
theorem reviews_do_not_interfere_isolated :
    (Detector.missingPotentialKeys ∈ [Detector.tablesWithoutRelations, .missingPotentialKeys] ∧
      Detector.missingPotentialKeys ∈ [Detector.missingPotentialKeys, .missingPotentialKeys]) ∧
    Detector.tablesWithoutRelations.run "CREATE TABLE t (a INT);" ≠ [] ∧
    Detector.missingPotentialKeys.run "CREATE TABLE t (a INT);" ≠ [] ∧
    ((Review.ofDetectors [.tablesWithoutRelations, .missingPotentialKeys]).run
        "CREATE TABLE t (a INT);").filter (fun f => f.kind.detector = .missingPotentialKeys) =
      ((Review.ofDetectors [.missingPotentialKeys, .missingPotentialKeys]).run
        "CREATE TABLE t (a INT);").filter (fun f => f.kind.detector = .missingPotentialKeys) :=
  ⟨⟨by decide, by decide⟩, by decide +kernel, by decide +kernel,
    (reviews_do_not_interfere _).2.1 _ _ _ (by decide) (by decide)⟩

end SchemaReview
