import SchemaReview.Proofs.Ddl.BoundedRange
import SchemaReview.Proofs.Sequence

/-!
# Proofs.Ddl.Contradiction — which comparisons are reported as contradictory

A check of comparisons is contradictory when a column has to be below one number and above a greater
one.  The classification looks at the first range whose two columns agree, wherever it stands.

* What is reported is a contradiction of one conjunction, which no values make true.  So the whole check
  is always false when there is no `OR` in it (`contradiction_unsatisfiable`), but not in general:
  `satisfiable_contradiction`.
* In a conjunction something is reported exactly when the first neighbours that bound one column from
  above and from below contradict each other (`contradiction_reported_iff`).  A later contradiction is
  not seen: `contradiction_missed`.
-/

namespace SchemaReview

open Text

/-! ## What is found, by its neighbours -/

theorem natBelow?_eq_some {bound n : Nat} {t : Text} (h : natBelow? bound t = some n) :
    digitsValue t = n := by
  unfold natBelow? at h
  dsimp only at h
  split at h
  · split at h
    · exact Option.some.inj h
    · cases h
  · cases h

/-- A contradiction is read from a range whose columns agree. -/
theorem exists_of_classifyCheck {t : Text} {column : String} {upper lower : Nat}
    (h : classifyCheck t = some (.contradiction column upper lower)) :
    ∃ m ∈ Pattern.boundedRange.findRuns .word t,
      equalsIgnoringCase (m.groupText 1) (m.groupText 3) = true ∧ column = m.groupString 1 ∧
      digitsValue (m.groupText 2) = upper ∧ digitsValue (m.groupText 4) = lower ∧ upper < lower := by
  unfold classifyCheck at h
  dsimp only at h
  split at h
  · cases h
  split at h
  · cases h
  split at h
  · cases h
  simp only [Option.bind_eq_bind, Option.bind_eq_some_iff] at h
  obtain ⟨m, hm, n, hn, k, hk, h⟩ := h
  split at h
  · rename_i hlt
    cases h
    have hagree : equalsIgnoringCase (m.groupText 1) (m.groupText 3) = true := by
      simpa using List.find?_some hm
    exact ⟨m, List.mem_of_find?_eq_some hm, hagree, rfl, natBelow?_eq_some hn, natBelow?_eq_some hk,
      hlt⟩
  · cases h

/-- The comparisons stand side by side, the first one at the place `i`. -/
structure Conjunction.Neighbours (e : Conjunction) (i : Nat) (l u : Comparison) : Prop where
  here : e.parts[i]? = some l
  next : e.parts[i + 1]? = some u

theorem Conjunction.neighbours_iff {e : Conjunction} {i : Nat} {l u : Comparison} :
    e.Neighbours i l u ↔ e.parts.consecutivePairs[i]? = some (l, u) := by
  rw [List.getElem?_zip_eq_some, List.getElem?_tail]
  exact ⟨fun h => ⟨h.here, h.next⟩, fun h => ⟨h.1, h.2⟩⟩

theorem Conjunction.exists_neighbours_of_mem_ranges {e : Conjunction} {l u : Comparison}
    (h : (l, u) ∈ e.ranges) : ∃ i, e.Neighbours i l u := by
  obtain ⟨i, hi⟩ := List.mem_iff_getElem?.mp (List.mem_filter.mp h).1
  exact ⟨i, neighbours_iff.mpr hi⟩

/-! ## Soundness -/

/-- The comparison says on which side of the number the column is. -/
structure Comparison.Says (c : Comparison) (sign : Sign) (column : Text) (n : Nat) : Prop where
  sign_eq : c.sign = sign
  column_eq : equalsIgnoringCase c.column column = true
  value_eq : c.value = n

theorem Comparison.Says.compares {c : Comparison} {sign : Sign} {column : Text} {n : Nat}
    (h : c.Says sign column n) {values : Text → Int} (hc : c.Holds values) :
    sign.Compares (values column.foldCase) n := by
  have hcolumn : c.column.foldCase = column.foldCase := by
    simpa [equalsIgnoringCase_eq] using h.column_eq
  rw [← h.sign_eq, ← hcolumn, ← h.value_eq]
  exact hc

/-- No values are below one number and above a greater one. -/
theorem Conjunction.Neighbours.not_holds {e : Conjunction} {i : Nat} {l u : Comparison}
    (h : e.Neighbours i l u) {column : Text} {upper lower : Nat} (hupper : l.Says .less column upper)
    (hlower : u.Says .greater column lower) (hlt : upper < lower) (values : Text → Int) :
    ¬ Conjunction.Holds values e := by
  intro he
  have hbelow : values column.foldCase < upper :=
    hupper.compares (he l (List.mem_of_getElem? h.here))
  have habove : (lower : Int) < values column.foldCase :=
    hlower.compares (he u (List.mem_of_getElem? h.next))
  omega

/-- A range with one column that was read says that it is below the one number and above the other. -/
theorem Match.Reads.below_and_above {m : Match} {l u : Comparison} (h : m.Reads (l, u))
    (hrange : IsRange (l, u) = true)
    (hagree : equalsIgnoringCase (m.groupText 1) (m.groupText 3) = true) :
    l.Says .less l.column (digitsValue (m.groupText 2)) ∧
      u.Says .greater l.column (digitsValue (m.groupText 4)) := by
  obtain ⟨hless, hgreater⟩ := isRange_iff.mp hrange
  rw [h.upperColumn, h.lowerColumn, equalsIgnoringCase_eq, BEq.comm, ← equalsIgnoringCase_eq] at hagree
  rw [h.upper, h.lower]
  refine ⟨⟨hless, ?_, rfl⟩, ⟨hgreater, hagree, rfl⟩⟩
  rw [equalsIgnoringCase_eq, beq_self_eq_true]

/-- **A reported contradiction is one of a conjunction**: it has the two comparisons side by side, and no
values make it true.  So a check without `OR` is always false. -/
theorem contradiction_unsatisfiable (e : Disjunction) {column : String} {upper lower : Nat}
    (h : classifyCheck e.text = some (.contradiction column upper lower)) :
    upper < lower ∧ ∃ conj ∈ e.parts,
      (∃ i l u, conj.Neighbours i l u ∧ l.column = column.toList ∧
        l.Says .less column.toList upper ∧ u.Says .greater column.toList lower) ∧
      (∀ values, ¬ Conjunction.Holds values conj) ∧
      (e.others = [] → ∀ values, ¬ Disjunction.Holds values e) := by
  obtain ⟨m, hm, hagree, rfl, rfl, rfl, hlt⟩ := exists_of_classifyCheck h
  obtain ⟨⟨l, u⟩, hmem, hreads⟩ := exists_of_forall₂ (Pattern.findRuns_boundedRange e) hm
  obtain ⟨conj, hconj, hrange⟩ := List.mem_flatMap.mp hmem
  obtain ⟨i, hneighbours⟩ := Conjunction.exists_neighbours_of_mem_ranges hrange
  obtain ⟨hupper, hlower⟩ := hreads.below_and_above (List.mem_filter.mp hrange).2 hagree
  have hcolumn : l.column = (m.groupString 1).toList := by
    rw [Match.groupString, String.toList_ofList, hreads.upperColumn]
  have hfalse : ∀ values, ¬ Conjunction.Holds values conj :=
    hneighbours.not_holds hupper hlower hlt
  rw [hcolumn] at hupper hlower
  refine ⟨hlt, conj, hconj, ⟨i, l, u, hneighbours, hcolumn, hupper, hlower⟩, hfalse, ?_⟩
  rintro hnone values ⟨other, hother, hholds⟩
  have hparts : e.parts = [e.first] := by rw [Joined.parts, hnone, List.map_nil]
  rw [hparts, List.mem_singleton] at hconj hother
  rw [hother, ← hconj] at hholds
  exact hfalse values hholds

/-- `age < 10 AND AGE > 20`. -/
def impossibleAge : Conjunction :=
  ⟨{ column := ['a', 'g', 'e'], sign := .less, bound := ['1', '0'] },
    [({ }, { column := ['A', 'G', 'E'], sign := .greater, bound := ['2', '0'] })]⟩

theorem contradiction_unsatisfiable_impossibleAge :
    classifyCheck (Disjunction.text ⟨impossibleAge, []⟩) = some (.contradiction "age" 10 20) ∧
      ∀ values, ¬ Disjunction.Holds values ⟨impossibleAge, []⟩ := by
  have hclass : classifyCheck (Disjunction.text ⟨impossibleAge, []⟩) =
      some (.contradiction "age" 10 20) := by decide +kernel
  obtain ⟨-, -, -, -, -, hfalse⟩ := contradiction_unsatisfiable ⟨impossibleAge, []⟩ hclass
  exact ⟨hclass, hfalse rfl⟩

/-- `a < 1 AND a > 2 OR b > 0`. -/
def wayOut : Disjunction :=
  ⟨⟨{ column := ['a'], sign := .less, bound := ['1'] },
      [({ }, { column := ['a'], sign := .greater, bound := ['2'] })]⟩,
    [({ }, ⟨{ column := ['b'], sign := .greater, bound := ['0'] }, []⟩)]⟩

/-- A check that holds as soon as `b` is positive is reported as always false. -/
theorem satisfiable_contradiction :
    wayOut.text = "a < 1 AND a > 2 OR b > 0".toList ∧
      classifyCheck wayOut.text = some (.contradiction "a" 1 2) ∧
      Disjunction.Holds (fun _ => 1) wayOut := by
  refine ⟨by decide +kernel, by decide +kernel, ⟨_, List.mem_cons_of_mem _ List.mem_cons_self, ?_⟩⟩
  intro c hc
  obtain rfl := List.mem_singleton.mp hc
  decide

/-! ## Completeness for conjunctions -/

/-- A pattern that takes a character of a class in every case does not match a text without one. -/
theorem Pattern.matchAt_eq_none_of_spends {p : Pattern} (cls : CharClass) (hp : p.spends cls = true)
    {c : Cursor} (hc : ∀ x ∈ c.rest, cls.holds x = false) : p.matchAt c = none := by
  cases hm : p.matchAt c with
  | none => rfl
  | some m =>
    obtain ⟨d, g, htakes, -⟩ := exists_of_run hm
    obtain ⟨w, hw, x, hx, hholds⟩ := htakes.exists_of_spends cls hp
    have hnot : cls.holds x = false := hc x (by rw [hw.rest]; exact List.mem_append_left _ hx)
    rw [hholds] at hnot
    cases hnot

/-- The characters that comparisons and connectives are written with. -/
def isPlain (x : Char) : Bool := isWord x || isBlank x || x == '<' || x == '>'

theorem Comparison.isPlain_text (c : Comparison) : ∀ x ∈ c.text, isPlain x = true := by
  have hsign : isPlain c.sign.char = true := by cases c.sign <;> decide
  have hword : ∀ x, isWord x = true → isPlain x = true := fun x hx => by simp [isPlain, hx]
  have hblank : ∀ x, isBlank x = true → isPlain x = true := fun x hx => by simp [isPlain, hx]
  intro x hx
  simp only [Comparison.text, List.mem_append, List.mem_cons] at hx
  rcases hx with hx | hx | rfl | hx | hx
  · exact hword x (c.column_word x hx)
  · exact hblank x (c.lead_blank x hx)
  · exact hsign
  · exact hblank x (c.trail_blank x hx)
  · exact hword x (c.word_bound x hx)

theorem Joiner.isPlain_text {k : Connective} (j : Joiner k) : ∀ x ∈ j.text, isPlain x = true := by
  intro x hx
  simp only [Joiner.text, List.mem_append] at hx
  rcases hx with hx | hx | hx
  · simp [isPlain, j.before_blank x hx]
  · simp [isPlain, j.word_isWord x hx]
  · simp [isPlain, j.after_blank x hx]

theorem Conjunction.isPlain_text (e : Conjunction) : ∀ x ∈ e.text, isPlain x = true := by
  intro x hx
  rcases List.mem_append.mp hx with hx | hx
  · exact e.first.isPlain_text x hx
  · obtain ⟨o, -, ho⟩ := List.mem_flatMap.mp hx
    rcases List.mem_append.mp ho with ho | ho
    · exact o.1.isPlain_text x ho
    · exact o.2.isPlain_text x ho

/-- A pattern that needs a character of another kind does not match. -/
theorem Conjunction.matchAt_eq_none (e : Conjunction) {p : Pattern} {s : Char}
    (hs : isPlain s = false) (hp : p.spends (.oneOf [s]) = true) :
    p.matchAt (Cursor.atStart e.text) = none := by
  refine Pattern.matchAt_eq_none_of_spends (.oneOf [s]) hp fun x hx => ?_
  by_contra hholds
  rw [Bool.not_eq_false, Pattern.holds_char_iff] at hholds
  have hplain := e.isPlain_text x hx
  rw [hholds, hs] at hplain
  cases hplain

theorem Conjunction.findRuns_boundedRange (e : Conjunction) :
    List.Forall₂ Match.Reads (Pattern.boundedRange.findRuns .word e.text) e.ranges := by
  have hdisjunction := Pattern.findRuns_boundedRange ⟨e, []⟩
  simpa [Disjunction.text, Joined.textBy, Joined.parts] using hdisjunction

theorem rel_find?_of_forall₂ {α β : Type} {r : α → β → Prop} {p : α → Bool} {q : β → Bool}
    (hpq : ∀ x y, r x y → p x = q y) {xs : List α} {ys : List β} (h : List.Forall₂ r xs ys) :
    Option.Rel r (xs.find? p) (ys.find? q) := by
  induction h with
  | nil => exact .none
  | @cons x y xs ys hxy _ ih =>
    rw [List.find?_cons, List.find?_cons, hpq x y hxy]
    cases q y with
    | true => exact .some hxy
    | false => exact ih

theorem Comparison.natBelow?_bound (c : Comparison) {n : Nat} (h : c.value < n) :
    natBelow? n c.bound = some c.value := by
  have hlt : digitsValue c.bound < n := h
  simp [natBelow?, c.bound_all, c.bound_ne_nil, hlt, value]

/-- The columns of the range are the same, apart from case. -/
def SameColumn (r : Comparison × Comparison) : Bool := equalsIgnoringCase r.1.column r.2.column

/-- Comparisons belong to none of the classes that come before contradictions. -/
theorem classifyCheck_text (e : Conjunction) : classifyCheck e.text =
    ((Pattern.boundedRange.findRuns .word e.text).find? fun m =>
        equalsIgnoringCase (m.groupText 1) (m.groupText 3)).bind fun m =>
      (natBelow? (2 ^ 128) (m.groupText 2)).bind fun upper =>
        (natBelow? (2 ^ 128) (m.groupText 4)).bind fun lower =>
          if upper < lower then some (.contradiction (m.groupString 1) upper lower) else none := by
  have hlist : Pattern.singleValueIn.matchAt (Cursor.atStart e.text) = none :=
    e.matchAt_eq_none (s := '(') (by decide) (by decide)
  have hsign : Pattern.nonNegative.matchAt (Cursor.atStart e.text) = none :=
    e.matchAt_eq_none (s := '=') (by decide) (by decide)
  have hdigit : Pattern.tautology.matchAt (Cursor.atStart e.text) = none :=
    e.matchAt_eq_none (s := '=') (by decide) (by decide)
  unfold classifyCheck
  dsimp only
  rw [hlist, hsign, hdigit]
  rfl

/-- Of a conjunction, the first range with one column decides. -/
theorem classifyCheck_conjunction (e : Conjunction) (hbelow : ∀ c ∈ e.parts, c.value < 2 ^ 128) :
    classifyCheck e.text = (e.ranges.find? SameColumn).bind fun r =>
      if r.1.value < r.2.value then
        some (.contradiction (String.ofList r.1.column) r.1.value r.2.value)
      else none := by
  have hrel := rel_find?_of_forall₂ (p := fun m => equalsIgnoringCase (m.groupText 1) (m.groupText 3))
    (q := SameColumn) (fun m r hr => by rw [SameColumn, hr.upperColumn, hr.lowerColumn])
    e.findRuns_boundedRange
  rw [classifyCheck_text]
  -- the first match whose columns agree has read the first range whose columns agree
  generalize hfirst : e.ranges.find? SameColumn = first at hrel
  generalize (Pattern.boundedRange.findRuns .word e.text).find? (fun m =>
    equalsIgnoringCase (m.groupText 1) (m.groupText 3)) = m at hrel
  cases hrel with
  | none => rfl
  | @some m r hreads =>
    obtain ⟨i, hneighbours⟩ :=
      Conjunction.exists_neighbours_of_mem_ranges (List.mem_of_find?_eq_some hfirst)
    have hupper := r.1.natBelow?_bound (hbelow r.1 (List.mem_of_getElem? hneighbours.here))
    have hlower := r.2.natBelow?_bound (hbelow r.2 (List.mem_of_getElem? hneighbours.next))
    simp only [Option.bind_some, Match.groupString, hreads.upperColumn, hreads.upper, hreads.lower,
      hupper, hlower]

/-- The comparisons bound one column from above and from below. -/
structure Comparison.Opposes (l u : Comparison) : Prop where
  less : l.sign = .less
  greater : u.sign = .greater
  column : equalsIgnoringCase l.column u.column = true

theorem opposes_iff {r : Comparison × Comparison} :
    r.1.Opposes r.2 ↔ IsRange r = true ∧ SameColumn r = true := by
  rw [isRange_iff]
  exact ⟨fun h => ⟨⟨h.less, h.greater⟩, h.column⟩, fun h => ⟨h.1.1, h.1.2, h.2⟩⟩

/-- The range that decides is the first one among the neighbours. -/
theorem Conjunction.find?_ranges_eq_some_iff {e : Conjunction} {l u : Comparison} :
    e.ranges.find? SameColumn = some (l, u) ↔
      ∃ i, e.Neighbours i l u ∧ l.Opposes u ∧
        ∀ j < i, ∀ l' u', e.Neighbours j l' u' → ¬ l'.Opposes u' := by
  rw [ranges, List.find?_filter, List.find?_eq_some_iff_getElem]
  simp only [decide_eq_true_eq, Bool.not_eq_true', decide_eq_false_iff_not, ← opposes_iff]
  constructor
  · rintro ⟨hopposes, i, hi, hpair, hfirst⟩
    refine ⟨i, neighbours_iff.mpr (List.getElem?_eq_some_iff.mpr ⟨hi, hpair⟩), hopposes, ?_⟩
    intro j hj l' u' hneighbours
    obtain ⟨hj', hpair'⟩ := List.getElem?_eq_some_iff.mp (neighbours_iff.mp hneighbours)
    have hnot := hfirst j hj
    rwa [hpair'] at hnot
  · rintro ⟨i, hneighbours, hopposes, hfirst⟩
    obtain ⟨hi, hpair⟩ := List.getElem?_eq_some_iff.mp (neighbours_iff.mp hneighbours)
    refine ⟨hopposes, i, hi, hpair, ?_⟩
    intro j hj
    exact hfirst j hj _ _ (neighbours_iff.mpr (List.getElem?_eq_getElem _))

/-- **A contradiction of a conjunction is reported exactly when it is the first to be looked at**: the
first neighbours that bound one column from above and from below contradict each other. -/
theorem contradiction_reported_iff (e : Conjunction) (hbelow : ∀ c ∈ e.parts, c.value < 2 ^ 128) :
    (∃ column upper lower, classifyCheck e.text = some (.contradiction column upper lower)) ↔
      ∃ i l u, e.Neighbours i l u ∧ l.Opposes u ∧ l.value < u.value ∧
        ∀ j < i, ∀ l' u', e.Neighbours j l' u' → ¬ l'.Opposes u' := by
  rw [classifyCheck_conjunction e hbelow]
  constructor
  · rintro ⟨column, upper, lower, h⟩
    obtain ⟨⟨l, u⟩, hfirst, h⟩ := Option.bind_eq_some_iff.mp h
    obtain ⟨i, hneighbours, hopposes, hbefore⟩ := Conjunction.find?_ranges_eq_some_iff.mp hfirst
    split at h
    · rename_i hlt
      exact ⟨i, l, u, hneighbours, hopposes, hlt, hbefore⟩
    · cases h
  · rintro ⟨i, l, u, hneighbours, hopposes, hlt, hbefore⟩
    rw [Conjunction.find?_ranges_eq_some_iff.mpr ⟨i, hneighbours, hopposes, hbefore⟩]
    exact ⟨String.ofList l.column, l.value, u.value, if_pos hlt⟩

/-- `b < 1 AND a > 2 AND a < 3 AND A > 4`. -/
def laterRange : Conjunction :=
  ⟨{ column := ['b'], sign := .less, bound := ['1'] },
    [({ }, { column := ['a'], sign := .greater, bound := ['2'] }),
      ({ }, { column := ['a'], sign := .less, bound := ['3'] }),
      ({ }, { column := ['A'], sign := .greater, bound := ['4'] })]⟩

theorem contradiction_reported_laterRange :
    (∀ c ∈ laterRange.parts, c.value < 2 ^ 128) ∧
      ∃ column upper lower,
        classifyCheck laterRange.text = some (.contradiction column upper lower) := by
  have hbelow : ∀ c ∈ laterRange.parts, c.value < 2 ^ 128 := by decide
  refine ⟨hbelow, (contradiction_reported_iff laterRange hbelow).mpr ⟨2, _, _, ⟨rfl, rfl⟩, ?_, ?_, ?_⟩⟩
  · exact ⟨rfl, rfl, by decide⟩
  · decide
  · rintro (_ | _ | j) hj l' u' ⟨hhere, hnext⟩ hopposes
    · cases hhere
      cases hnext
      exact absurd hopposes.column (by decide)
    · cases hhere
      exact absurd hopposes.less (by decide)
    · omega

/-- `a < 20 AND a > 10 AND b < 1 AND b > 2`. -/
def hiddenRange : Conjunction :=
  ⟨{ column := ['a'], sign := .less, bound := ['2', '0'] },
    [({ }, { column := ['a'], sign := .greater, bound := ['1', '0'] }),
      ({ }, { column := ['b'], sign := .less, bound := ['1'] }),
      ({ }, { column := ['b'], sign := .greater, bound := ['2'] })]⟩

/-- A contradiction behind a range that can be met is not seen. -/
theorem contradiction_missed :
    hiddenRange.text = "a < 20 AND a > 10 AND b < 1 AND b > 2".toList ∧
      (∃ i l u, hiddenRange.Neighbours i l u ∧ l.Opposes u ∧ l.value < u.value) ∧
      classifyCheck hiddenRange.text = none := by
  refine ⟨by decide +kernel, ⟨2, _, _, ⟨rfl, rfl⟩, ⟨rfl, rfl, by decide⟩, by decide⟩, by decide +kernel⟩

end SchemaReview
