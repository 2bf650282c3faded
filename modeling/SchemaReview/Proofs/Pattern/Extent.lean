import SchemaReview.Proofs.Pattern.Occurrence

/-!
# Proofs.Pattern.Extent — what every match of a pattern has

* No match is shorter than `Pattern.least`, so a match of a keyword has the bytes of the keyword:
  `exists_append_of_matchAt`.
* A match remembers something under every number that the pattern keeps: `isSome_group?`.
* What it remembers under a number has no character that those parts of the pattern stop at:
  `not_mem_groupText`.
* What a match remembers is no longer than the text it was found in: `byteSize_groupText_le`.
-/

namespace SchemaReview

open Text

namespace Pattern

variable {p : Pattern} {c d : Cursor} {g h : Captures} {m : Match}

/-! ## The length of a match -/

/-- The fewest characters that a match can have. -/
def least : Pattern → Nat
  | .one _ => 1
  | .seq p q => p.least + q.least
  | .alt p q => min p.least q.least
  | .group _ p => p.least
  | .empty | .many _ | .star _ | .wordEdge | .textStart | .textEnd => 0

theorem Takes.le_offset (hp : p.Takes c g d h) : c.offset ≤ d.offset := by
  obtain ⟨w, hw, -⟩ := hp.exists_passes
  rw [hw.offset]
  exact Nat.le_add_right _ _

theorem Takes.least_le (hp : p.Takes c g d h) : c.offset + p.least ≤ d.offset := by
  induction hp with
  | empty | starStop | wordEdge | textStart | textEnd => exact le_rfl
  | @one cls c g x xs hrest hx =>
    have hpos := x.utf8Size_pos
    show c.offset + 1 ≤ c.offset + x.utf8Size
    omega
  | seq _ _ ihp ihq =>
    rw [least]
    omega
  | altLeft _ ih | altRight _ ih =>
    rw [least]
    omega
  | many hw hall => exact (Takes.many (g := []) hw hall).le_offset
  | starStep hp hrest => exact (Takes.starStep hp hrest).le_offset
  | group _ ih => exact ih

/-- A match stands in the text, and has at least the characters that the pattern asks for. -/
theorem exists_append_of_matchAt {t : Text} (hin : Cursor.In t m.start)
    (hm : p.matchAt m.start = some m) :
    ∃ before mid, t = before ++ mid ++ m.stop.rest ∧ byteSize before = m.start.offset ∧
      byteSize before + byteSize mid = m.stop.offset ∧ p.least ≤ byteSize mid := by
  obtain ⟨w, hw⟩ := hin
  have hp := (takes_of_matchAt hm).2
  obtain ⟨v, hv, -⟩ := hp.exists_passes
  have hleast := hp.least_le
  have hstart : m.start.offset = 0 + byteSize w := hw.offset
  have hstop := hv.offset
  have ht : t = w ++ m.start.rest := hw.rest
  refine ⟨w, v, ?_, by omega, by omega, by omega⟩
  rw [ht, hv.rest, List.append_assoc]

/-- Matches that are not empty begin one behind the other. -/
theorem pairwise_start_findAll (hp : 0 < p.least) (t : Text) :
    (p.findAll t).Pairwise fun a b => a.start.offset < b.start.offset := by
  refine (pairwise_findAll p t).imp_of_mem fun {a b} ha _ hab => ?_
  have hleast := (takes_of_matchAt (matchAt_of_mem_findAll ha).2).2.least_le
  omega

/-! ## What is remembered -/

/-- Every match remembers something under the number. -/
def keeps (n : Nat) : Pattern → Bool
  | .group i p => i == n || p.keeps n
  | .seq p q => p.keeps n || q.keeps n
  | .alt p q => p.keeps n && q.keeps n
  | _ => false

/-- What has been remembered stays so. -/
theorem Takes.isSome_lookup_mono {n : Nat} (hp : p.Takes c g d h)
    (hg : (g.lookup n).isSome = true) : (h.lookup n).isSome = true := by
  induction hp with
  | empty | one | many | starStop | wordEdge | textStart | textEnd => exact hg
  | seq _ _ ihp ihq => exact ihq (ihp hg)
  | altLeft _ ih | altRight _ ih => exact ih hg
  | starStep _ _ ihp ihrest => exact ihrest (ihp hg)
  | group _ ih =>
    rw [List.lookup_cons]
    split
    · rfl
    · exact ih hg

theorem Takes.isSome_lookup {n : Nat} (hp : p.Takes c g d h) (hkeeps : p.keeps n = true) :
    (h.lookup n).isSome = true := by
  induction hp with
  | empty | one | many | starStop | starStep | wordEdge | textStart | textEnd => cases hkeeps
  | seq _ hq ihp ihq =>
    rw [keeps, Bool.or_eq_true] at hkeeps
    rcases hkeeps with hkeeps | hkeeps
    · exact hq.isSome_lookup_mono (ihp hkeeps)
    · exact ihq hkeeps
  | altLeft _ ih =>
    rw [keeps, Bool.and_eq_true] at hkeeps
    exact ih hkeeps.1
  | altRight _ ih =>
    rw [keeps, Bool.and_eq_true] at hkeeps
    exact ih hkeeps.2
  | @group i _ _ _ _ _ _ ih =>
    rw [List.lookup_cons]
    split
    · rfl
    · rename_i hne
      rw [keeps, Bool.or_eq_true] at hkeeps
      rcases hkeeps with hkeeps | hkeeps
      · rw [beq_iff_eq] at hkeeps
        exact absurd hkeeps.symm (by simpa using hne)
      · exact ih hkeeps

theorem isSome_group? {n : Nat} (hm : p.matchAt c = some m) (hkeeps : p.keeps n = true) :
    (m.group? n).isSome = true :=
  (takes_of_matchAt hm).2.isSome_lookup hkeeps

/-- What is remembered under the number stops at the character. -/
def keepsOut (n : Nat) (x : Char) : Pattern → Bool
  | .group i p => (i != n || p.stopsAt x) && p.keepsOut n x
  | .seq p q | .alt p q => p.keepsOut n x && q.keepsOut n x
  | .star p => p.keepsOut n x
  | .empty | .one _ | .many _ | .wordEdge | .textStart | .textEnd => true

theorem Takes.not_mem_text {n : Nat} {x : Char} (hp : p.Takes c g d h) (hkeeps : p.keepsOut n x = true)
    (hg : ∀ entry ∈ g, entry.1 = n → x ∉ entry.2.text) :
    ∀ entry ∈ h, entry.1 = n → x ∉ entry.2.text := by
  induction hp with
  | empty | one | many | starStop | wordEdge | textStart | textEnd => exact hg
  | seq _ _ ihp ihq =>
    rw [keepsOut, Bool.and_eq_true] at hkeeps
    exact ihq hkeeps.2 (ihp hkeeps.1 hg)
  | altLeft _ ih =>
    rw [keepsOut, Bool.and_eq_true] at hkeeps
    exact ih hkeeps.1 hg
  | altRight _ ih =>
    rw [keepsOut, Bool.and_eq_true] at hkeeps
    exact ih hkeeps.2 hg
  | starStep _ _ ihp ihrest => exact ihrest hkeeps (ihp hkeeps hg)
  | @group i p c d g h hp ih =>
    rw [keepsOut, Bool.and_eq_true, Bool.or_eq_true, bne_iff_ne] at hkeeps
    refine List.forall_mem_cons.mpr ⟨fun hi => ?_, ih hkeeps.2 hg⟩
    obtain ⟨w, hw, hstop⟩ := hp.exists_passes
    have htext : Capture.text ⟨c.offset, d.offset, c.rest⟩ = w := by
      rw [hw.offset, hw.rest, Capture.text_of_append]
    rw [htext]
    exact hstop x (hkeeps.1.resolve_left (not_not_intro hi))

theorem not_mem_groupText {n : Nat} {x : Char} (hm : p.matchAt c = some m) (hkeeps : p.keepsOut n x = true) :
    x ∉ m.groupText n := by
  have hout := (takes_of_matchAt hm).2.not_mem_text hkeeps (by simp)
  unfold Match.groupText Match.group?
  cases hlookup : m.captures.lookup n with
  | none => exact List.not_mem_nil
  | some capture =>
    obtain ⟨earlier, later, hcaptures, -⟩ := List.lookup_eq_some_iff.mp hlookup
    exact hout (n, capture) (by simp [hcaptures]) rfl

/-- The text that is kept for a capture is an end of the whole text. -/
theorem Takes.tail_suffix {t : Text} (hp : p.Takes c g d h) (hc : c.rest <:+ t)
    (hg : ∀ entry ∈ g, entry.2.tail <:+ t) : ∀ entry ∈ h, entry.2.tail <:+ t := by
  have hrest : ∀ {p : Pattern} {c d : Cursor} {g h : Captures}, p.Takes c g d h →
      c.rest <:+ t → d.rest <:+ t := by
    intro p c d g h hp hc
    obtain ⟨w, hw, -⟩ := hp.exists_passes
    exact (List.suffix_append w d.rest).trans (hw.rest ▸ hc)
  induction hp with
  | empty | one | many | starStop | wordEdge | textStart | textEnd => exact hg
  | seq hp _ ihp ihq => exact ihq (hrest hp hc) (ihp hc hg)
  | altLeft _ ih | altRight _ ih => exact ih hc hg
  | starStep hp _ ihp ihrest => exact ihrest (hrest hp hc) (ihp hc hg)
  | group _ ih => exact List.forall_mem_cons.mpr ⟨hc, ih hc hg⟩

end Pattern

theorem Pattern.byteSize_groupText_le {p : Pattern} {t : Text} {m : Match}
    (hm : p.matchAt (Cursor.atStart t) = some m) (n : Nat) : byteSize (m.groupText n) ≤ byteSize t := by
  have htails := (takes_of_matchAt hm).2.tail_suffix (t := t) List.suffix_rfl (by simp)
  unfold Match.groupText Match.group?
  cases hlookup : m.captures.lookup n with
  | none => exact Nat.zero_le _
  | some capture =>
    obtain ⟨earlier, later, hcaptures, -⟩ := List.lookup_eq_some_iff.mp hlookup
    obtain ⟨before, hbefore⟩ := htails (n, capture) (by simp [hcaptures])
    have hsize : byteSize capture.tail ≤ byteSize t := by
      rw [← hbefore, byteSize_append]
      exact Nat.le_add_left _ _
    exact (byteSize_takeBytes_le _ _).trans hsize

end SchemaReview
