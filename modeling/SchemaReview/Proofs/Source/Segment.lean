import SchemaReview.Proofs.Source.Comment
import SchemaReview.Proofs.Source.Statement

/-!
# Proofs.Source.Segment — quoted regions of a masked script

* `Segments t ls`: the masked script `t` read from left to right into quoted regions and characters outside
  them.  The rules say where a region ends; the splitting into statements is not mentioned.
* There is exactly one such reading: `exists_segments`, `Segments.unique`.
* `Segments.exists_cons`: the first stretch has the length that the splitting computes.
* `Segments.take`, `Segments.drop`, `Segments.append`: parts of a script are read as they were in the whole,
  and a semicolon outside regions keeps what follows apart.
-/

namespace SchemaReview

open Text

/-! ## Reading a masked script from left to right -/

/-- A stretch of a masked script. -/
inductive Segment where
  /-- A character outside all quoted regions. -/
  | bare (c : Char)
  /-- A quoted region, with its marks. -/
  | region (text : Text)
deriving DecidableEq

namespace Segment

/-- The stretch as written. -/
def text : Segment → Text
  | bare c => [c]
  | region t => t

/-- A semicolon outside all quoted regions. -/
def separator : Segment := bare ';'

end Segment

/-- A dollar tag: tag characters between two dollar signs, or two dollar signs. -/
def IsDollarTag (tag : Text) : Prop := ∃ w, (∀ c ∈ w, isTagChar c = true) ∧ tag = '$' :: (w ++ ['$'])

/-- A quoted region begins here. -/
def OpensRegion (t : Text) : Prop := (∃ q ∈ t.head?, isQuote q = true) ∨ ∃ tag, IsDollarTag tag ∧ tag <+: t

theorem not_opensRegion {c : Char} (hquote : isQuote c = false) (hdollar : c ≠ '$') (t : Text) :
    ¬ OpensRegion (c :: t) := by
  rintro (⟨q, hq, hopens⟩ | ⟨tag, ⟨w, -, rfl⟩, hpre⟩)
  · obtain rfl : c = q := Option.some.inj hq
    rw [hquote] at hopens
    cases hopens
  · exact hdollar (List.cons_prefix_cons.mp hpre).1.symm

/-- The script reads as these stretches.  A quoted region runs from a quote to the next quote of its kind, or
from a dollar tag to the next place where the same tag stands; what is not closed runs to the end. -/
inductive Segments : Text → List Segment → Prop
  | nil : Segments [] []
  | bare {c : Char} {t : Text} {ls : List Segment} (hopens : ¬ OpensRegion (c :: t)) (h : Segments t ls) :
      Segments (c :: t) (.bare c :: ls)
  | quoted {q : Char} {body t : Text} {ls : List Segment} (hquote : isQuote q = true) (hbody : q ∉ body)
      (h : Segments t ls) : Segments (q :: (body ++ q :: t)) (.region (q :: (body ++ [q])) :: ls)
  | openQuoted {q : Char} {body : Text} (hquote : isQuote q = true) (hbody : q ∉ body) :
      Segments (q :: body) [.region (q :: body)]
  | dollar {tag body t : Text} {ls : List Segment} (htag : IsDollarTag tag)
      (hbody : ¬ tag <:+: body ++ tag.dropLast) (h : Segments t ls) :
      Segments (tag ++ (body ++ (tag ++ t))) (.region (tag ++ (body ++ tag)) :: ls)
  | openDollar {tag body : Text} (htag : IsDollarTag tag) (hbody : ¬ tag <:+: body) :
      Segments (tag ++ body) [.region (tag ++ body)]

/-- The text that the stretches make up. -/
def segmentText (ls : List Segment) : Text := ls.flatMap Segment.text

theorem segmentText_cons (s : Segment) (ls : List Segment) :
    segmentText (s :: ls) = s.text ++ segmentText ls := rfl

theorem segmentText_append (ls ls' : List Segment) :
    segmentText (ls ++ ls') = segmentText ls ++ segmentText ls' := List.flatMap_append

/-- Nothing is lost or added by reading. -/
theorem Segments.segmentText_eq {t : Text} {ls : List Segment} (h : Segments t ls) : segmentText ls = t := by
  induction h with
  | nil => rfl
  | bare _ _ ih => simp [segmentText_cons, Segment.text, ih]
  | quoted _ _ _ ih => simp [segmentText_cons, Segment.text, ih]
  | openQuoted => simp [segmentText, Segment.text]
  | dollar _ _ _ ih => simp [segmentText_cons, Segment.text, ih]
  | openDollar => simp [segmentText, Segment.text]

namespace IsDollarTag

variable {tag : Text}

theorem ne_nil (h : IsDollarTag tag) : tag ≠ [] := by
  obtain ⟨w, -, rfl⟩ := h
  exact List.cons_ne_nil _ _

/-- A tag has no semicolon. -/
theorem not_mem (h : IsDollarTag tag) : ';' ∉ tag := by
  obtain ⟨w, hw, rfl⟩ := h
  intro hmem
  rw [List.mem_cons, List.mem_append, List.mem_singleton] at hmem
  rcases hmem with hc | hc | hc
  · exact absurd hc (by decide)
  · exact absurd (hw _ hc) (by decide)
  · exact absurd hc (by decide)

/-- Behind the first dollar sign the tag is found. -/
theorem dollarTag?_eq {w : Text} (hw : ∀ c ∈ w, isTagChar c = true) (t : Text) :
    dollarTag? (w ++ '$' :: t) = some ('$' :: (w ++ ['$'])) := by
  have hend : ∀ x ∈ ('$' :: t).head?, isTagChar x = false := forall_mem_head?_cons (by rfl) t
  rw [dollarTag?, dropWhile_append_of_head hw hend, takeWhile_append_of_head hw hend]
  rfl

/-- Where no tag begins, none is found. -/
theorem dollarTag?_eq_none {t : Text} (h : ¬ OpensRegion ('$' :: t)) : dollarTag? t = none := by
  by_contra hsome
  obtain ⟨tag, htag⟩ := Option.ne_none_iff_exists'.mp hsome
  unfold dollarTag? at htag
  split at htag
  · rename_i after hdrop
    rw [Option.some.injEq] at htag
    refine h (Or.inr ⟨tag, ⟨t.takeWhile isTagChar, fun c hc => List.mem_takeWhile_imp hc, htag.symm⟩, after, ?_⟩)
    rw [← htag]
    have hsplit : t.takeWhile isTagChar ++ t.dropWhile isTagChar = t := List.takeWhile_append_dropWhile
    rw [hdrop] at hsplit
    simp [hsplit]
  · cases htag

end IsDollarTag

/-- Every masked script can be read. -/
theorem exists_segments (t : Text) : ∃ ls, Segments t ls := by
  induction hlen : t.length using Nat.strongRecOn generalizing t with
  | _ n ih =>
    subst hlen
    rcases t with _ | ⟨c, t⟩
    · exact ⟨[], .nil⟩
    by_cases hquote : isQuote c = true
    · by_cases hclosed : c ∈ t
      · obtain ⟨body, rest, rfl, hbody⟩ := List.eq_append_cons_of_mem hclosed
        obtain ⟨ls, hls⟩ := ih rest.length (by simp; omega) rest rfl
        exact ⟨_, .quoted hquote hbody hls⟩
      · exact ⟨_, .openQuoted hquote hclosed⟩
    by_cases hopens : OpensRegion (c :: t)
    · rcases hopens with ⟨q, hq, hopens⟩ | ⟨tag, htag, behind, hbehind⟩
      · obtain rfl : c = q := Option.some.inj hq
        exact absurd hopens hquote
      have htagged := List.length_pos_of_ne_nil htag.ne_nil
      rw [← hbehind]
      rcases first_infix_cases htag.ne_nil behind with hopen | ⟨body, rest, rfl, hbody⟩
      · exact ⟨_, .openDollar htag hopen⟩
      · obtain ⟨ls, hls⟩ := ih rest.length (by rw [← hbehind]; simp; omega) rest rfl
        exact ⟨_, .dollar htag hbody hls⟩
    · obtain ⟨ls, hls⟩ := ih t.length (by simp) t rfl
      exact ⟨_, .bare hopens hls⟩

/-! ## Where regions end -/

theorem indexOf?_eq_none {w t : Text} (h : ¬ w <:+: t) : indexOf? w t = none := by
  induction t with
  | nil =>
    have hw : w ≠ [] := by
      rintro rfl
      exact h List.nil_infix
    simp [indexOf?, hw]
  | cons c cs ih =>
    rw [List.infix_cons_iff, not_or] at h
    have hstart : w.isPrefixOf (c :: cs) = false := by
      rw [← Bool.not_eq_true, List.isPrefixOf_iff_prefix]
      exact h.1
    rw [indexOf?, hstart, ih h.2]
    rfl

theorem indexOf?_append {w body : Text} (hw : w ≠ []) (h : ¬ w <:+: body ++ w.dropLast) (t : Text) :
    indexOf? w (body ++ (w ++ t)) = some body.length := by
  induction body with
  | nil =>
    have hstart : w.isPrefixOf (w ++ t) = true := by
      rw [List.isPrefixOf_iff_prefix]
      exact List.prefix_append w t
    obtain ⟨c, cs, rfl⟩ := List.exists_cons_of_ne_nil hw
    rw [List.nil_append]
    rw [List.cons_append] at hstart ⊢
    rw [indexOf?, if_pos hstart]
    rfl
  | cons c body ih =>
    rw [List.cons_append, List.infix_cons_iff, not_or] at h
    have hstart : w.isPrefixOf (c :: (body ++ (w ++ t))) = false := by
      rw [← Bool.not_eq_true, List.isPrefixOf_iff_prefix]
      intro hpre
      -- the place would be an earlier one
      refine h.1 (List.prefix_of_prefix_length_le hpre ?_ ?_)
      · have hshort : body ++ w.dropLast <+: body ++ (w ++ t) := by
          rw [List.prefix_append_right_inj]
          exact (List.dropLast_prefix w).trans (List.prefix_append w t)
        exact List.cons_prefix_cons.mpr ⟨rfl, hshort⟩
      · have hpos := List.length_pos_of_ne_nil hw
        simp only [List.length_cons, List.length_append, List.length_dropLast]
        omega
    rw [List.cons_append, indexOf?, hstart, ih h.2]
    rfl

theorem forall_mem_ne {q : Char} {body : Text} (hbody : q ∉ body) : ∀ c ∈ body, decide (c ≠ q) = true := by
  intro c hc
  have hcq : c ≠ q := by
    rintro rfl
    exact hbody hc
  exact decide_eq_true hcq

theorem regionLength_quoted {q : Char} {body : Text} (hquote : isQuote q = true) (hbody : q ∉ body) (t : Text) :
    regionLength q (body ++ q :: t) = body.length + 1 := by
  rw [regionLength, if_pos hquote, takeWhile_append_of_head (forall_mem_ne hbody) (forall_mem_head?_cons (by simp) t)]

theorem regionLength_openQuoted {q : Char} {body : Text} (hquote : isQuote q = true) (hbody : q ∉ body) :
    regionLength q body = body.length + 1 := by
  rw [regionLength, if_pos hquote, List.takeWhile_eq_self_iff.mpr (forall_mem_ne hbody)]

/-- The region of a dollar sign, given the word of its tag. -/
theorem regionLength_tag {w : Text} (hw : ∀ c ∈ w, isTagChar c = true) (t : Text) :
    regionLength '$' (w ++ '$' :: t) = match indexOf? ('$' :: (w ++ ['$'])) t with
      | some n => w.length + 1 + n + (w.length + 2)
      | none => w.length + 1 + t.length := by
  have hdrop : (w ++ '$' :: t).drop (w.length + 1) = t := by
    simp [List.drop_append]
  have hhead : ('$' :: (w ++ ['$'])).length - 1 = w.length + 1 := by simp
  have hsize : (w ++ '$' :: t).length = w.length + 1 + t.length := by
    rw [List.length_append, List.length_cons]
    omega
  rw [regionLength, if_neg (by decide), if_pos rfl, IsDollarTag.dollarTag?_eq hw]
  dsimp only
  rw [hhead, hdrop, hsize]
  cases indexOf? ('$' :: (w ++ ['$'])) t with
  | none => rfl
  | some n => simp

theorem regionLength_bare {c : Char} {t : Text} (h : ¬ OpensRegion (c :: t)) : regionLength c t = 0 := by
  have hquote : ¬ isQuote c = true := fun hc => h (Or.inl ⟨c, rfl, hc⟩)
  rw [regionLength, if_neg hquote]
  by_cases hc : c = '$'
  · subst hc
    rw [if_pos rfl, IsDollarTag.dollarTag?_eq_none h]
  · rw [if_neg hc]

/-! ## The reading is unique -/

/-- The first stretch of a script. -/
def headSegment (c : Char) (cs : Text) : Segment :=
  if regionLength c cs = 0 then .bare c else .region (c :: cs.take (regionLength c cs))

theorem text_headSegment (c : Char) (cs : Text) :
    (headSegment c cs).text = c :: cs.take (regionLength c cs) := by
  unfold headSegment
  split
  · rename_i hzero
    rw [hzero]
    rfl
  · rfl

/-- The first stretch is the region that its length cuts off. -/
theorem headSegment_region {c : Char} {region behind : Text} (hne : region ≠ [])
    (hlength : regionLength c (region ++ behind) = region.length) :
    headSegment c (region ++ behind) = .region (c :: region) := by
  have hpos := List.length_pos_of_ne_nil hne
  rw [headSegment, if_neg (by omega), hlength, List.take_left]

/-- A reading begins with the first stretch, and goes on behind it. -/
theorem Segments.exists_cons {c : Char} {cs : Text} {ls : List Segment} (h : Segments (c :: cs) ls) :
    ∃ ls', ls = headSegment c cs :: ls' ∧ Segments (cs.drop (regionLength c cs)) ls' := by
  generalize ht : c :: cs = t at h
  cases h with
  | nil => cases ht
  | @bare d t ls hopens h =>
    obtain ⟨rfl, rfl⟩ := List.cons.inj ht
    rw [headSegment, regionLength_bare hopens]
    exact ⟨ls, rfl, h⟩
  | @quoted q body t ls hquote hbody h =>
    obtain ⟨rfl, hcs⟩ := List.cons.inj ht
    have hlength : regionLength c ((body ++ [c]) ++ t) = (body ++ [c]).length := by
      rw [List.append_assoc, List.singleton_append, regionLength_quoted hquote hbody]
      simp
    obtain rfl : cs = (body ++ [c]) ++ t := by simpa using hcs
    rw [headSegment_region (by simp) hlength, hlength, List.drop_left]
    exact ⟨ls, rfl, h⟩
  | @openQuoted q body hquote hbody =>
    obtain ⟨rfl, rfl⟩ := List.cons.inj ht
    rw [headSegment, regionLength_openQuoted hquote hbody, if_neg (by omega),
      List.take_of_length_le (by omega), List.drop_eq_nil_of_le (by omega)]
    exact ⟨[], rfl, .nil⟩
  | @dollar tag body t ls htag hbody h =>
    have hne := htag.ne_nil
    obtain ⟨w, hw, rfl⟩ := htag
    obtain ⟨rfl, hcs⟩ := List.cons.inj ht
    have hlength : regionLength '$' ((w ++ '$' :: (body ++ '$' :: (w ++ ['$']))) ++ t) =
        (w ++ '$' :: (body ++ '$' :: (w ++ ['$']))).length := by
      have hindex := indexOf?_append hne hbody t
      simp only [List.append_assoc, List.cons_append, List.nil_append] at hindex ⊢
      rw [regionLength_tag hw, hindex]
      simp
      omega
    obtain rfl : cs = (w ++ '$' :: (body ++ '$' :: (w ++ ['$']))) ++ t := by simpa using hcs
    rw [headSegment_region (by simp) hlength, hlength, List.drop_left]
    exact ⟨ls, by simp, h⟩
  | @openDollar tag body htag hbody =>
    obtain ⟨w, hw, rfl⟩ := htag
    obtain ⟨rfl, hcs⟩ := List.cons.inj ht
    have hlength : regionLength '$' ((w ++ '$' :: body) ++ []) = (w ++ '$' :: body).length := by
      rw [List.append_nil, regionLength_tag hw, indexOf?_eq_none hbody]
      simp
      omega
    obtain rfl : cs = (w ++ '$' :: body) ++ [] := by simpa using hcs
    rw [headSegment_region (by simp) hlength, hlength, List.drop_left]
    exact ⟨[], by simp, .nil⟩

theorem Segments.text_ne_nil {t : Text} {ls : List Segment} (h : Segments t ls) : ∀ s ∈ ls, s.text ≠ [] := by
  induction h with
  | nil => simp
  | bare _ _ ih => exact List.forall_mem_cons.mpr ⟨List.cons_ne_nil _ _, ih⟩
  | quoted _ _ _ ih => exact List.forall_mem_cons.mpr ⟨List.cons_ne_nil _ _, ih⟩
  | openQuoted => exact List.forall_mem_singleton.mpr (List.cons_ne_nil _ _)
  | dollar htag _ _ ih => exact List.forall_mem_cons.mpr ⟨by simp [Segment.text, htag.ne_nil], ih⟩
  | openDollar htag _ => exact List.forall_mem_singleton.mpr (by simp [Segment.text, htag.ne_nil])

/-- Only the empty script reads as no stretch. -/
theorem Segments.eq_nil {ls : List Segment} (h : Segments [] ls) : ls = [] := by
  rcases ls with _ | ⟨s, ls⟩
  · rfl
  · have htext := h.segmentText_eq
    rw [segmentText_cons, List.append_eq_nil_iff] at htext
    exact absurd htext.1 (h.text_ne_nil s List.mem_cons_self)

/-- A script has one reading only. -/
theorem Segments.unique {t : Text} {ls ls' : List Segment} (h : Segments t ls) (h' : Segments t ls') :
    ls = ls' := by
  induction ls generalizing t ls' with
  | nil =>
    obtain rfl : [] = t := h.segmentText_eq
    exact h'.eq_nil.symm
  | cons s ls ih =>
    rcases t with _ | ⟨c, cs⟩
    · exact absurd h.eq_nil (List.cons_ne_nil _ _)
    obtain ⟨rest, hrest, hbehind⟩ := h.exists_cons
    obtain ⟨rest', rfl, hbehind'⟩ := h'.exists_cons
    obtain ⟨rfl, rfl⟩ := List.cons.inj hrest
    rw [ih hbehind hbehind']

/-! ## Parts of a reading -/

theorem OpensRegion.append {t : Text} (h : OpensRegion t) (u : Text) : OpensRegion (t ++ u) := by
  rcases h with ⟨q, hq, hquote⟩ | ⟨tag, htag, hpre⟩
  · refine Or.inl ⟨q, ?_, hquote⟩
    rw [Option.mem_def] at hq
    rw [List.head?_append, hq]
    rfl
  · exact Or.inr ⟨tag, htag, hpre.trans (List.prefix_append t u)⟩

/-- No tag reaches over a semicolon. -/
theorem OpensRegion.of_append {t u : Text} (h : OpensRegion (t ++ u)) (hmem : ';' ∈ t) : OpensRegion t := by
  rcases h with ⟨q, hq, hquote⟩ | ⟨tag, htag, hpre⟩
  · refine Or.inl ⟨q, ?_, hquote⟩
    obtain ⟨c, cs, rfl⟩ := List.exists_cons_of_ne_nil (List.ne_nil_of_mem hmem)
    exact hq
  · refine Or.inr ⟨tag, htag, ?_⟩
    rcases List.prefix_or_prefix_of_prefix hpre (List.prefix_append t u) with hshort | hlong
    · exact hshort
    · exact absurd (hlong.subset hmem) htag.not_mem

/-- Behind some of the stretches the script reads as the others. -/
theorem Segments.drop {t : Text} {front ls : List Segment} (h : Segments t (front ++ ls)) :
    Segments (segmentText ls) ls := by
  induction front generalizing t with
  | nil =>
    obtain rfl : segmentText ls = t := h.segmentText_eq
    exact h
  | cons s front ih =>
    generalize hls : s :: front ++ ls = ls' at h
    cases h with
    | nil => cases hls
    | bare _ h | quoted _ _ h | dollar _ _ h =>
      obtain ⟨-, rfl⟩ := List.cons.inj hls
      exact ih h
    | openQuoted | openDollar =>
      obtain ⟨-, hnil⟩ := List.cons.inj hls
      obtain ⟨-, rfl⟩ := List.append_eq_nil_iff.mp hnil
      exact .nil

/-- The first stretches alone are read as they were in the script. -/
theorem Segments.take {t : Text} {ls rest : List Segment} (h : Segments t (ls ++ rest)) :
    Segments (segmentText ls) ls := by
  induction ls generalizing t with
  | nil => exact .nil
  | cons s ls ih =>
    generalize hls : s :: ls ++ rest = ls' at h
    cases h with
    | nil => cases hls
    | @bare c t _ hopens h =>
      obtain ⟨rfl, rfl⟩ := List.cons.inj hls
      refine .bare (fun halone => hopens ?_) (ih h)
      -- what opens a region does so whatever follows
      rw [← h.segmentText_eq]
      exact (segmentText_append ls rest).symm ▸ halone.append (segmentText rest)
    | @quoted q body t _ hquote hbody h =>
      obtain ⟨rfl, rfl⟩ := List.cons.inj hls
      have halone := Segments.quoted hquote hbody (ih h)
      simpa [segmentText_cons, Segment.text] using halone
    | @openQuoted q body hquote hbody =>
      obtain ⟨rfl, hnil⟩ := List.cons.inj hls
      obtain ⟨rfl, -⟩ := List.append_eq_nil_iff.mp hnil
      simpa [segmentText, Segment.text] using Segments.openQuoted hquote hbody
    | @dollar tag body t _ htag hbody h =>
      obtain ⟨rfl, rfl⟩ := List.cons.inj hls
      have halone := Segments.dollar htag hbody (ih h)
      simpa [segmentText_cons, Segment.text] using halone
    | @openDollar tag body htag hbody =>
      obtain ⟨rfl, hnil⟩ := List.cons.inj hls
      obtain ⟨rfl, -⟩ := List.append_eq_nil_iff.mp hnil
      simpa [segmentText, Segment.text] using Segments.openDollar htag hbody

/-- A script that ends with a separator is read as it stands, whatever follows. -/
theorem Segments.append {t u : Text} {ls ls' : List Segment} (h : Segments t (ls ++ [Segment.separator]))
    (h' : Segments u ls') : Segments (t ++ u) (ls ++ Segment.separator :: ls') := by
  induction ls generalizing t with
  | nil =>
    obtain rfl : [';'] = t := h.segmentText_eq
    exact .bare (not_opensRegion rfl (by decide) u) h'
  | cons s ls ih =>
    generalize hls : s :: ls ++ [Segment.separator] = lt at h
    cases h with
    | nil => cases hls
    | @bare c t _ hopens h =>
      obtain ⟨rfl, rfl⟩ := List.cons.inj hls
      refine .bare (fun hboth => hopens (hboth.of_append ?_)) (ih h)
      have hmem : ';' ∈ segmentText (ls ++ [Segment.separator]) := by
        rw [segmentText_append]
        exact List.mem_append_right _ List.mem_cons_self
      rw [← h.segmentText_eq]
      exact List.mem_cons_of_mem c hmem
    | @quoted q body t _ hquote hbody h =>
      obtain ⟨rfl, rfl⟩ := List.cons.inj hls
      have hboth := Segments.quoted hquote hbody (ih h)
      simpa using hboth
    | @dollar tag body t _ htag hbody h =>
      obtain ⟨rfl, rfl⟩ := List.cons.inj hls
      have hboth := Segments.dollar htag hbody (ih h)
      simpa using hboth
    | openQuoted | openDollar =>
      obtain ⟨-, hnil⟩ := List.cons.inj hls
      exact absurd (List.append_eq_nil_iff.mp hnil).2 (List.cons_ne_nil _ _)

end SchemaReview
