import Mathlib.Data.List.TakeWhile
import Mathlib.Tactic.SplitIfs
import SchemaReview.Document.Reference
import SchemaReview.Proofs.Document.Content

/-!
# Proofs.Document.Written — markup as it is written, and read back

* `escape`: text with the five characters that have a name written by their names; `expand?_escape`.
* `element`, `emptyElement`: an element written with its tags.
* `Reads t events`: the text is read as the events, inside any elements and whatever follows.  It is closed
  under putting texts one behind the other and under writing an element around a text.
-/

namespace SchemaReview.Markup

/-! ## References -/

/-- A character as written in text. -/
def escapeChar (c : Char) : Text :=
  if c = '<' then "&lt;".toList
  else if c = '>' then "&gt;".toList
  else if c = '&' then "&amp;".toList
  else if c = '\x27' then "&apos;".toList
  else if c = '"' then "&quot;".toList
  else [c]

/-- A text as written between tags. -/
def escape (t : Text) : Text := t.flatMap escapeChar

theorem escape_cons (c : Char) (cs : Text) : escape (c :: cs) = escapeChar c ++ escape cs :=
  List.flatMap_cons

theorem expandFrom_escapeChar (c : Char) (behind : Text) :
    expandFrom none (escapeChar c ++ behind) = (expandFrom none behind).map (c :: ·) := by
  by_cases hlt : c = '<'
  · subst hlt
    rfl
  by_cases hgt : c = '>'
  · subst hgt
    rfl
  by_cases hamp : c = '&'
  · subst hamp
    rfl
  by_cases hapos : c = '\x27'
  · subst hapos
    rfl
  by_cases hquot : c = '"'
  · subst hquot
    rfl
  rw [escapeChar, if_neg hlt, if_neg hgt, if_neg hamp, if_neg hapos, if_neg hquot, List.singleton_append,
    expandFrom, if_neg hamp]

/-- Text is read back as it was before it was written. -/
theorem expand?_escape (t : Text) : expand? (escape t) = some t := by
  induction t with
  | nil => rfl
  | cons c cs ih =>
    rw [expand?] at ih
    rw [expand?, escape_cons, expandFrom_escapeChar, ih]
    rfl

theorem escape_ne_nil {t : Text} (h : t ≠ []) : escape t ≠ [] := by
  obtain ⟨c, cs, rfl⟩ := List.exists_cons_of_ne_nil h
  rw [escape_cons, escapeChar]
  split_ifs <;> exact List.cons_ne_nil _ _

theorem not_mem_escape (t : Text) : '<' ∉ escape t := by
  intro hmem
  obtain ⟨c, -, hc⟩ := List.mem_flatMap.mp hmem
  rw [escapeChar] at hc
  by_cases hlt : c = '<'
  · rw [if_pos hlt] at hc
    revert hc
    decide
  · rw [if_neg hlt] at hc
    split_ifs at hc
    all_goals first
      | exact hlt (List.mem_singleton.mp hc).symm
      | revert hc; decide

/-! ## Tags -/

/-- A character that has no meaning of its own in a tag. -/
def isPlain (c : Char) : Bool := !isSpace c && !List.contains ['<', '>', '/', '!', '?', '"', '\x27'] c

/-- A name that can be read in a tag. -/
def PlainName (name : Text) : Prop := name ≠ [] ∧ ∀ c ∈ name, isPlain c = true

instance (name : Text) : Decidable (PlainName name) :=
  @instDecidableAnd _ _ inferInstance (List.decidableBAll _ name)

/-- An element with a start tag and an end tag around its content. -/
def element (name inside : Text) : Text := '<' :: name ++ '>' :: inside ++ '<' :: '/' :: name ++ ['>']

/-- An element without content as one tag. -/
def emptyElement (name : Text) : Text := '<' :: name ++ ['/', '>']

section

variable {name : Text}

theorem ne_of_isPlain {c : Char} (h : isPlain c = true) {d : Char} (hd : isPlain d = false) : c ≠ d := by
  rintro rfl
  rw [h] at hd
  cases hd

theorem isSpace_of_isPlain {c : Char} (h : isPlain c = true) : isSpace c = false := by
  rw [isPlain, Bool.and_eq_true, Bool.not_eq_true'] at h
  exact h.1

theorem ne_slash (h : PlainName name) {c : Char} (hc : c ∈ name) : c ≠ '/' :=
  ne_of_isPlain (h.2 c hc) (by decide)

/-- A tag that begins with a name is no end tag. -/
theorem tagEvent_append (h : PlainName name) (mark : Text) : tagEvent (name ++ mark) =
    if (name ++ mark).getLast? = some '/' then .empty (nameOf (name ++ mark).dropLast)
    else .opening (nameOf (name ++ mark)) := by
  unfold tagEvent
  split
  · rename_i content hcontent
    obtain ⟨c, cs, rfl⟩ := List.exists_cons_of_ne_nil h.1
    exact absurd (List.cons.inj hcontent).1 (ne_slash h List.mem_cons_self)
  · rfl

theorem nameOf_of_plainName (h : PlainName name) : nameOf name = name :=
  List.takeWhile_eq_self_iff.mpr fun c hc => by rw [isSpace_of_isPlain (h.2 c hc)]; rfl

theorem tagEvent_opening (h : PlainName name) : tagEvent name = .opening name := by
  have hlast : name.getLast? ≠ some '/' := fun hlast => ne_slash h (List.mem_of_getLast? hlast) rfl
  have htag := tagEvent_append h []
  rw [List.append_nil, if_neg hlast, nameOf_of_plainName h] at htag
  exact htag

theorem tagEvent_empty (h : PlainName name) : tagEvent (name ++ ['/']) = .empty name := by
  rw [tagEvent_append h, if_pos (by simp), List.dropLast_concat, nameOf_of_plainName h]

theorem tagEvent_closing (h : PlainName name) : tagEvent ('/' :: name) = .closing name := by
  obtain ⟨c, cs, rfl⟩ := List.exists_cons_of_ne_nil h.1
  have hnone : (c :: cs).all isSpace = false := by
    rw [List.all_cons, isSpace_of_isPlain (h.2 c List.mem_cons_self)]
    rfl
  have htrim : (c :: cs).reverse.dropWhile isSpace = (c :: cs).reverse := by
    refine List.dropWhile_eq_self_iff.mpr fun hpos => ?_
    have hmem := List.mem_reverse.mp (List.getElem_mem hpos)
    rw [isSpace_of_isPlain (h.2 _ hmem)]
    exact Bool.false_ne_true
  show Event.closing (closedName (c :: cs)) = _
  rw [closedName, hnone, htrim, List.reverse_reverse]
  rfl

end

/-- The reading behind a tag with the given event. -/
def afterTag (stack : List Text) (event : Event) (behind : Text) : Reading :=
  match track stack event with
  | some inner => (readFrom .text inner [] behind).after event
  | none => .failed .illFormed

theorem readFrom_tag {content : Text} (h : ∀ c ∈ content, c ≠ '>' ∧ c ≠ '"' ∧ c ≠ '\x27')
    (stack : List Text) (seen behind : Text) :
    readFrom (.tag none) stack seen (content ++ '>' :: behind) =
      afterTag stack (tagEvent (seen.reverse ++ content)) behind := by
  induction content generalizing seen with
  | nil =>
    rw [List.nil_append, readFrom, if_pos ⟨rfl, rfl⟩, List.append_nil]
    rfl
  | cons c cs ih =>
    rw [List.forall_mem_cons] at h
    have hquote : quoteAfter none c = none := if_neg (by simp [h.1])
    rw [List.cons_append, readFrom, if_neg fun hend => h.1.1 hend.2, hquote, ih h.2]
    simp

/-- What may stand between the angle brackets of a tag. -/
structure IsTag (content : Text) : Prop where
  head : ∃ c ∈ content.head?, c ≠ '!' ∧ c ≠ '?'
  all : ∀ c ∈ content, c ≠ '>' ∧ c ≠ '"' ∧ c ≠ '\x27'

/-- A tag behind a text. -/
theorem readFrom_angle {content : Text} (h : IsTag content) (stack : List Text) (seen behind : Text) :
    readFrom .text stack seen ('<' :: content ++ '>' :: behind) =
      (afterTag stack (tagEvent content) behind).afterText seen := by
  obtain ⟨⟨c, hc, hmark⟩, hall⟩ := h
  obtain ⟨cs, rfl⟩ := List.head?_eq_some_iff.mp hc
  rw [List.forall_mem_cons] at hall
  have hquote : quoteAfter none c = none := if_neg (by simp [hall.1])
  rw [List.cons_append, List.cons_append, readFrom, if_pos rfl, readFrom, if_neg hmark.1, if_neg hmark.2,
    if_neg hall.1.1, hquote, readFrom_tag hall.2]
  rfl

namespace PlainName

variable {name : Text} (h : PlainName name)

include h

theorem isTag_append {mark : Text} (hmark : ∀ c ∈ mark, c ≠ '>' ∧ c ≠ '"' ∧ c ≠ '\x27') :
    IsTag (name ++ mark) := by
  refine ⟨?_, fun c hc => ?_⟩
  · obtain ⟨c, cs, rfl⟩ := List.exists_cons_of_ne_nil h.1
    have hplain := h.2 c List.mem_cons_self
    exact ⟨c, rfl, ne_of_isPlain hplain (by decide), ne_of_isPlain hplain (by decide)⟩
  · rcases List.mem_append.mp hc with hc | hc
    · have hplain := h.2 c hc
      exact ⟨ne_of_isPlain hplain (by decide), ne_of_isPlain hplain (by decide),
        ne_of_isPlain hplain (by decide)⟩
    · exact hmark c hc

theorem isTag : IsTag name := by
  have htag : IsTag (name ++ []) := h.isTag_append nofun
  rwa [List.append_nil] at htag

theorem isTag_closing : IsTag ('/' :: name) :=
  ⟨⟨'/', rfl, by decide⟩, List.forall_mem_cons.mpr ⟨by decide, h.isTag.all⟩⟩

end PlainName

section

variable {name : Text} (h : PlainName name) (stack : List Text) (seen behind : Text)

include h

theorem readFrom_opening : readFrom .text stack seen ('<' :: name ++ '>' :: behind) =
    ((readFrom .text (name :: stack) [] behind).after (.opening name)).afterText seen := by
  rw [readFrom_angle h.isTag, tagEvent_opening h]
  rfl

theorem readFrom_empty : readFrom .text stack seen (emptyElement name ++ behind) =
    ((readFrom .text stack [] behind).after (.empty name)).afterText seen := by
  have hsplit : emptyElement name ++ behind = '<' :: (name ++ ['/']) ++ '>' :: behind := by
    simp [emptyElement]
  rw [hsplit, readFrom_angle (h.isTag_append (by simp)), tagEvent_empty h]
  rfl

theorem readFrom_closing : readFrom .text (name :: stack) seen ('<' :: '/' :: name ++ '>' :: behind) =
    ((readFrom .text stack [] behind).after (.closing name)).afterText seen := by
  have hclose : track (name :: stack) (.closing name) = some stack := if_pos rfl
  rw [readFrom_angle h.isTag_closing, tagEvent_closing h, afterTag, hclose]

end

/-- Text up to a tag is gathered. -/
theorem readFrom_raw {raw : Text} (h : '<' ∉ raw) (stack : List Text) (seen rest : Text) :
    readFrom .text stack seen (raw ++ rest) = readFrom .text stack (raw.reverse ++ seen) rest := by
  induction raw generalizing seen with
  | nil => rfl
  | cons c cs ih =>
    rw [List.mem_cons, not_or] at h
    rw [List.cons_append, readFrom, if_neg (Ne.symm h.1), ih h.2]
    simp

/-! ## Texts that are read as they stand -/

/-- Events in front of the others. -/
def Reading.behind (events : List Event) (r : Reading) : Reading := { r with events := events ++ r.events }

/-- The text is read as the events, whatever is open and whatever follows. -/
def Reads (t : Text) (events : List Event) : Prop :=
  ∀ (stack : List Text) (rest : Text),
    readFrom .text stack [] (t ++ rest) = (readFrom .text stack [] rest).behind events

namespace Reads

variable {t u name raw : Text} {events events' : List Event}

theorem nil : Reads [] [] := fun _ _ => rfl

theorem append (ht : Reads t events) (hu : Reads u events') : Reads (t ++ u) (events ++ events') := by
  intro stack rest
  rw [List.append_assoc, ht, hu]
  simp [Reading.behind]

theorem read_eq (h : Reads t events) : read t = ⟨events, none⟩ := by
  have hread := h [] []
  rw [List.append_nil] at hread
  rw [read, hread]
  simp [readFrom, Reading.behind, Reading.afterText, Reading.finished]

theorem empty (hname : PlainName name) : Reads (emptyElement name) [.empty name] :=
  fun stack rest => readFrom_empty hname stack [] rest

theorem element (hname : PlainName name) (ht : Reads t events) :
    Reads (element name t) (.opening name :: events ++ [.closing name]) := by
  intro stack rest
  have hsplit : Markup.element name t ++ rest =
      '<' :: name ++ '>' :: (t ++ ('<' :: '/' :: name ++ '>' :: rest)) := by
    simp [Markup.element]
  rw [hsplit, readFrom_opening hname, ht, readFrom_closing hname]
  simp [Reading.afterText, Reading.after, Reading.behind]

/-- An element with nothing but text in it. -/
theorem textElement (hname : PlainName name) (hraw : '<' ∉ raw) (hne : raw ≠ []) :
    Reads (Markup.element name raw) [.opening name, .text raw, .closing name] := by
  intro stack rest
  have hsplit : Markup.element name raw ++ rest =
      '<' :: name ++ '>' :: (raw ++ ('<' :: '/' :: name ++ '>' :: rest)) := by
    simp [Markup.element]
  rw [hsplit, readFrom_opening hname, readFrom_raw hraw, List.append_nil, readFrom_closing hname]
  simp [Reading.afterText, Reading.after, Reading.behind, hne]

end Reads

end SchemaReview.Markup
