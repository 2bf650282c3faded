import SchemaReview.Document.Markup

/-!
# Proofs.Document.Content — well-formed markup as a tree

The reader gives the events of a text one after the other.  When it meets no fault and every element that is
opened is closed, the events are those of a tree of elements, in document order.

* `Content`: elements with what they hold and what follows them; `Content.events` lists the events.
* `wellFormed_iff`: a text is well formed exactly when its events are those of some content.
-/

namespace SchemaReview.Markup

/-- What stands between two tags of an element, or in a whole text. -/
inductive Content where
  /-- Nothing more. -/
  | nil
  /-- An element with a start tag and an end tag. -/
  | element (name : Text) (inside after : Content)
  /-- A tag that is start and end at once. -/
  | empty (name : Text) (after : Content)
  /-- Text between tags as written, with its references. -/
  | text (raw : Text) (after : Content)
  /-- The content of a section in which nothing is markup. -/
  | verbatim (content : Text) (after : Content)
deriving DecidableEq, Repr

/-- The events of the content, in document order. -/
def Content.events : Content → List Event
  | .nil => []
  | .element name inside after => .opening name :: inside.events ++ .closing name :: after.events
  | .empty name after => .empty name :: after.events
  | .text raw after => .text raw :: after.events
  | .verbatim content after => .verbatim content :: after.events

/-- The events begin with an end tag, if there are any. -/
def Ends (events : List Event) : Prop := ∀ event ∈ events.head?, ∃ name, event = .closing name

theorem ends_nil : Ends [] := nofun

theorem ends_closing (name : Text) (events : List Event) : Ends (.closing name :: events) := by
  intro event hevent
  obtain rfl := Option.some.inj hevent
  exact ⟨name, rfl⟩

/-- Nothing but the empty content stands in front of an end tag that has no start tag. -/
theorem eq_nil_of_ends {c : Content} {behind behind' : List Event} (hends : Ends behind')
    (h : c.events ++ behind = behind') : c = .nil := by
  subst h
  cases c with
  | nil => rfl
  | _ =>
    obtain ⟨name, hname⟩ := hends _ rfl
    cases hname

/-- The events up to an end tag without a start tag are those of one content only. -/
theorem events_append_inj {c d : Content} {behind behind' : List Event} (hc : Ends behind)
    (hd : Ends behind') (h : c.events ++ behind = d.events ++ behind') : c = d ∧ behind = behind' := by
  induction c generalizing d behind behind' with
  | nil =>
    obtain rfl : behind = d.events ++ behind' := h
    obtain rfl := eq_nil_of_ends hc rfl
    exact ⟨rfl, rfl⟩
  | element name inside after ihinside ihafter =>
    cases d with
    | nil => cases eq_nil_of_ends hd h
    | element name' inside' after' =>
      simp only [Content.events, List.cons_append, List.append_assoc, List.cons.injEq,
        Event.opening.injEq] at h
      obtain ⟨rfl, hbehind⟩ := ihinside (ends_closing _ _) (ends_closing _ _) h.2
      obtain ⟨rfl, rfl⟩ := ihafter hc hd (List.cons.inj hbehind).2
      exact ⟨by rw [h.1], rfl⟩
    | _ => cases (List.cons.inj h).1
  | empty name after ih =>
    cases d with
    | nil => cases eq_nil_of_ends hd h
    | empty name' after' =>
      obtain ⟨hname, hafter⟩ := List.cons.inj h
      obtain ⟨rfl, rfl⟩ := ih hc hd hafter
      exact ⟨by rw [Event.empty.inj hname], rfl⟩
    | _ => cases (List.cons.inj h).1
  | text raw after ih =>
    cases d with
    | nil => cases eq_nil_of_ends hd h
    | text raw' after' =>
      obtain ⟨hraw, hafter⟩ := List.cons.inj h
      obtain ⟨rfl, rfl⟩ := ih hc hd hafter
      exact ⟨by rw [Event.text.inj hraw], rfl⟩
    | _ => cases (List.cons.inj h).1
  | verbatim content after ih =>
    cases d with
    | nil => cases eq_nil_of_ends hd h
    | verbatim content' after' =>
      obtain ⟨hcontent, hafter⟩ := List.cons.inj h
      obtain ⟨rfl, rfl⟩ := ih hc hd hafter
      exact ⟨by rw [Event.verbatim.inj hcontent], rfl⟩
    | _ => cases (List.cons.inj h).1

theorem Content.events_injective : Function.Injective Content.events := by
  intro c d h
  have happend : c.events ++ [] = d.events ++ [] := by rw [h]
  exact (events_append_inj ends_nil ends_nil happend).1

/-- The text has no fault, and every element that it opens it closes. -/
def WellFormed (t : Text) : Prop := (read t).fault = none ∧ (read t).events.foldlM track [] = some []

instance (t : Text) : Decidable (WellFormed t) := by
  unfold WellFormed
  infer_instance

/-- All elements of the content are closed in it. -/
theorem foldlM_track_events (c : Content) (stack : List Text) :
    c.events.foldlM track stack = some stack := by
  induction c generalizing stack with
  | nil => rfl
  | element name inside after ihinside ihafter =>
    have hopen : track stack (.opening name) = some (name :: stack) := rfl
    have hclose : track (name :: stack) (.closing name) = some stack := if_pos rfl
    rw [Content.events, List.cons_append, List.foldlM_cons, hopen, Option.bind_eq_bind, Option.bind_some,
      List.foldlM_append, ihinside, Option.bind_eq_bind, Option.bind_some, List.foldlM_cons, hclose]
    exact ihafter stack
  | empty name after ih => exact ih stack
  | text raw after ih => exact ih stack
  | verbatim content after ih => exact ih stack

/-- The ends of the open elements, innermost first, each with the content behind it. -/
def closings : List Text → List Content → List Event
  | name :: names, c :: cs => .closing name :: c.events ++ closings names cs
  | _, _ => []

/-- Events that close all open elements are some content, and then the ends of these elements with content
behind each of them. -/
theorem exists_content {events : List Event} {stack : List Text}
    (h : events.foldlM track stack = some []) :
    ∃ (c : Content) (cs : List Content), cs.length = stack.length ∧
      events = c.events ++ closings stack cs := by
  induction events generalizing stack with
  | nil =>
    obtain rfl : stack = [] := Option.some.inj h
    exact ⟨.nil, [], rfl, rfl⟩
  | cons event events ih =>
    cases event with
    | opening name =>
      obtain ⟨inside, cs, hlength, rfl⟩ := @ih (name :: stack) h
      obtain ⟨after, cs, rfl⟩ := List.exists_cons_of_length_eq_add_one hlength
      refine ⟨.element name inside after, cs, by simpa using hlength, ?_⟩
      simp [Content.events, closings]
    | closing name =>
      rw [List.foldlM_cons] at h
      cases stack with
      | nil => cases h
      | cons outer stack =>
        by_cases hname : outer = name
        · subst hname
          have hclose : track (outer :: stack) (.closing outer) = some stack := if_pos rfl
          rw [hclose] at h
          obtain ⟨after, cs, hlength, rfl⟩ := ih h
          exact ⟨.nil, after :: cs, by simp [hlength], rfl⟩
        · have hclose : track (outer :: stack) (.closing name) = none := if_neg hname
          rw [hclose] at h
          cases h
    | empty name =>
      obtain ⟨after, cs, hlength, rfl⟩ := @ih stack h
      exact ⟨.empty name after, cs, hlength, rfl⟩
    | text raw =>
      obtain ⟨after, cs, hlength, rfl⟩ := @ih stack h
      exact ⟨.text raw after, cs, hlength, rfl⟩
    | verbatim content =>
      obtain ⟨after, cs, hlength, rfl⟩ := @ih stack h
      exact ⟨.verbatim content after, cs, hlength, rfl⟩

/-- A text is well formed exactly when its events are those of some content, of one only by
`Content.events_injective`. -/
theorem wellFormed_iff {t : Text} : WellFormed t ↔ ∃ c : Content, read t = ⟨c.events, none⟩ := by
  constructor
  · rintro ⟨hfault, hclosed⟩
    obtain ⟨c, cs, hlength, hevents⟩ := exists_content hclosed
    obtain rfl : cs = [] := List.length_eq_zero_iff.mp hlength
    rw [closings, List.append_nil] at hevents
    · exact ⟨c, by rw [← hevents, ← hfault]⟩
    · exact nofun
  · rintro ⟨c, hread⟩
    rw [WellFormed, hread]
    exact ⟨rfl, foldlM_track_events c []⟩

end SchemaReview.Markup
