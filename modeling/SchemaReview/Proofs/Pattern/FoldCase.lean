import SchemaReview.Proofs.Pattern.Placement
import SchemaReview.Proofs.Text.FoldCase

/-!
# Proofs.Pattern.FoldCase — patterns do not see the case of letters

A pattern is `caseless` when it names letters only by classes that hold both cases.  This is decided
by looking at the pattern.  Folding the text is a placement (`Placement.folding`), so a caseless
pattern finds the same matches in a folded text, folded: `matchAt_foldCase`, `search_foldCase`,
`findAll_foldCase`.
-/

namespace SchemaReview

open Text

/-! ## Folded positions and matches -/

def Cursor.foldCase (c : Cursor) : Cursor := ⟨c.before.map Char.toLower, c.offset, c.rest.foldCase⟩

def Capture.foldCase (c : Capture) : Capture := ⟨c.start, c.stop, c.tail.foldCase⟩

@[simp] theorem Capture.text_foldCase (c : Capture) : c.foldCase.text = c.text.foldCase :=
  takeBytes_foldCase _ _

def Match.foldCase (m : Match) : Match :=
  ⟨m.start.foldCase, m.stop.foldCase, m.captures.map fun entry => (entry.1, entry.2.foldCase)⟩

/-- Folding a text in its place. -/
def Placement.folding : Placement := ⟨Char.toLower, utf8Size_toLower, none, 0, []⟩

namespace Placement

theorem before_folding (b : Option Char) : folding.before b = b.map Char.toLower := by
  simp [before, folding]

theorem text_folding (t : Text) : folding.text t = t.foldCase := by
  simp [text, folding, Text.foldCase]

theorem start_folding_add (n : Nat) : folding.start + n = n := Nat.zero_add n

theorem cursor_folding (c : Cursor) : folding.cursor c = c.foldCase := by
  rw [cursor, before_folding, text_folding, start_folding_add]
  rfl

theorem capture_folding (c : Capture) : folding.capture c = c.foldCase := by
  rw [capture, text_folding, start_folding_add, start_folding_add]
  rfl

theorem hit_folding (m : Match) : folding.hit m = m.foldCase := by
  simp [hit, captures, cursor_folding, capture_folding, Match.foldCase]

end Placement

namespace Match

variable (m : Match) (n : Nat)

@[simp] theorem offset_start_foldCase : m.foldCase.start.offset = m.start.offset := rfl

@[simp] theorem offset_stop_foldCase : m.foldCase.stop.offset = m.stop.offset := rfl

@[simp] theorem rest_stop_foldCase : m.foldCase.stop.rest = m.stop.rest.foldCase := rfl

theorem group?_foldCase : m.foldCase.group? n = (m.group? n).map Capture.foldCase := by
  have hcapture : Placement.folding.capture = Capture.foldCase := funext Placement.capture_folding
  rw [← Placement.hit_folding, Placement.group?_hit, hcapture]

@[simp] theorem groupText_foldCase : m.foldCase.groupText n = (m.groupText n).foldCase := by
  rw [groupText, groupText, group?_foldCase]
  cases m.group? n with
  | none => rfl
  | some c => exact c.text_foldCase

@[simp] theorem groupString_foldCase : m.foldCase.groupString n = foldString (m.groupString n) := by
  rw [groupString, groupString, groupText_foldCase, ofList_foldCase]

end Match

/-! ## Caseless patterns -/

/-- The class holds both cases of a letter or none. -/
def CharClass.caseless : CharClass → Bool
  | .letter _ | .word | .digit | .blank => true
  | .oneOf cs => cs.all fun c => !isAsciiLetter c
  | .except c => !isAsciiLetter c

theorem CharClass.holds_toLower {cls : CharClass} (h : cls.caseless = true) (x : Char) :
    cls.holds x.toLower = cls.holds x := by
  cases cls with
  | letter c =>
    have hupper : x.toLower.toUpper = x.toUpper := apply_toLower Char.toUpper (by decide) x
    have hkelvin : (x.toLower == '\u212a') = (x == '\u212a') :=
      apply_toLower (· == '\u212a') (by decide) x
    have hlong : (x.toLower == '\u017f') = (x == '\u017f') :=
      apply_toLower (· == '\u017f') (by decide) x
    simp only [holds, hupper, hkelvin, hlong]
  | oneOf cs =>
    simp only [caseless, List.all_eq_true, Bool.not_eq_true'] at h
    have hmem : x.toLower ∈ cs ↔ x ∈ cs := by
      constructor
      · intro hx
        rwa [← (toLower_eq_iff (h _ hx) x).mp rfl] at hx
      · intro hx
        rwa [toLower_eq_self (h _ hx)]
    simp only [holds, List.contains_eq_mem, hmem]
  | except c =>
    simp only [caseless, Bool.not_eq_true'] at h
    simp only [holds, bne, Bool.not_inj_iff, beq_eq_beq, toLower_eq_iff h]
  | word => exact isWord_toLower x
  | digit => exact isDigit_toLower x
  | blank => exact isBlank_toLower x

namespace Pattern

/-- The pattern names letters only by classes that hold both cases. -/
def caseless : Pattern → Bool
  | .empty | .wordEdge | .textStart | .textEnd => true
  | .one cls | .many cls => cls.caseless
  | .seq p q | .alt p q => p.caseless && q.caseless
  | .star p | .group _ p => p.caseless

theorem transfers_of_caseless {p : Pattern} (h : p.caseless = true) :
    p.Transfers .folding (fun _ => True) fun _ => True := by
  have hclass : ∀ {cls : CharClass}, cls.caseless = true →
      cls.Transfers .folding (fun _ => True) fun _ => True := by
    intro cls hcls
    refine ⟨fun x _ _ => CharClass.holds_toLower hcls x, fun _ _ _ _ => trivial, ?_⟩
    intro _ x hx
    cases hx
  induction p with
  | empty => exact .empty
  | one cls => exact .one (hclass h)
  | many cls => exact .many (hclass h)
  | seq p q ihp ihq =>
    rw [caseless, Bool.and_eq_true] at h
    exact .seq (ihp h.1) (ihq h.2)
  | alt p q ihp ihq =>
    rw [caseless, Bool.and_eq_true] at h
    exact .alt (ihp h.1) (ihq h.2)
  | star p ih => exact .star rfl (ih h)
  | group n p ih => exact .group n (ih h)
  | wordEdge => exact .wordEdge isWord_toLower rfl fun _ => rfl
  | textStart => exact .textStart rfl
  | textEnd => exact .textEnd rfl

section

variable {p : Pattern} (hp : p.caseless = true)
include hp

theorem matchAt_foldCase (c : Cursor) : p.matchAt c.foldCase = (p.matchAt c).map Match.foldCase := by
  have hhit : Placement.folding.hit = Match.foldCase := funext Placement.hit_folding
  rw [← Placement.cursor_folding, (transfers_of_caseless hp).matchAt trivial, hhit]

/-- Where the cursor is given by its parts. -/
theorem matchAt_mk_foldCase (before : Option Char) (offset : Nat) (t : Text) :
    p.matchAt ⟨before.map Char.toLower, offset, t.foldCase⟩ =
      (p.matchAt ⟨before, offset, t⟩).map Match.foldCase :=
  matchAt_foldCase hp ⟨before, offset, t⟩

theorem matchAt_atStart_foldCase (t : Text) :
    p.matchAt (.atStart t.foldCase) = (p.matchAt (.atStart t)).map Match.foldCase :=
  matchAt_foldCase hp (.atStart t)

theorem searchFrom_foldCase (before : Option Char) (offset : Nat) (t : Text) :
    p.searchFrom (before.map Char.toLower) offset t.foldCase =
      (p.searchFrom before offset t).map Match.foldCase := by
  have hsearch := (transfers_of_caseless hp).searchFrom rfl before offset t
  rwa [Placement.before_folding, Placement.text_folding, Placement.start_folding_add,
    funext Placement.hit_folding] at hsearch

theorem search_foldCase (t : Text) : p.search t.foldCase = (p.search t).map Match.foldCase :=
  searchFrom_foldCase hp none 0 t

theorem occursIn_foldCase (t : Text) : p.occursIn t.foldCase = p.occursIn t := by
  rw [occursIn, occursIn, search_foldCase hp, Option.isSome_map]

theorem searchAt_foldCase (t : Text) (n : Nat) :
    p.searchAt t.foldCase n = (p.searchAt t n).map Match.foldCase := by
  have hseek : ∀ (before : Option Char) (offset : Nat) (t : Text),
      Cursor.seek n (before.map Char.toLower) offset t.foldCase =
        (Cursor.seek n before offset t).foldCase := by
    intro before offset t
    induction t generalizing before offset with
    | nil => rfl
    | cons x xs ih =>
      rw [foldCase_cons, Cursor.seek, Cursor.seek, utf8Size_toLower]
      split
      · rfl
      · exact ih (some x) _
  have hbyte : Cursor.atByte t.foldCase n = (Cursor.atByte t n).foldCase := hseek none 0 t
  rw [searchAt, searchAt, hbyte]
  exact searchFrom_foldCase hp _ _ _

theorem findAllFrom_foldCase (resume : Nat) (before : Option Char) (offset : Nat) (t : Text) :
    p.findAllFrom resume (before.map Char.toLower) offset t.foldCase =
      (p.findAllFrom resume before offset t).map Match.foldCase := by
  have hfind := (transfers_of_caseless hp).findAllFrom rfl resume before offset t
  rwa [Placement.before_folding, Placement.text_folding, Placement.start_folding_add,
    Placement.start_folding_add, funext Placement.hit_folding] at hfind

theorem findAll_foldCase (t : Text) : p.findAll t.foldCase = (p.findAll t).map Match.foldCase :=
  findAllFrom_foldCase hp 0 none 0 t

end

end Pattern

end SchemaReview
