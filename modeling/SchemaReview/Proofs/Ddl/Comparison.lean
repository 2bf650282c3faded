import Mathlib.Data.List.Defs
import SchemaReview.Proofs.Text.FoldCase
import SchemaReview.Text.Number

/-!
# Proofs.Ddl.Comparison — comparisons with numbers, as they are written and what they mean

* `Comparison`, `Conjunction`, `Disjunction`: a column compared with a number, comparisons joined by
  `AND`, and conjunctions joined by `OR`.  Each value keeps the white space and the spelling of its
  keywords, so that `text` gives every way to write it, and carries the proof that it can be written.
* `Holds`: what they say about an assignment of integers to columns.
* `Conjunction.ranges`: the neighbours that bound a column from above and one from below.
-/

namespace SchemaReview

open Text

/-! ## Written expressions -/

/-- Which way a comparison goes. -/
inductive Sign where
  | less
  | greater
deriving DecidableEq, Repr

/-- How the sign is written. -/
def Sign.char : Sign → Char
  | .less => '<'
  | .greater => '>'

/-- The numbers stand in the order that the sign says. -/
def Sign.Compares : Sign → Int → Int → Prop
  | .less, a, b => a < b
  | .greater, a, b => b < a

instance (a b : Int) : (s : Sign) → Decidable (s.Compares a b)
  | .less => inferInstanceAs (Decidable (a < b))
  | .greater => inferInstanceAs (Decidable (b < a))

/-- A column compared with a number.  The white space around the sign may be missing. -/
structure Comparison where
  column : Text
  sign : Sign
  bound : Text
  lead : Text := [' ']
  trail : Text := [' ']
  column_ne_nil : column ≠ [] := by decide
  column_all : column.all isWord = true := by decide
  bound_ne_nil : bound ≠ [] := by decide
  bound_all : bound.all isAsciiDigit = true := by decide
  lead_all : lead.all isBlank = true := by decide
  trail_all : trail.all isBlank = true := by decide

/-- The comparison as it is written. -/
def Comparison.text (c : Comparison) : Text :=
  c.column ++ (c.lead ++ c.sign.char :: (c.trail ++ c.bound))

/-- The number that the column is compared with. -/
def Comparison.value (c : Comparison) : Nat := digitsValue c.bound

/-- The words that join conditions. -/
inductive Connective where
  | and
  | or
deriving DecidableEq, Repr

/-- The letters of a connective. -/
def Connective.letters : Connective → List Char
  | .and => ['A', 'N', 'D']
  | .or => ['O', 'R']

/-- A connective in any case with white space around it. -/
structure Joiner (k : Connective) where
  word : Text := k.letters
  before : Text := [' ']
  after : Text := [' ']
  word_spells : equalsIgnoringCase word k.letters = true := by decide
  before_ne_nil : before ≠ [] := by decide
  before_all : before.all isBlank = true := by decide
  after_ne_nil : after ≠ [] := by decide
  after_all : after.all isBlank = true := by decide

/-- The connective as it is written. -/
def Joiner.text {k : Connective} (j : Joiner k) : Text := j.before ++ (j.word ++ j.after)

/-- One or more parts joined by the same connective. -/
structure Joined (k : Connective) (α : Type) where
  first : α
  others : List (Joiner k × α)

namespace Joined

variable {k : Connective} {α : Type}

/-- The parts from left to right. -/
def parts (e : Joined k α) : List α := e.first :: e.others.map Prod.snd

/-- The parts and what joins them, as they are written. -/
def textBy (written : α → Text) (e : Joined k α) : Text :=
  written e.first ++ e.others.flatMap fun o => o.1.text ++ written o.2

end Joined

/-- Comparisons joined by `AND`. -/
abbrev Conjunction := Joined .and Comparison

/-- Conjunctions joined by `OR`; the conjunctions bind tighter. -/
abbrev Disjunction := Joined .or Conjunction

/-- The conjunction as it is written. -/
def Conjunction.text (e : Conjunction) : Text := e.textBy Comparison.text

/-- The disjunction as it is written. -/
def Disjunction.text (e : Disjunction) : Text := e.textBy Conjunction.text

/-! ## What they mean -/

/-- The comparison is true of the values; columns that differ only in case are the same. -/
def Comparison.Holds (values : Text → Int) (c : Comparison) : Prop :=
  c.sign.Compares (values c.column.foldCase) c.value

instance (values : Text → Int) (c : Comparison) : Decidable (c.Holds values) :=
  inferInstanceAs (Decidable (c.sign.Compares (values c.column.foldCase) c.value))

/-- All comparisons of the conjunction are true. -/
def Conjunction.Holds (values : Text → Int) (e : Conjunction) : Prop :=
  ∀ c ∈ e.parts, c.Holds values

/-- Some conjunction is true. -/
def Disjunction.Holds (values : Text → Int) (e : Disjunction) : Prop :=
  ∃ conj ∈ e.parts, Conjunction.Holds values conj

/-! ## Ranges -/

/-- The first comparison bounds a column from above and the second one from below. -/
def IsRange (r : Comparison × Comparison) : Bool := r.1.sign = .less ∧ r.2.sign = .greater

/-- The neighbours that bound a column from above and one from below. -/
def Conjunction.ranges (e : Conjunction) : List (Comparison × Comparison) :=
  e.parts.consecutivePairs.filter IsRange

theorem isRange_iff {r : Comparison × Comparison} :
    IsRange r = true ↔ r.1.sign = .less ∧ r.2.sign = .greater := by
  simp [IsRange]

theorem Conjunction.ranges_cons (l u : Comparison) (j : Joiner .and)
    (others : List (Joiner .and × Comparison)) :
    Conjunction.ranges ⟨l, (j, u) :: others⟩ =
      if IsRange (l, u) then (l, u) :: Conjunction.ranges ⟨u, others⟩
      else Conjunction.ranges ⟨u, others⟩ :=
  List.filter_cons

end SchemaReview
