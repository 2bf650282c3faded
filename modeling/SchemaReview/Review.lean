import SchemaReview.Detector.Run

/-!
# Review — running a selection of detectors

The findings of the selected detectors stand one after the other; findings with the same text are
reported once, where they occur first.
-/

namespace SchemaReview

/-- A selection of detectors. -/
structure Review where
  detectors : List Detector
deriving DecidableEq, Repr

namespace Review

/-- Every detector. -/
def full : Review := ⟨Detector.all⟩

/-- The given detectors in the given order, repetitions dropped. -/
def ofDetectors (ds : List Detector) : Review := ⟨distinct ds⟩

/-- The findings in a script. -/
def run (r : Review) (sql : String) : List Finding :=
  let source := Source.ofString sql
  firstBy Finding.render (r.detectors.flatMap fun d => d.find source)

end Review

end SchemaReview
