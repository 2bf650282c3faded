/-!
# Report.Layout — padding and lines of plain reports
-/

namespace SchemaReview.Report

/-- The given number of spaces. -/
def spaces (n : Nat) : String := String.ofList (List.replicate n ' ')

/-- The string at the right end of a field of `width` characters. -/
def alignRight (width : Nat) (s : String) : String := spaces (width - s.length) ++ s

/-- The string at the left end of a field of `width` characters. -/
def alignLeft (width : Nat) (s : String) : String := s ++ spaces (width - s.length)

/-- The lines, each with its line end. -/
def unlines (lines : List String) : String := String.join (lines.map (· ++ "\n"))

/-- Names separated by commas. -/
def commaList (names : List String) : String := ", ".intercalate names

end SchemaReview.Report
