/-!
# Sequence — first occurrences, grouping and sorted sets

Lists keep the order in which things were declared.  `firstBy` drops repeated keys, `groupBy`
collects the members of each key in order of first appearance, and `sortedSet` is the increasing
list of distinct strings.
-/

namespace SchemaReview

variable {α κ : Type}

/-- The members of `xs` whose key was not met before, given the keys in `seen`. -/
def firstByFrom [DecidableEq κ] (key : α → κ) (seen : List κ) : List α → List α
  | [] => []
  | x :: xs =>
    let k := key x
    if k ∈ seen then firstByFrom key seen xs else x :: firstByFrom key (k :: seen) xs

/-- The first member with each key. -/
def firstBy [DecidableEq κ] (key : α → κ) (xs : List α) : List α := firstByFrom key [] xs

/-- The distinct members in order of first appearance. -/
def distinct [DecidableEq α] (xs : List α) : List α := firstBy id xs

/-- Each key in order of first appearance, with its members in order. -/
def groupBy [DecidableEq κ] (key : α → κ) (xs : List α) : List (κ × List α) :=
  let keyed := xs.map fun x => (key x, x)
  (distinct (keyed.map (·.1))).map fun k => (k, (keyed.filter fun p => p.1 = k).map (·.2))

/-- The distinct strings in increasing order of their characters. -/
def sortedSet (xs : List String) : List String :=
  (distinct xs).mergeSort fun a b => decide (a ≤ b)

/-- `x` put at the end unless it is a member already. -/
def appendNew [DecidableEq α] (xs : List α) (x : α) : List α := if x ∈ xs then xs else xs ++ [x]

end SchemaReview
